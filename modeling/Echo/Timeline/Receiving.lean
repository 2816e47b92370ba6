import Echo.Client.GroupCrypto
import Echo.Timeline.Frames
import Echo.Timeline.Store

/- How `ws_message_handler.dart` takes `new_message` frames: shown, decrypted at once, or kept
until the keys are there. Previews, unread counts and notifications are left out. -/
namespace Echo.Timeline
open Echo.Client (Slot looksEncrypted groupEncryptedPrefixV1 groupEncryptedPrefixV2)

structure ConversationInfo where
  id : String
  isGroup : Bool
  isEncrypted : Bool

/-- What a message is handed to: the group key, the key and the sender's signature, the session
of a slot, or nothing. -/
inductive Work
  | plain (content : String)
  | group1 (conversationId content : String)
  | group2 (conversationId content fromUserId : String) (fromDeviceId : Option Int) (messageId : Option String)
  | dm (slot : Slot) (fromUserId content : String) (fromDeviceId : Option Int)
  deriving DecidableEq

def Work.isEncrypted : Work → Bool
  | .plain _ => false
  | _ => true

/-- One run of `_decryptAndDeliverWithPreview`, with what it was started with. -/
structure Delivery where
  json : Frame
  myUserId : String
  conversationId : String
  timestamp : String
  senderUsername : String
  alreadySeen : Bool
  work : Work

/-- The state behind the handler; `running` are the deliveries that have not ended, and
`deliveries` all that were started, in order. -/
structure Receiver where
  chat : Chat := {}
  userId : String
  isInitialized : Bool := false
  conversations : List ConversationInfo := []
  isMessageCached : String → String → Bool := fun _ _ => false
  /-- Which sessions of the crypto service are in its cache and not expired. -/
  isFresh : Slot → Bool := fun _ => false
  /-- Owner and envelope. -/
  pendingDecryptQueue : List (String × Frame) := []
  running : List Delivery := []
  deliveries : List Delivery := []

/-- `_sessionKeyFor` -/
def sessionKeyFor (isFresh : Slot → Bool) (peerUserId : String) : Option Int → Slot
  | none => .legacy peerUserId
  | some device =>
    if isFresh ⟨peerUserId, some device⟩ then ⟨peerUserId, some device⟩
    else if isFresh (.legacy peerUserId) then .legacy peerUserId
    else ⟨peerUserId, some device⟩

structure Fields where
  rawContent : String
  fromUserId : String
  fromDeviceId : Option Int
  conversationId : String
  timestamp : String
  senderUsername : String
  messageId : Option String

/-- The casts at the top of `_handleNewMessage`. -/
def readFields (json : Frame) : Option Fields := do
  return {
    rawContent := ← (json "content").asString
    fromUserId := ← (json "from_user_id").asString
    fromDeviceId := ← (json "from_device_id").asIntOrNull
    conversationId := ← (json "conversation_id").asString
    timestamp := ← (json "timestamp").asString
    senderUsername := ← (json "from_username").asString
    messageId := ← (json "message_id").asStringOrNull }

inductive Route
  | system
  | undecryptable
  | plaintext
  | now
  | later
  deriving DecidableEq

namespace Receiver
variable (dates : Dates) (platform : Platform)

def conversation (r : Receiver) (conversationId : String) : Option ConversationInfo :=
  r.conversations.find? fun c => c.id == conversationId

def isGroupConversation (r : Receiver) (conversationId : String) : Bool :=
  (r.conversation conversationId).any ConversationInfo.isGroup

def detectPlaintextGroup (conversation : Option ConversationInfo) (isGroupEncryptedWire : Bool) : Bool :=
  conversation.any ConversationInfo.isGroup && !conversation.any ConversationInfo.isEncrypted &&
    !isGroupEncryptedWire

def detectObviouslyPlaintext (isGroupEncryptedWire : Bool) (rawContent : String) : Bool :=
  !isGroupEncryptedWire && !looksEncrypted rawContent

/-- The branches of `_handleNewMessage`; the test for a group wire knows the first prefix only. -/
def route (r : Receiver) (json : Frame) (fields : Fields) : Route :=
  let isGroupEncryptedWire := startsWith fields.rawContent groupEncryptedPrefixV1
  if startsWith fields.rawContent "__system__:" then .system
  else if (json "undecryptable").isTrue then .undecryptable
  else if detectPlaintextGroup (r.conversation fields.conversationId) isGroupEncryptedWire ||
      (detectObviouslyPlaintext isGroupEncryptedWire fields.rawContent && !r.isInitialized) then .plaintext
  else if r.isInitialized then .now
  else .later

/-- `_decryptContent` up to its first await. -/
def decryptContent (r : Receiver) (rawContent fromUserId conversationId : String) (fromDeviceId : Option Int)
    (messageId : Option String) : Work :=
  let isGrp1 := startsWith rawContent groupEncryptedPrefixV1
  let isGrp2 := startsWith rawContent groupEncryptedPrefixV2
  if isGrp1 || isGrp2 then
    if isGrp2 then .group2 conversationId rawContent fromUserId fromDeviceId messageId
    else .group1 conversationId rawContent
  else if !r.isGroupConversation conversationId && looksEncrypted rawContent then
    .dm (sessionKeyFor r.isFresh fromUserId fromDeviceId) fromUserId rawContent fromDeviceId
  else .plain rawContent

/-- `_decryptAndDeliverWithPreview` up to its first await; a `message_id` that is no string throws. -/
def delivery (r : Receiver) (json : Frame) (rawContent fromUserId myUserId conversationId timestamp
    senderUsername : String) (fromDeviceId : Option Int) (alreadySeen : Bool) : Option Delivery := do
  let messageIdForVerify ← (json "message_id").asStringOrNull
  return {
    json, myUserId, conversationId, timestamp, senderUsername, alreadySeen
    work := r.decryptContent rawContent fromUserId conversationId fromDeviceId messageIdForVerify }

def start (r : Receiver) (d : Option Delivery) : Receiver :=
  { r with running := r.running ++ d.toList, deliveries := r.deliveries ++ d.toList }

def alreadySeen (r : Receiver) (fields : Fields) : Bool :=
  fields.messageId.any fun messageId => messageId ≠ "" && r.isMessageCached fields.conversationId messageId

/-- What `_deliverEncryptedMessageNow` starts. -/
def liveDelivery (r : Receiver) (json : Frame) (fields : Fields) : Option Delivery :=
  r.delivery json fields.rawContent fields.fromUserId r.userId fields.conversationId fields.timestamp
    fields.senderUsername fields.fromDeviceId (r.alreadySeen fields)

def addMessage (r : Receiver) (msg : ChatMessage) : Receiver := { r with chat := r.chat.addMessage msg true }

def cacheMessage (r : Receiver) (conversationId : String) (msg : ChatMessage) : Receiver :=
  if startsWith msg.id "pending_" then r
  else
    { r with isMessageCached := fun c id => (c == conversationId && id == msg.id) || r.isMessageCached c id }

def handleNewMessage (r : Receiver) (json : Frame) : Receiver :=
  match readFields json with
  | none => r
  | some fields =>
    match r.route json fields with
    | .system =>
      match translateSystemSentinel fields.rawContent r.userId with
      | some text =>
        if fields.conversationId = "" then r
        else
          let shown := Chat.addSystemEvent platform r.chat.state r.chat.now fields.conversationId text
          { r with chat := r.chat.withState shown }
      | none => r
    | .undecryptable =>
      match fromServerJson dates (json.withContent "[Encrypted for another device of this account]") r.userId with
      | some msg => r.addMessage { msg with isEncrypted := true }
      | none => r
    | .plaintext =>
      match fromServerJson dates json r.userId with
      | some msg => (r.addMessage msg).cacheMessage fields.conversationId msg
      | none => r
    | .now => r.start (r.liveDelivery json fields)
    | .later =>
      match fromServerJson dates (json.withContent "Securing message...") r.userId with
      | some msg =>
        let held := r.addMessage { msg with isEncrypted := true }
        { held with pendingDecryptQueue := held.pendingDecryptQueue ++ [(r.userId, json)] }
      | none => r

structure DrainFields where
  rawContent : String
  fromUserId : String
  conversationId : String
  timestamp : String
  senderUsername : String

/-- The fields `drainPendingDecryptQueue` reads again. -/
def readDrainFields (json : Frame) : Option DrainFields := do
  return {
    rawContent := ((json "content").orElse (.str "")).text
    fromUserId := (← (json "from_user_id").asStringOrNull).getD ""
    conversationId := (← (json "conversation_id").asStringOrNull).getD ""
    timestamp := (← (json "timestamp").asStringOrNull).getD ""
    senderUsername := (← (json "from_username").asStringOrNull).getD "" }

/-- What the drain starts for an entry: no device id, and nothing seen before. -/
def drainDelivery (r : Receiver) (json : Frame) (fields : DrainFields) : Option Delivery :=
  r.delivery json fields.rawContent fields.fromUserId r.userId fields.conversationId fields.timestamp
    fields.senderUsername none false

def drainLoop (r : Receiver) : List Frame → Receiver
  | [] => r
  | json :: rest =>
    match readDrainFields json with
    | none => r
    | some fields => drainLoop (r.start (r.drainDelivery json fields)) rest

def owned (r : Receiver) : List Frame :=
  (r.pendingDecryptQueue.filter fun entry => entry.1 == r.userId).map Prod.snd

def drainPendingDecryptQueue (r : Receiver) : Receiver :=
  drainLoop { r with pendingDecryptQueue := [] } r.owned

end Receiver

def Delivery.message (dates : Dates) (d : Delivery) (answer : String) : Option ChatMessage :=
  let decryptedContent := match d.work with
    | .plain content => content
    | _ => answer
  (fromServerJson dates (d.json.withContent decryptedContent) d.myUserId).map fun msg =>
    if d.work.isEncrypted then { msg with isEncrypted := true } else msg

namespace Receiver
variable (dates : Dates) (platform : Platform)

def finish (r : Receiver) (k : Nat) (answer : String) : Receiver :=
  match r.running[k]? with
  | none => r
  | some d =>
    let ended := { r with running := r.running.eraseIdx k }
    match d.message dates answer with
    | none => ended
    | some msg => (ended.addMessage msg).cacheMessage d.conversationId msg

inductive Event
  | newMessage (json : Frame)
  | drain
  | finish (k : Nat) (answer : String)
  | initialized (ready : Bool)
  | conversations (known : List ConversationInfo)
  | sessions (isFresh : Slot → Bool)
  | clearPendingDecryptQueue
  | signIn (userId : String)
  | store (op : Op)

def step (r : Receiver) : Event → Receiver
  | .newMessage json => r.handleNewMessage dates platform json
  | .drain => r.drainPendingDecryptQueue
  | .finish k answer => r.finish dates k answer
  | .initialized ready => { r with isInitialized := ready }
  | .conversations known => { r with conversations := known }
  | .sessions isFresh => { r with isFresh := isFresh }
  | .clearPendingDecryptQueue => { r with pendingDecryptQueue := [] }
  | .signIn userId => { r with userId := userId }
  | .store op => { r with chat := r.chat.perform platform op }

def run (r : Receiver) (events : List Event) : Receiver := events.foldl (fun r e => r.step dates platform e) r

end Receiver
end Echo.Timeline
