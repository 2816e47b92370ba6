import Echo.Server.Machine
import Echo.Server.Shape

/-! What `handle_send_message` checks and resolves before it stores anything: `validate.rs`,
`routing.rs` and `types.rs`. Every access to the shared state is followed by a point where
another task may run. -/
namespace Echo.Server
open Echo.Lib

abbrev Task (α : Type) := Async machine Empty α

def ask (r : Request) : Task (Answer r) := do
  let answer ← Async.ask (M := machine) r
  Async.pause
  pure answer

def query (q : Query) : Task (Except Unit q.Result) := ask (.query q)

/-- `unwrap_or_default` on rows. -/
def unwrapOrDefault {α : Type} (rows : Task (Except Unit (List α))) : Task (List α) := do
  match ← rows with
  | .ok rows => pure rows
  | .error _ => pure []

section Sending

/-- `send_to_device`: false unless the frame was put into the queue. -/
def sendToDevice (userId : Uuid) (deviceId : Int) (frame : Frame) : Task Bool := do
  match ← ask (.connectionOf userId deviceId) with
  | none => pure false
  | some tx => ask (.trySend userId deviceId tx frame)

def trySendEach (userId : Uuid) (frame : Frame) : List (Int × Nat) → Task (List Int)
  | [] => pure []
  | (deviceId, tx) :: devices => do
    let sent : Bool ← ask (.trySend userId deviceId tx frame)
    let accepted ← trySendEach userId frame devices
    pure (if sent then deviceId :: accepted else accepted)

def sendToUserCollecting (userId : Uuid) (frame : Frame) : Task (List Int) := do
  let devices ← ask (.devicesOf userId)
  trySendEach userId frame devices

def sendToUserExceptDevice (userId : Uuid) (excludeDeviceId : Int) (frame : Frame) : Task (List Int) := do
  let devices : List (Int × Nat) ← ask (.devicesOf userId)
  trySendEach userId frame (devices.filter fun d => d.1 ≠ excludeDeviceId)

def sendTo (userId : Uuid) (frame : Frame) : Task Unit := do
  let _ ← sendToUserCollecting userId frame
  pure ()

def sendError (userId : Uuid) (message : String) : Task Unit := sendTo userId (.error message)

end Sending

section Wire

/-- How ids are written and read: the `uuid` crate reads back what it writes. -/
structure UuidFormat where
  text : Uuid → String
  parse : String → Option Uuid
  parse_text : ∀ id, parse (text id) = some id

theorem tally_length (id : Uuid) : some (String.ofList (List.replicate id 'x')).length = some id := by simp

instance device_lawful : LawfulBEq (Uuid × Int) := inferInstance

/-- `str::parse::<i32>` -/
def parseI32 (text : String) : Option Int :=
  let number (digits : List Char) : Option Nat :=
    if digits ≠ [] ∧ digits.all Char.isDigit then some (Nat.ofDigitChars 10 digits 0) else none
  let value : Option Int := match text.toList with
    | '-' :: digits => (number digits).map fun n => -(n : Int)
    | '+' :: digits => (number digits).map Int.ofNat
    | digits => (number digits).map Int.ofNat
  value.filter fun n => -2 ^ 31 ≤ n ∧ n < 2 ^ 31

abbrev RecipientDeviceContents := LinkedMap String (LinkedMap String String)

abbrev DeviceContents := LinkedMap Int String

structure ParsedRecipientDeviceContents where
  byUser : LinkedMap Uuid DeviceContents

namespace ParsedRecipientDeviceContents

def deviceFromWire (byDevice : DeviceContents) (e : String × String) : DeviceContents :=
  match parseI32 e.1 with
  | none => byDevice
  | some did => byDevice.insert did e.2

def userFromWire (F : UuidFormat) (byUser : LinkedMap Uuid DeviceContents)
    (e : String × LinkedMap String String) : LinkedMap Uuid DeviceContents :=
  match F.parse e.1 with
  | none => byUser
  | some uid => byUser.insert uid (e.2.entries.foldl deviceFromWire .empty)

/-- Keys that do not parse are dropped; of two keys for one id the later one stays. -/
def fromWire (F : UuidFormat) (rdc : RecipientDeviceContents) : ParsedRecipientDeviceContents :=
  ⟨rdc.entries.foldl (userFromWire F) .empty⟩

def recipientIds (rdc : ParsedRecipientDeviceContents) : List Uuid := rdc.byUser.entries.map Prod.fst

end ParsedRecipientDeviceContents

end Wire

/-- A `send_message` frame with what the connection knows of its sender. -/
structure SendMessage where
  senderId : Uuid
  senderDeviceId : Int
  senderUsername : String
  conversationId : Option Uuid
  channelId : Option Uuid
  toUserId : Option Uuid
  content : String
  replyToId : Option Uuid
  recipientDeviceContents : Option RecipientDeviceContents
  ttlSeconds : Option Int
  clientMessageId : Option Uuid
  threadRootId : Option Uuid

section Checks

def maxMessageLength : Nat := 10000

/-- Unicode `White_Space`. -/
def isWhitespace (c : Char) : Bool :=
  let n := c.toNat
  (9 ≤ n && n ≤ 13) || n == 0x20 || n == 0x85 || n == 0xA0 || n == 0x1680 || (0x2000 ≤ n && n ≤ 0x200A) ||
    n == 0x2028 || n == 0x2029 || n == 0x202F || n == 0x205F || n == 0x3000

def validateMessageLength (senderId : Uuid) (content : String) : Task Bool := do
  if content.toList.all isWhitespace then
    sendError senderId "Content cannot be empty"
    pure false
  else if maxMessageLength < content.utf8ByteSize then
    sendError senderId ("Message too long: " ++ toString content.utf8ByteSize ++ " characters (max " ++
      toString maxMessageLength ++ ")")
    pure false
  else pure true

def encryptedPayloadRequired : String := "Encrypted conversation requires ciphertext payload"

/-- Every recipient has a device, and every ciphertext the shape of one. -/
def perDeviceCiphertextsValid (rdc : RecipientDeviceContents) : Bool :=
  rdc.entries.all fun (_, devices) =>
    !devices.entries.isEmpty && devices.entries.all fun (_, ciphertext) => isValidCiphertextShape ciphertext

def encryptedPayloadValid (kind : ConversationKind) (content : String)
    (recipientDeviceContents : Option RecipientDeviceContents) : Bool :=
  match kind with
  | .direct =>
    isValidCiphertextShape content &&
      match recipientDeviceContents with
      | none => false
      | some rdc => !rdc.entries.isEmpty && perDeviceCiphertextsValid rdc
  | .group => isValidCiphertextShape content

def validateEncryptedPayload (senderId : Uuid) (kind : ConversationKind) (content : String)
    (recipientDeviceContents : Option RecipientDeviceContents) : Task Bool := do
  if encryptedPayloadValid kind content recipientDeviceContents then pure true
  else
    sendError senderId encryptedPayloadRequired
    pure false

def dmPeerMissingCode : String := "dm-peer-not-in-recipients"

def includesPeers (F : UuidFormat) (senderId : Uuid) (members : List Uuid) (rdc : RecipientDeviceContents) :
    Bool :=
  members.all fun memberId => memberId = senderId || (rdc.find (F.text memberId)).isSome

def enforceDmRecipientIncludesPeer (F : UuidFormat) (senderId conversationId : Uuid)
    (rdc : RecipientDeviceContents) : Task Bool := do
  match ← query (.memberIds conversationId) with
  | .error _ =>
    sendError senderId "Database error"
    pure false
  | .ok members =>
    if includesPeers F senderId members rdc then pure true
    else
      sendError senderId dmPeerMissingCode
      pure false

def senderNotMemberCode : String := "sender-not-member"

def enforceGroupSenderMembership (senderId conversationId : Uuid) : Task Bool := do
  match ← query (.isMember conversationId senderId) with
  | .ok true => pure true
  | .ok false =>
    sendError senderId senderNotMemberCode
    pure false
  | .error _ =>
    sendError senderId "Database error"
    pure false

def resolveConversation (senderId : Uuid) (conversationId toUserId : Option Uuid) : Task (Option Uuid) := do
  match conversationId, toUserId with
  | some cid, _ =>
    match ← query (.isMember cid senderId) with
    | .ok true => pure (some cid)
    | .ok false =>
      sendError senderId "Not a member of this conversation"
      pure none
    | .error _ =>
      sendError senderId "Database error"
      pure none
  | none, some toUid =>
    match ← query (.areContacts senderId toUid) with
    | .ok true =>
      match ← ask (.findOrCreateDm senderId toUid) with
      | .ok id => pure (some id)
      | .error _ =>
        sendError senderId "Failed to create conversation"
        pure none
    | .ok false =>
      sendError senderId "Not a contact"
      pure none
    | .error _ =>
      sendError senderId "Database error"
      pure none
  | none, none =>
    sendError senderId "Must provide conversation_id or to_user_id"
    pure none

def validateExplicitChannel (senderId conversationId channelId : Uuid) : Task (Option (Option Uuid)) := do
  match ← query (.channel channelId) with
  | .ok (some channel) =>
    if channel.conversationId ≠ conversationId then
      sendError senderId "Channel is not part of this conversation"
      pure none
    else if channel.isText then pure (some (some channelId))
    else
      sendError senderId "Messages can only be sent to text channels"
      pure none
  | .ok none =>
    sendError senderId "Channel not found"
    pure none
  | .error _ =>
    sendError senderId "Database error"
    pure none

def resolveDefaultTextChannel (senderId conversationId : Uuid) : Task (Option (Option Uuid)) := do
  match ← query (.defaultTextChannel conversationId) with
  | .ok (some channel) => pure (some (some channel.id))
  | .ok none =>
    sendError senderId "No text channel found for this group"
    pure none
  | .error _ =>
    sendError senderId "Database error"
    pure none

def resolveChannel (senderId conversationId : Uuid) (channelId : Option Uuid) (kind : ConversationKind) :
    Task (Option (Option Uuid)) :=
  match kind, channelId with
  | .direct, _ => pure (some none)
  | .group, some cid => validateExplicitChannel senderId conversationId cid
  | .group, none => resolveDefaultTextChannel senderId conversationId

def validateConversationSecurity (senderId conversationId : Uuid) (channelId : Option Uuid) :
    Task (Option (ConversationSecurity × Option Uuid)) := do
  match ← query (.conversationSecurity conversationId) with
  | .ok (some security) =>
    if security.kind ≠ .group ∧ channelId.isSome then
      sendError senderId "channel_id is only valid for group conversations"
      pure none
    else
      match ← resolveChannel senderId conversationId channelId security.kind with
      | none => pure none
      | some resolved =>
        if security.kind = .direct ∧ ¬ security.isEncrypted then
          sendError senderId "Direct messages must be end-to-end encrypted"
          pure none
        else pure (some (security, resolved))
  | .ok none =>
    sendError senderId "Conversation not found"
    pure none
  | .error _ =>
    sendError senderId "Database error"
    pure none

/-- Content and author of the message replied to, as they are now; nothing when it is not found. -/
def lookupReplyContext (replyToId : Option Uuid) (conversationId : Uuid) :
    Task (Option String × Option String) := do
  match replyToId with
  | none => pure (none, none)
  | some rid =>
    match ← query (.replyContext rid conversationId) with
    | .ok (some (content, username)) => pure (some content, some username)
    | _ => pure (none, none)

end Checks
end Echo.Server
