import Echo.Timeline.Index

/- Sends and their confirmations: the store of one client, the frames it has sent, and the
`message_sent` frames on their way back, in the order in which the server stored the messages. -/
namespace Echo.Timeline
open ChatState Chat

/-- What the client and the server know of a conversation. A message to a group that names no
channel is stored in the default one. -/
structure Directory where
  isGroup : String → Bool
  defaultTextChannel : String → Option String

structure Send where
  pendingId : String
  conversationId : String
  channelId : Option String
  retried : Bool

/-- A `message_sent` frame; `pendingId` records which send it answers and is not part of it. -/
structure Confirmation where
  pendingId : String
  messageId : String
  conversationId : String
  channelId : Option String
  timestamp : String
  expiresAt : Option Nat

structure Wire where
  chat : Chat := {}
  issued : List String := []
  outstanding : List Send := []
  confirmations : List Confirmation := []
  delivered : List Confirmation := []

def isPendingId (id : String) : Bool := startsWith id "pending_"

def isLocalId (id : String) : Bool := isPendingId id || startsWith id "failed_"

/-- A message that reaches the store other than by a send of this client. -/
def isBrought (msg : ChatMessage) : Bool := !isPendingId msg.id && (msg.status != .failed || isLocalId msg.id)

def Op.isBackground : Op → Bool
  | .addMessage msg _ => isBrought msg
  | .hydrate latest => isBrought latest
  | .mergeMessages _ newMessages _ => newMessages.all isBrought
  | .addOptimistic .. => false
  | .timeout _ => false
  | .confirmSent .. => false
  | .updateMessageStatus _ _ status => status != .sending && status != .failed
  | _ => true

inductive Event
  | send (content myUserId : String) (username : Option String) (conversationId : String)
    (channelId replyToId replyToContent replyToUsername threadRootId : Option String)
  | retry (conversationId messageId : String)
  | throws (k : Nat)
  | reject (k : Nat)
  | store (k : Nat) (messageId timestamp : String) (expiresAt : Option Nat)
  | lose (k : Nat)
  | deliver
  | timer (pendingId : String)
  | background (op : Op)

namespace Wire
variable (directory : Directory) (platform : Platform)

def list (w : Wire) (c : String) : List ChatMessage := w.chat.state.messagesForConversation c

def send (w : Wire) (content me : String) (username : Option String) (c : String)
    (channel replyTo replyContent replyName threadRoot : Option String) : Wire :=
  let channelId := if directory.isGroup c then channel else none
  { w with
    chat := w.chat.addOptimistic platform content me username c channelId replyTo replyContent replyName threadRoot
    issued := w.issued ++ [pendingId w.chat.now]
    outstanding := w.outstanding ++ [⟨pendingId w.chat.now, c, channelId, false⟩] }

/-- `retryMessage`: the bubble of a failed message offers it. -/
def retry (w : Wire) (c messageId : String) : Wire :=
  match (w.list c).find? (fun m => m.id == messageId) with
  | none => w
  | some m =>
    if m.status = .failed then
      { w with
        chat := w.chat.withState (updateMessageStatus w.chat.state c messageId .sending)
        outstanding := w.outstanding ++ [⟨messageId, c, if directory.isGroup c then m.channelId else none, true⟩] }
    else w

def throws (w : Wire) (k : Nat) : Wire :=
  match w.outstanding[k]? with
  | none => w
  | some s =>
    { w with
      chat := if s.retried then
          w.chat.withState (updateMessageStatus w.chat.state s.conversationId s.pendingId .failed)
        else w.chat
      outstanding := w.outstanding.eraseIdx k }

def store (w : Wire) (k : Nat) (messageId timestamp : String) (expiresAt : Option Nat) : Wire :=
  match w.outstanding[k]? with
  | none => w
  | some s =>
    if isLocalId messageId then w
    else
      let channelId := if directory.isGroup s.conversationId then
          s.channelId <|> directory.defaultTextChannel s.conversationId
        else none
      { w with
        outstanding := w.outstanding.eraseIdx k
        confirmations := w.confirmations ++
          [⟨s.pendingId, messageId, s.conversationId, channelId, timestamp, expiresAt⟩] }

/-- `_handleMessageSent`. -/
def deliver (w : Wire) : Wire :=
  match w.confirmations with
  | [] => w
  | conf :: rest =>
    { w with
      chat := w.chat.confirmSent conf.messageId conf.conversationId conf.timestamp conf.channelId conf.expiresAt
      confirmations := rest
      delivered := w.delivered ++ [conf] }

def step (w : Wire) : Event → Wire
  | .send content me username c channel replyTo replyContent replyName threadRoot =>
    w.send directory platform content me username c channel replyTo replyContent replyName threadRoot
  | .retry c messageId => w.retry directory c messageId
  | .throws k => w.throws k
  | .reject k => { w with outstanding := w.outstanding.eraseIdx k }
  | .store k messageId timestamp expiresAt => w.store directory k messageId timestamp expiresAt
  | .lose k => { w with confirmations := w.confirmations.eraseIdx k }
  | .deliver => w.deliver
  | .timer pendingId => { w with chat := w.chat.timeout pendingId }
  | .background op => if op.isBackground then { w with chat := w.chat.perform platform op } else w

def run (events : List Event) : Wire := events.foldl (fun w e => w.step directory platform e) {}

end Wire

/-- The message `earlier` was created for a send before the one of `later`. -/
def Before (w : Wire) (earlier later : String) : Prop := [earlier, later].Sublist w.issued

/-- What has to hold when a confirmation arrives: its message, if still listed, still waits on the
confirmation's channel; none created before it waits there; and if it is gone, none waits at all. -/
structure InOrder (w : Wire) (conf : Confirmation) : Prop where
  waits : ∀ m ∈ w.list conf.conversationId, m.id = conf.pendingId → isPendingFor conf.channelId m = true
  first : ∀ m ∈ w.list conf.conversationId, isPendingFor conf.channelId m = true → ¬ Before w m.id conf.pendingId
  listed : (∃ m ∈ w.list conf.conversationId, isPendingFor conf.channelId m = true) →
    ∃ m ∈ w.list conf.conversationId, m.id = conf.pendingId

/-- The waiting messages of a conversation stand in the order of their timestamps. -/
def Dated (w : Wire) (c : String) : Prop :=
  ((w.list c).filter fun m => isPendingId m.id).Pairwise fun a b => codeUnits a.timestamp < codeUnits b.timestamp

/-- The condition on each event of a run: no two sends in one millisecond, confirmations in order,
history merged over waiting messages that their timestamps keep in place, and no message brought
in under the id of one already confirmed. -/
def Orderly (w : Wire) : Event → Prop
  | .send .. => pendingId w.chat.now ∉ w.issued
  | .deliver => ∀ conf rest, w.confirmations = conf :: rest → InOrder w conf
  | .background op =>
    (∀ id ∈ op.newIds w.chat.now, ∀ conf ∈ w.delivered, id ≠ conf.pendingId) ∧
      ∀ c newMessages channelId, op = .mergeMessages c newMessages channelId → Dated w c
  | _ => True

inductive OrderlyRun (directory : Directory) (platform : Platform) : Wire → Prop
  | start : OrderlyRun directory platform {}
  | step {w : Wire} (e : Event) : OrderlyRun directory platform w → Orderly w e →
    OrderlyRun directory platform (w.step directory platform e)

/-- Whichever message the confirmation rewrites, it is the one it confirms. -/
def Attaches (w : Wire) (conf : Confirmation) : Prop :=
  ∀ replaced updated, replacePendingMessage conf.messageId conf.timestamp conf.channelId conf.expiresAt
    (w.list conf.conversationId) = some (replaced, updated) → replaced = conf.pendingId

/-- No message whose confirmation has arrived stands as failed, under its own id or the server's. -/
def Settled (w : Wire) : Prop :=
  ∀ conf ∈ w.delivered, ∀ m ∈ w.list conf.conversationId,
    m.id = conf.pendingId ∨ m.id = conf.messageId → m.status ≠ .failed

end Echo.Timeline
