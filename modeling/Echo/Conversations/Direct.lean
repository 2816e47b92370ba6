import Echo.Lib.Async
import Echo.Groups.Tables

/-! Direct conversations: `find_or_create_dm_conversation` of `db/messages.rs` with each statement a
step of its own, `leave_conversation` of `routes/messages.rs`, and the way of a message into a
conversation. Left out are the checks on the text of a message and the member count. -/
namespace Echo.Conversations.Direct
open Echo.Lib
open Echo.Server (Uuid ConversationKind)
open Echo.Groups (Role)

section Tables

structure Conversation where
  kind : ConversationKind
  isEncrypted : Bool
  deriving DecidableEq

structure Member where
  role : Role
  isRemoved : Bool
  deriving DecidableEq

structure Message where
  id : Uuid
  conversationId : Uuid
  senderId : Uuid
  content : String
  deriving DecidableEq

structure Tables where
  users : Uuid → Bool
  /-- `hashtext` of both ids; other pairs may share it. -/
  hashtext : Uuid × Uuid → Int
  /-- Accepted contacts: requester and target. -/
  contacts : List (Uuid × Uuid)
  conversations : Uuid → Option Conversation
  members : Uuid → LinkedMap Uuid Member
  /-- The smaller id first. -/
  directConversations : Uuid × Uuid → Option Uuid
  messages : List Message

inductive Write where
  | advisoryLock (key : Int)
  | conversation (id : Uuid)
  | member (conversationId userId : Uuid)
  | direct (pair : Uuid × Uuid) (conversationId : Uuid)
  /-- The update that changes nothing. -/
  | touch (pair : Uuid × Uuid)
  | removed (conversationId userId : Uuid)
  | deleted (conversationId : Uuid)
  | message (row : Message)
  deriving DecidableEq

inductive Key where
  | advisory (key : Int)
  | conversation (id : Uuid)
  | member (conversationId userId : Uuid)
  | pair (pair : Uuid × Uuid)
  | message (id : Uuid)
  deriving DecidableEq

inductive Query where
  | findDirect (pair : Uuid × Uuid)
  | advisoryLock (pair : Uuid × Uuid)
  /-- With the id that `gen_random_uuid()` gives. -/
  | insertConversation (fresh : Uuid)
  | insertMember (conversationId userId : Uuid)
  /-- `INSERT … ON CONFLICT … DO UPDATE … RETURNING conversation_id` -/
  | claim (pair : Uuid × Uuid) (conversationId : Uuid)
  | memberRole (conversationId userId : Uuid)
  | memberIds (conversationId : Uuid)
  | removeMember (conversationId userId : Uuid)
  | forceDelete (conversationId : Uuid)
  | areContacts (userA userB : Uuid)
  | isMember (conversationId userId : Uuid)
  | conversationSecurity (conversationId : Uuid)
  | storeMessage (row : Message)

inductive Refusal where
  | uniqueViolation
  | foreignKeyViolation
  | checkViolation
  deriving DecidableEq

def Query.Result : Query → Type
  | findDirect _ => Option Uuid
  | insertConversation _ | claim .. => Uuid
  | memberRole .. => Option Role
  | memberIds _ => List Uuid
  | removeMember .. | areContacts .. | isMember .. => Bool
  | conversationSecurity _ => Option Conversation
  | _ => Unit

namespace Tables
variable (t : Tables)

def isMember (conversationId userId : Uuid) : Bool :=
  ((t.members conversationId).find userId).any fun m => !m.isRemoved

def memberIds (conversationId : Uuid) : List Uuid :=
  ((t.members conversationId).entries.filter fun e => !e.2.isRemoved).map Prod.fst

def memberRole (conversationId userId : Uuid) : Option Role :=
  (((t.members conversationId).find userId).filter fun m => !m.isRemoved).map Member.role

def areContacts (userA userB : Uuid) : Bool := t.contacts.any fun c => c = (userA, userB) ∨ c = (userB, userA)

/-- The rows `list_conversations` selects, before it takes the fifty with the newest messages. -/
def lists (userId conversationId : Uuid) : Bool :=
  (t.conversations conversationId).isSome && t.isMember conversationId userId

/-- The rows that `get_messages` pages through. -/
def getMessages (userId conversationId : Uuid) : Option (List Message) :=
  if t.isMember conversationId userId then some (t.messages.filter fun m => m.conversationId = conversationId)
  else none

def apply : Write → Tables
  | .advisoryLock _ | .touch _ => t
  | .conversation id => { t with conversations := Function.update t.conversations id (some ⟨.direct, true⟩) }
  | .member conversationId userId =>
    let joined := (t.members conversationId).insert userId ⟨.member, false⟩
    { t with members := Function.update t.members conversationId joined }
  | .direct pair conversationId =>
    { t with directConversations := Function.update t.directConversations pair (some conversationId) }
  | .removed conversationId userId =>
    let left := match (t.members conversationId).find userId with
      | some m => (t.members conversationId).insert userId { m with isRemoved := true }
      | none => t.members conversationId
    { t with members := Function.update t.members conversationId left }
  | .deleted conversationId =>
    { t with
      conversations := Function.update t.conversations conversationId none
      members := Function.update t.members conversationId .empty
      directConversations := fun pair => (t.directConversations pair).filter (· ≠ conversationId)
      messages := t.messages.filter fun m => m.conversationId ≠ conversationId }
  | .message row => { t with messages := t.messages ++ [row] }

end Tables

def Write.keys : Write → List Key
  | .advisoryLock key => [.advisory key]
  | .conversation id => [.conversation id]
  | .member conversationId userId => [.member conversationId userId]
  | .direct pair _ | .touch pair => [.pair pair]
  | .removed conversationId userId => [.member conversationId userId, .conversation conversationId]
  | .deleted conversationId => [.conversation conversationId]
  | .message row => [.message row.id]

/-- The unique index on `conversation_id` is left out: nobody else has the id of a conversation just made. -/
def Query.eval : (q : Query) → Tables → Except Refusal (q.Result × List Write)
  | .findDirect pair, t => .ok (t.directConversations pair, [])
  | .advisoryLock pair, t => .ok ((), [.advisoryLock (t.hashtext pair)])
  | .insertConversation fresh, t =>
    if (t.conversations fresh).isSome then .error .uniqueViolation else .ok (fresh, [.conversation fresh])
  | .insertMember conversationId userId, t =>
    if ((t.members conversationId).find userId).isSome then .error .uniqueViolation
    else if (t.conversations conversationId).isSome && t.users userId then
      .ok ((), [.member conversationId userId])
    else .error .foreignKeyViolation
  | .claim pair conversationId, t =>
    if pair.1 < pair.2 then
      match t.directConversations pair with
      | some winner => .ok (winner, [.touch pair])
      | none => .ok (conversationId, [.direct pair conversationId])
    else .error .checkViolation
  | .memberRole conversationId userId, t => .ok (t.memberRole conversationId userId, [])
  | .memberIds conversationId, t => .ok (t.memberIds conversationId, [])
  | .removeMember conversationId userId, t =>
    let active := t.isMember conversationId userId
    .ok (active, if active then [.removed conversationId userId] else [])
  | .forceDelete conversationId, t =>
    .ok ((), if (t.conversations conversationId).isSome then [.deleted conversationId] else [])
  | .areContacts userA userB, t => .ok (t.areContacts userA userB, [])
  | .isMember conversationId userId, t => .ok (t.isMember conversationId userId, [])
  | .conversationSecurity conversationId, t => .ok (t.conversations conversationId, [])
  | .storeMessage row, t =>
    if t.messages.any fun m => m.id = row.id then .error .uniqueViolation
    else if (t.conversations row.conversationId).isSome then .ok ((), [.message row])
    else .error .foreignKeyViolation

def schema : Schema where
  Tables := Tables
  Write := Write
  apply := Tables.apply
  Key := Key
  decKey := inferInstance
  keys := Write.keys
  Query := Query
  Result := Query.Result
  Refusal := Refusal
  eval := Query.eval

end Tables

section Machine

inductive Fault where
  | before
  | after
  deriving DecidableEq

structure State where
  store : Store schema
  /-- How the coming database accesses fail, if they do. -/
  faults : List (Option Fault)

inductive Request where
  | sql (r : Sql schema)
  /-- `find_or_create_dm_conversation` returns. -/
  | returned (pair : Uuid × Uuid) (conversationId : Uuid)

def Answer : Request → Type
  | .sql r => r.Answer
  | .returned .. => Unit

def lost : (r : Sql schema) → r.Answer → r.Answer
  | .start, _ | .run .., _ | .commit _, _ => .error none
  | .rollback _, a => a

namespace State

def tables (s : State) : Tables := s.store.tables

def fault (s : State) : Option Fault := s.faults.headD none

def performed (s : State) (store : Store schema) : State := { s with store, faults := s.faults.tail }

def sqlPerform (s : State) (r : Sql schema) : Option (r.Answer × State) :=
  match s.fault with
  | none => (s.store.perform false r).map fun (a, store) => (a, s.performed store)
  | some .before => (s.store.perform true r).map fun (a, store) => (a, s.performed store)
  | some .after => (s.store.perform false r).map fun (a, store) => (lost r a, s.performed store)

def perform : (r : Request) → State → Option (Answer r × State)
  | .sql r, s => s.sqlPerform r
  | .returned .., s => some ((), s)

def restart (s : State) : State := { s with store := s.store.restart }

def new (tables : Tables) (faults : List (Option Fault)) : State := ⟨⟨tables, fun _ => [], 0⟩, faults⟩

end State

def machine : Machine where
  State := State
  Req := Request
  Ans := Answer
  perform := State.perform
  restart := State.restart

end Machine

section Routes

inductive Failure where
  | database
  | refused (message : String)
  deriving DecidableEq

abbrev Task (α : Type) := Async machine Failure α

def fail {α : Type} (e : Failure) : Task α := Async.throw e

def atOnce (r : Request) : Task (Answer r) := Async.ask (M := machine) r

def ask (r : Request) : Task (Answer r) := do
  let answer ← Async.ask (M := machine) r
  Async.pause
  pure answer

def dbErr {α : Type} (access : Task (Except (Option Refusal) α)) : Task α := do
  match ← access with
  | .ok a => pure a
  | .error _ => fail .database

def query (q : Query) (tx : Option Nat) : Task q.Result := dbErr (ask (.sql (.run tx q)))

def transaction {α : Type} (body : Nat → Task α) : Task α := do
  let tx ← dbErr (ask (.sql .start))
  (body tx).catching fun e => do
    ask (.sql (.rollback tx))
    fail e

def commit (tx : Nat) : Task Unit := dbErr (ask (.sql (.commit tx)))

def canonical (userA userB : Uuid) : Uuid × Uuid := if userA < userB then (userA, userB) else (userB, userA)

def createDm (tx : Nat) (pair : Uuid × Uuid) (userA userB fresh : Uuid) : Task Uuid := do
  let conversationId : Uuid ← query (.insertConversation fresh) (some tx)
  query (.insertMember conversationId userA) (some tx)
  query (.insertMember conversationId userB) (some tx)
  let winner : Uuid ← query (.claim pair conversationId) (some tx)
  if winner ≠ conversationId then
    ask (.sql (.rollback tx))
    pure winner
  else
    commit tx
    pure conversationId

def findOrCreateDmConversation (userA userB fresh : Uuid) : Task Uuid := do
  let pair := canonical userA userB
  let existing : Option Uuid ← query (.findDirect pair) none
  match existing with
  | some conversationId => pure conversationId
  | none =>
    transaction fun tx => do
      query (.advisoryLock pair) (some tx)
      let existingInTx : Option Uuid ← query (.findDirect pair) (some tx)
      match existingInTx with
      | some conversationId =>
        ask (.sql (.rollback tx))
        pure conversationId
      | none => createDm tx pair userA userB fresh

def findOrCreate (userA userB fresh : Uuid) : Task Uuid := do
  let conversationId ← findOrCreateDmConversation userA userB fresh
  atOnce (.returned (canonical userA userB) conversationId)
  pure conversationId

def removeMember (conversationId userId : Uuid) : Task Bool :=
  transaction fun tx => do
    let removed : Bool ← query (.removeMember conversationId userId) (some tx)
    commit tx
    pure removed

def unwrapOrDefault (access : Task (List Uuid)) : Task (List Uuid) := access.catching fun _ => pure []

def ensureNotOwnerOfOthers (userId conversationId : Uuid) : Task Unit := do
  let role : Option Role ← query (.memberRole conversationId userId) none
  if role = some .owner then
    let members ← unwrapOrDefault (query (.memberIds conversationId) none)
    if 1 < members.length then fail (.refused "Transfer ownership before leaving the group") else pure ()
  else pure ()

def leaveConversation (userId conversationId : Uuid) : Task Unit := do
  ensureNotOwnerOfOthers userId conversationId
  let removed ← removeMember conversationId userId
  if !removed then fail (.refused "Not a member of this conversation")
  else
    let remaining ← unwrapOrDefault (query (.memberIds conversationId) none)
    if remaining.isEmpty then
      (query (.forceDelete conversationId) none).catching fun _ => pure ()
    else pure ()

structure SendMessage where
  senderId : Uuid
  conversationId : Option Uuid
  toUserId : Option Uuid
  content : String
  /-- Minted by the client, or drawn. -/
  messageId : Uuid
  fresh : Uuid

def resolveConversation (m : SendMessage) : Task Uuid :=
  match m.conversationId, m.toUserId with
  | some conversationId, _ => do
    let isMember : Bool ← query (.isMember conversationId m.senderId) none
    if isMember then pure conversationId else fail (.refused "Not a member of this conversation")
  | none, some toUserId => do
    let areContacts : Bool ← query (.areContacts m.senderId toUserId) none
    if areContacts then findOrCreate m.senderId toUserId m.fresh else fail (.refused "Not a contact")
  | none, none => fail (.refused "Must provide conversation_id or to_user_id")

def handleSendMessage (m : SendMessage) : Task Message := do
  let conversationId ← resolveConversation m
  let security : Option Conversation ← query (.conversationSecurity conversationId) none
  match security with
  | none => fail (.refused "Conversation not found")
  | some security =>
    if security.kind = .direct ∧ security.isEncrypted = false then
      fail (.refused "Direct messages must be end-to-end encrypted")
    else
      let row : Message := ⟨m.messageId, conversationId, m.senderId, m.content⟩
      query (.storeMessage row) none
      pure row

inductive Call where
  | findOrCreate (userA userB fresh : Uuid)
  | leave (userId conversationId : Uuid)
  | send (m : SendMessage)

def Call.program : Call → Task Unit
  | findOrCreate userA userB fresh => do
    let _ ← Direct.findOrCreate userA userB fresh
    pure ()
  | leave userId conversationId => leaveConversation userId conversationId
  | send m => do
    let _ ← handleSendMessage m
    pure ()

end Routes
end Echo.Conversations.Direct
