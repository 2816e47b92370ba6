import Echo.Lib.Transaction
import Echo.Lib.Async
import Echo.Server.Hub
import Mathlib.Data.List.Sort

/-! Contact requests: `db/contacts.rs` with each statement a step of its own, as `routes/contacts.rs`
calls it. -/
namespace Echo.Contacts
open Echo.Lib
open Echo.Server (Uuid)

section Tables

inductive Status where
  | pending
  | accepted
  | blocked
  deriving DecidableEq

structure User where
  id : Uuid
  username : String
  displayName : Option String
  avatarUrl : Option String
  presenceStatus : String

structure IdentityKey where
  userId : Uuid
  lastSeen : Option Nat
  revokedAt : Option Nat

/-- A row of `contacts`. -/
structure Contact where
  id : Uuid
  requesterId : Uuid
  targetId : Uuid
  status : Status
  createdAt : Nat
  updatedAt : Nat
  deriving DecidableEq

structure ContactRow where
  id : Uuid
  userId : Uuid
  username : String
  displayName : Option String
  avatarUrl : Option String
  status : Status
  createdAt : Nat
  lastSeen : Option Nat

structure Tables where
  users : List User
  identityKeys : List IdentityKey
  contacts : List Contact
  blockedUsers : List (Uuid × Uuid)
  /-- How the database orders texts. -/
  collation : String → String → Bool
  now : Nat

inductive Write where
  | contact (row : Contact)
  | accepted (id : Uuid) (time : Nat)
  | deleted (id : Uuid)
  | blocked (blockerId blockedId : Uuid)
  deriving DecidableEq

inductive Key where
  | contact (id : Uuid)
  /-- `UNIQUE(requester_id, target_id)` -/
  | pair (requesterId targetId : Uuid)
  | block (blockerId blockedId : Uuid)
  deriving DecidableEq

inductive Query where
  | findUser (username : String)
  | isEitherBlocked (userA userB : Uuid)
  /-- With the id that `gen_random_uuid()` gives. -/
  | insertContact (fresh requesterId targetId : Uuid)
  | acceptContact (contactId acceptingUserId : Uuid)
  | declineContact (contactId decliningUserId : Uuid)
  | blockUser (blockerId blockedId : Uuid)

inductive Refusal where
  | uniqueViolation
  deriving DecidableEq

def Query.Result : Query → Type
  | findUser _ => Option Uuid
  | isEitherBlocked .. | acceptContact .. | declineContact .. => Bool
  | insertContact .. => Uuid
  | blockUser .. => Unit

def Contact.other (c : Contact) (userId : Uuid) : Uuid := if c.requesterId = userId then c.targetId else c.requesterId

def listContactsLimit : Nat := 1000

namespace Tables
variable (t : Tables)

def lastSeen (u : User) : Option Nat :=
  if u.presenceStatus = "invisible" then none
  else
    let keys := t.identityKeys.filter fun key => key.userId = u.id ∧ key.revokedAt = none
    (keys.filterMap IdentityKey.lastSeen).max?

def listContacts (userId : Uuid) : List ContactRow :=
  let accepted := t.contacts.filter fun c => (c.requesterId = userId ∨ c.targetId = userId) ∧ c.status = .accepted
  let rows := accepted.filterMap fun c =>
    (t.users.find? fun u => u.id = c.other userId).map fun u =>
      { id := c.id
        userId := c.other userId
        username := u.username
        displayName := u.displayName
        avatarUrl := u.avatarUrl
        status := c.status
        createdAt := c.createdAt
        lastSeen := t.lastSeen u : ContactRow }
  (rows.insertionSort fun a b => t.collation a.username b.username).take listContactsLimit

def isPending (contactId userId : Uuid) : Bool :=
  t.contacts.any fun c => c.id = contactId ∧ c.targetId = userId ∧ c.status = .pending

def apply : Write → Tables
  | .contact row => { t with contacts := t.contacts ++ [row] }
  | .accepted id time =>
    let accept (c : Contact) := if c.id = id then { c with status := .accepted, updatedAt := time } else c
    { t with contacts := t.contacts.map accept }
  | .deleted id => { t with contacts := t.contacts.filter fun c => c.id ≠ id }
  | .blocked blockerId blockedId => { t with blockedUsers := t.blockedUsers ++ [(blockerId, blockedId)] }

end Tables

def Write.keys : Write → List Key
  | .contact row => [.contact row.id, .pair row.requesterId row.targetId]
  | .accepted id _ | .deleted id => [.contact id]
  | .blocked blockerId blockedId => [.block blockerId blockedId]

def Query.eval : (q : Query) → Tables → Except Refusal (q.Result × List Write)
  | .findUser username, t => .ok ((t.users.find? fun u => u.username = username).map User.id, [])
  | .isEitherBlocked userA userB, t =>
    .ok (t.blockedUsers.any fun b => b = (userA, userB) ∨ b = (userB, userA), [])
  | .insertContact fresh requesterId targetId, t =>
    if t.contacts.any fun c => c.id = fresh ∨ (c.requesterId = requesterId ∧ c.targetId = targetId) then
      .error .uniqueViolation
    else .ok (fresh, [.contact ⟨fresh, requesterId, targetId, .pending, t.now, t.now⟩])
  | .acceptContact contactId userId, t =>
    let hit := t.isPending contactId userId
    .ok (hit, if hit then [.accepted contactId t.now] else [])
  | .declineContact contactId userId, t =>
    let hit := t.isPending contactId userId
    .ok (hit, if hit then [.deleted contactId] else [])
  | .blockUser blockerId blockedId, t =>
    .ok ((), if (blockerId, blockedId) ∈ t.blockedUsers then [] else [.blocked blockerId blockedId])

def schema : Schema where
  Tables := Tables
  Write := Write
  apply := Tables.apply
  Key := Key
  decKey := inferInstance
  keys := Write.keys
  Query := Query
  Result := Query.Result
  Refusal := Refusal
  eval := Query.eval

end Tables

section Machine

structure State where
  store : Store schema
  /-- Which of the coming database accesses fail. -/
  faults : List Bool

inductive Request where
  | sql (r : Sql schema)
  | clock (now : Nat)

def Answer : Request → Type
  | .sql r => r.Answer
  | .clock _ => Unit

namespace State

def tables (s : State) : Tables := s.store.tables

def sqlPerform (s : State) (r : Sql schema) : Option (r.Answer × State) :=
  (s.store.perform (s.faults.headD false) r).map fun (a, store) => (a, ⟨store, s.faults.tail⟩)

def perform : (r : Request) → State → Option (Answer r × State)
  | .sql r, s => s.sqlPerform r
  | .clock now, s => some ((), { s with store := { s.store with tables := { s.store.tables with now } } })

def restart (s : State) : State := { s with store := s.store.restart }

def new (tables : Tables) (faults : List Bool) : State := ⟨⟨tables, fun _ => [], 0⟩, faults⟩

end State

def machine : Machine where
  State := State
  Req := Request
  Ans := Answer
  perform := State.perform
  restart := State.restart

end Machine

section Routes

inductive Failure where
  | rowNotFound
  | database
  | badRequest (message : String)
  | internal (message : String)
  deriving DecidableEq

abbrev Task (α : Type) := Async machine Failure α

def fail {α : Type} (e : Failure) : Task α := Async.throw e

def ask (r : Request) : Task (Answer r) := do
  let answer ← Async.ask (M := machine) r
  Async.pause
  pure answer

def dbErr {α : Type} (access : Task (Except (Option Refusal) α)) : Task α := do
  match ← access with
  | .ok a => pure a
  | .error _ => fail .database

def query (q : Query) (tx : Option Nat) : Task q.Result := dbErr (ask (.sql (.run tx q)))

def transaction {α : Type} (body : Nat → Task α) : Task α := do
  let tx ← dbErr (ask (.sql .start))
  let a ← (body tx).catching fun e => do
    ask (.sql (.rollback tx))
    fail e
  dbErr (ask (.sql (.commit tx)))
  pure a

def createContactRequest (requesterId : Uuid) (targetUsername : String) (fresh : Uuid) : Task Uuid :=
  transaction fun tx => do
    let target : Option Uuid ← query (.findUser targetUsername) (some tx)
    match target with
    | none => fail .rowNotFound
    | some targetId =>
      let blocked : Bool ← query (.isEitherBlocked requesterId targetId) (some tx)
      if blocked then fail .rowNotFound
      else query (.insertContact fresh requesterId targetId) (some tx)

def acceptContactRequest (contactId acceptingUserId : Uuid) : Task Unit := do
  let accepted : Bool ← query (.acceptContact contactId acceptingUserId) none
  if accepted then pure () else fail .rowNotFound

def declineContactRequest (contactId decliningUserId : Uuid) : Task Bool :=
  query (.declineContact contactId decliningUserId) none

def sendRequest (userId : Uuid) (username : String) (fresh : Uuid) : Task Unit := do
  let _ ← (createContactRequest userId username fresh).catching fun _ =>
    fail (.badRequest "Could not send contact request")
  pure ()

def acceptRequest (userId contactId : Uuid) : Task Unit :=
  (acceptContactRequest contactId userId).catching fun e =>
    if e = .rowNotFound then fail (.badRequest "No pending request found") else fail (.internal "Database error")

def declineRequest (userId contactId : Uuid) : Task Unit := do
  let deleted ← (declineContactRequest contactId userId).catching fun _ => fail (.internal "Database error")
  if deleted then pure () else fail (.badRequest "No pending request found")

def blockUser (userId blockedId : Uuid) : Task Unit :=
  if blockedId = userId then fail (.badRequest "Cannot block yourself")
  else (query (.blockUser userId blockedId) none).catching fun _ => fail (.internal "Database error")

inductive Call where
  | sendRequest (userId : Uuid) (username : String) (fresh : Uuid)
  | acceptRequest (userId contactId : Uuid)
  | declineRequest (userId contactId : Uuid)
  | blockUser (userId blockedId : Uuid)
  | clock (now : Nat)

def Call.program : Call → Task Unit
  | sendRequest userId username fresh => Contacts.sendRequest userId username fresh
  | acceptRequest userId contactId => Contacts.acceptRequest userId contactId
  | declineRequest userId contactId => Contacts.declineRequest userId contactId
  | blockUser userId blockedId => Contacts.blockUser userId blockedId
  | clock now => ask (.clock now)

end Routes
end Echo.Contacts
