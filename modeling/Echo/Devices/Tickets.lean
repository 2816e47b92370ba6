import Echo.Groups.Routes
import Echo.Server.Delivery

/-! The way of a device to its socket and out again: `ws_ticket` of `routes/auth.rs`,
`routes/ws.rs`, the revocations of `routes/keys.rs` and `delete_account`, over the server of
messages. Requests come authenticated; the invalidated access tokens are left out. -/
namespace Echo.Devices
open Echo.Lib
open Echo.Server (Uuid AppState UuidFormat)
open Echo.Groups (AppError)

structure Ticket where
  userId : Uuid
  deviceId : Int
  createdAt : Nat
  deriving DecidableEq

structure State where
  app : AppState
  ticketStore : LinkedMap String Ticket
  /-- The random tickets to come. -/
  random : Nat → String
  /-- The rows of `identity_keys`; those with `revoked_at` are in the tables of `app`. -/
  identityKeys : List (Uuid × Int)
  usernames : Uuid → Option String
  /-- How often the process was started again. -/
  starts : Nat

def ticketTtl : Nat := 30 * 1000

def maxTickets : Nat := 10000

def Ticket.isFresh (now : Nat) (t : Ticket) : Bool := now - t.createdAt < ticketTtl

inductive Request where
  | server (r : Server.Request)
  | randomTicket
  | retainTickets
  | ticketCount
  | insertTicket (ticket : String) (userId : Uuid) (deviceId : Int)
  | takeTicket (ticket : String)
  | findUser (userId : Uuid)
  | userDevices (userId : Uuid)
  | revokeDevice (userId : Uuid) (deviceId : Int)
  | revokeDevicesExcept (userId : Uuid) (keepDeviceId : Int)
  | storeIdentityKey (userId : Uuid) (deviceId : Int)
  | deleteUser (userId : Uuid)

def Answer : Request → Type
  | .server r => Server.Answer r
  | .randomTicket => String
  | .ticketCount => Nat
  | .takeTicket _ => Option (Uuid × Int)
  | .findUser _ => Except Unit (Option String)
  | .userDevices _ | .revokeDevicesExcept .. => Except Unit (List Int)
  | .revokeDevice .. | .deleteUser _ => Except Unit Bool
  | .storeIdentityKey .. => Except Unit Unit
  | _ => Unit

namespace State

def now (s : State) : Nat := s.app.now

def IsRevoked (s : State) (userId : Uuid) (deviceId : Int) : Prop := (userId, deviceId) ∈ s.app.db.revokedDevices

instance (s : State) (userId : Uuid) (deviceId : Int) : Decidable (s.IsRevoked userId deviceId) :=
  inferInstanceAs (Decidable (_ ∈ _))

/-- `remove_if` -/
def takeTicket (s : State) (ticket : String) : Option (Uuid × Int) × State :=
  match (s.ticketStore.find ticket).filter (Ticket.isFresh s.now) with
  | some t => (some (t.userId, t.deviceId), { s with ticketStore := s.ticketStore.erase ticket })
  | none => (none, s)

def userDevices (s : State) (userId : Uuid) : List Int :=
  (s.identityKeys.filter fun k => k.1 = userId ∧ ¬ s.IsRevoked k.1 k.2).map Prod.snd

def setRevoked (s : State) (revoked : List (Uuid × Int)) : State :=
  { s with app := s.app.setDb { s.app.db with revokedDevices := revoked } }

def revokeDevice (s : State) (userId : Uuid) (deviceId : Int) : Bool × State :=
  if (userId, deviceId) ∈ s.identityKeys ∧ ¬ s.IsRevoked userId deviceId then
    (true, s.setRevoked ((userId, deviceId) :: s.app.db.revokedDevices))
  else (false, s)

def revokeDevicesExcept (s : State) (userId : Uuid) (keepDeviceId : Int) : List Int × State :=
  let revoked := (s.userDevices userId).filter fun d => d ≠ keepDeviceId
  (revoked, s.setRevoked (revoked.map (userId, ·) ++ s.app.db.revokedDevices))

def storeIdentityKey (s : State) (userId : Uuid) (deviceId : Int) : State :=
  { s.setRevoked (s.app.db.revokedDevices.filter fun k => k ≠ (userId, deviceId)) with
    identityKeys := if (userId, deviceId) ∈ s.identityKeys then s.identityKeys
      else s.identityKeys ++ [(userId, deviceId)] }

def deleteUser (s : State) (userId : Uuid) : Bool × State :=
  ((s.usernames userId).isSome,
    { s.setRevoked (s.app.db.revokedDevices.filter fun k => k.1 ≠ userId) with
      identityKeys := s.identityKeys.filter fun k => k.1 ≠ userId
      usernames := Function.update s.usernames userId none })

def faulted (s : State) : State := { s with app := s.app.faulted }

def access {α : Type} (s : State) (answer : State → α × State) : Except Unit α × State :=
  if s.app.fault then (.error (), s.faulted) else ((answer s.faulted).map .ok id)

def perform : (r : Request) → State → Option (Answer r × State)
  | .server r, s => (s.app.perform r).map fun (a, app) => (a, { s with app })
  | .randomTicket, s => some (s.random 0, { s with random := fun n => s.random (n + 1) })
  | .retainTickets, s => some ((), { s with ticketStore := s.ticketStore.keep fun e => Ticket.isFresh s.now e.2 })
  | .ticketCount, s => some (s.ticketStore.entries.length, s)
  | .insertTicket ticket userId deviceId, s =>
    some ((), { s with ticketStore := s.ticketStore.insert ticket ⟨userId, deviceId, s.now⟩ })
  | .takeTicket ticket, s => some (s.takeTicket ticket)
  | .findUser userId, s => some (s.access fun s => (s.usernames userId, s))
  | .userDevices userId, s => some (s.access fun s => (s.userDevices userId, s))
  | .revokeDevice userId deviceId, s => some (s.access fun s => s.revokeDevice userId deviceId)
  | .revokeDevicesExcept userId keepDeviceId, s => some (s.access fun s => s.revokeDevicesExcept userId keepDeviceId)
  | .storeIdentityKey userId deviceId, s => some (s.access fun s => ((), s.storeIdentityKey userId deviceId))
  | .deleteUser userId, s => some (s.access fun s => s.deleteUser userId)

def restart (s : State) : State :=
  { s with app := s.app.restart, ticketStore := .empty, starts := s.starts + 1 }

end State

def machine : Machine where
  State := State
  Req := Request
  Ans := Answer
  perform := State.perform
  restart := State.restart

abbrev Task (α : Type) := Async machine AppError α

def fail {α : Type} (e : AppError) : Task α := Async.throw e

def ask (r : Request) : Task (Answer r) := do
  let answer ← Async.ask (M := machine) r
  Async.pause
  pure answer

def dbCtx {α : Type} (access : Task (Except Unit α)) : Task α := do
  match ← access with
  | .ok a => pure a
  | .error _ => fail (.internal "Database error")

def served {α : Type} (task : Server.Task α) : Task α := task.lift ⟨.server, fun _ a => a⟩ Empty.elim

section Routes

def wsTicket (userId : Uuid) (deviceId : Option Int) : Task String := do
  let ticket : String ← ask .randomTicket
  ask .retainTickets
  let count : Nat ← ask .ticketCount
  if maxTickets ≤ count then fail (.badRequest "Too many pending tickets, try again later")
  else
    ask (.insertTicket ticket userId (deviceId.getD 0))
    pure ticket

def wsUpgrade (ticket : String) : Task Unit := do
  let entry : Option (Uuid × Int) ← ask (.takeTicket ticket)
  match entry with
  | none =>
    ask .retainTickets
    fail (.unauthorized "Invalid or expired WebSocket ticket")
  | some (userId, deviceId) =>
    let user : Option String ← dbCtx (ask (.findUser userId))
    match user with
    | none => fail (.unauthorized "User not found")
    | some _ => served (Server.handleSocket userId deviceId)

def announceRevoked (userId : Uuid) : List Int → Task Unit
  | [] => pure ()
  | deviceId :: revoked => do
    served (Server.sendTo userId (.deviceRevoked deviceId))
    announceRevoked userId revoked

def revokeDevice (userId : Uuid) (deviceId : Int) : Task Unit := do
  let found : Bool ← dbCtx (ask (.revokeDevice userId deviceId))
  if found then announceRevoked userId [deviceId] else fail (.notFound "Device not found")

def revokeOtherDevices (userId : Uuid) (currentDeviceId : Int) : Task Nat := do
  let devices : List Int ← dbCtx (ask (.userDevices userId))
  if currentDeviceId ∈ devices then
    let revokedIds : List Int ← dbCtx (ask (.revokeDevicesExcept userId currentDeviceId))
    announceRevoked userId revokedIds
    pure revokedIds.length
  else fail (.badRequest "current_device_id not found among your registered devices")

def deleteAccount (userId : Uuid) : Task Unit := do
  ask (.server (.unregisterAll userId))
  let deleted : Bool ← dbCtx (ask (.deleteUser userId))
  if deleted then pure () else fail (.internal "User not found")

end Routes

inductive Response where
  | none
  | ticket (ticket : String)
  | revoked (count : Nat)
  deriving DecidableEq

/-- What can happen: the routes above, and what the server of messages is told. -/
inductive Input where
  | wsTicket (userId : Uuid) (deviceId : Option Int)
  | wsUpgrade (ticket : String)
  | revokeDevice (userId : Uuid) (deviceId : Int)
  | revokeOtherDevices (userId : Uuid) (currentDeviceId : Int)
  | storeIdentityKey (userId : Uuid) (deviceId : Int)
  | deleteAccount (userId : Uuid)
  | server (i : Server.Input)

def ofServer (F : UuidFormat) : Server.Input → Task Unit
  | .connect _ _ | .change (.revokeDevice _ _) | .deleteAccount _ => pure ()
  | i => served (Server.program F i)

def program (F : UuidFormat) : Input → Task Response
  | .wsTicket userId deviceId => do
    let ticket ← wsTicket userId deviceId
    pure (.ticket ticket)
  | .wsUpgrade ticket => do
    wsUpgrade ticket
    pure .none
  | .revokeDevice userId deviceId => do
    revokeDevice userId deviceId
    pure .none
  | .revokeOtherDevices userId currentDeviceId => do
    let count ← revokeOtherDevices userId currentDeviceId
    pure (.revoked count)
  | .storeIdentityKey userId deviceId => do
    dbCtx (ask (.storeIdentityKey userId deviceId))
    pure .none
  | .deleteAccount userId => do
    deleteAccount userId
    pure .none
  | .server i => do
    ofServer F i
    pure .none

end Echo.Devices
