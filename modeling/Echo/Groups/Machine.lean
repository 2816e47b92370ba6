import Echo.Lib.Async
import Echo.Groups.Tables

/-! The shared state of the group routes, and the single accesses they make to it: the database,
the membership caches of `typing_service.rs`, the hub and the canvas authority. A database access
may fail. The caps on the caches are left out: what a sweep drops has expired before. -/
namespace Echo.Groups
open Echo.Lib
open Echo.Server (Uuid ConversationKind Hub)

inductive Notice where
  | groupKeyRotated (conversationId : Uuid) (keyVersion : Int) (createdBy : Uuid)
  | groupKeyRotationRequested (conversationId : Uuid) (keyVersion : Int) (leaderUserId : Uuid)
    (fallbackOrder : List Uuid) (deadlineMs : Nat)
  | memberAdded (conversationId userId : Uuid) (username : String)
  | memberRoleChanged (conversationId userId : Uuid) (role : Role)
  | newMessage (conversationId fromUserId : Uuid) (content : String)
  | typing (conversationId userId : Uuid)
  | readReceipt (conversationId userId : Uuid)
  | channelDeleted (groupId channelId : Uuid)
  | voiceSessionLeft (groupId channelId userId : Uuid)
  | voiceSessionJoined (groupId channelId userId : Uuid)
  | ping
  | heartbeat
  deriving DecidableEq

structure Dispatch where
  recipients : List Uuid
  notice : Notice
  deriving DecidableEq

structure AuthorityEntry where
  deviceId : Int
  claimedAt : Nat

/-- A socket by number: whether one of its loops has ended, and whether its heartbeat was stopped. -/
structure Socket where
  userId : Uuid
  deviceId : Int
  isHungUp : Bool
  isAborted : Bool

structure State where
  store : Store schema
  /-- User and conversation, and when the membership was verified. -/
  membershipCache : Uuid × Uuid → Option Nat
  memberIdsCache : Uuid → Option (List Uuid × Nat)
  convKindCache : Uuid → Option (ConversationKind × Nat)
  hub : Hub
  sockets : List Socket
  /-- Devices whose queue does not accept a frame now. -/
  saturated : Uuid × Int → Bool
  /-- User and channel. -/
  canvasAuthority : Uuid × Uuid → Option AuthorityEntry
  /-- Last one first. -/
  outbox : List Dispatch
  /-- Which of the coming database accesses fail. -/
  faults : List Bool

def membershipCacheTtl : Nat := 60 * 1000

def claimGrace : Nat := 1000

inductive Request where
  | sql (r : Sql schema)
  | cachedMembership (conversationId userId : Uuid)
  | cacheMembership (conversationId userId : Uuid)
  | evictMembership (conversationId userId : Uuid)
  | cachedMemberIds (conversationId : Uuid)
  | cacheMemberIds (conversationId : Uuid) (members : List Uuid)
  | cachedKind (conversationId : Uuid)
  | cacheKind (conversationId : Uuid) (kind : ConversationKind)
  | invalidateMemberCache (conversationId : Uuid)
  | broadcastJson (memberIds : List Uuid) (notice : Notice) (exclude : Option Uuid)
  | sendToDevice (userId : Uuid) (deviceId : Int) (notice : Notice)
  | deviceCount (userId : Uuid)
  | register (userId : Uuid) (deviceId : Int)
  | unregister (userId : Uuid) (deviceId : Int)
  | unregisterAll (userId : Uuid)
  /-- `DELETE FROM users`; `hasBanned` stands for `banned_members.banned_by`. -/
  | deleteUser (userId : Uuid) (hasBanned : Bool)
  | claimIfAbsent (userId channelId : Uuid) (deviceId : Int)
  | claim (userId channelId : Uuid) (deviceId : Int)
  | clearOnLeave (userId channelId : Uuid)
  | hangUp (socket : Nat)
  /-- Waits until one of the loops of the socket has ended. -/
  | ended (socket : Nat)
  | abort (socket : Nat)
  /-- Waits for the time, or until the heartbeat is stopped. -/
  | tick (socket : Nat) (time : Nat)
  | saturate (userId : Uuid) (deviceId : Int) (full : Bool)
  | clock (milliseconds : Nat)
  /-- `Utc::now()` -/
  | utcNow

def Request.isQuiet : Request → Bool
  | .sql _ | .deleteUser .. | .clock _ => false
  | _ => true

def Answer : Request → Type
  | .sql r => r.Answer
  | .cachedMembership .. | .sendToDevice .. | .claimIfAbsent .. | .claim .. | .tick .. => Bool
  | .cachedMemberIds _ => Option (List Uuid)
  | .cachedKind _ => Option ConversationKind
  | .deviceCount _ | .register .. | .utcNow => Nat
  | .deleteUser .. => Except (Option Refusal) Bool
  | _ => Unit

namespace State

def tables (s : State) : Tables := s.store.tables

def now (s : State) : Nat := s.tables.now

def fault (s : State) : Bool := s.faults.headD false

def setTables (s : State) (t : Tables) : State := { s with store := { s.store with tables := t } }

def isFresh (s : State) (at' : Nat) : Bool := s.now - at' < membershipCacheTtl

def sqlPerform (s : State) (r : Sql schema) : Option (r.Answer × State) :=
  (s.store.perform s.fault r).map fun (a, store) => (a, { s with store, faults := s.faults.tail })

def awaitsUser (s : State) (userId : Uuid) : Bool :=
  (List.range s.store.next).any fun i => (s.store.writes i).any (Write.refersTo userId)

def deleteUser (s : State) (userId : Uuid) (hasBanned : Bool) : Option (Except (Option Refusal) Bool × State) :=
  let spent := { s with faults := s.faults.tail }
  if s.fault then some (.error none, spent)
  else if (s.tables.usernames userId).isSome && s.awaitsUser userId then none
  else
    match s.tables.deleteUser userId hasBanned with
    | .error e => some (.error (some e), spent)
    | .ok (deleted, tables) => some (.ok deleted, spent.setTables tables)

def claimIfAbsent (s : State) (key : Uuid × Uuid) (deviceId : Int) : Bool × State :=
  match s.canvasAuthority key with
  | some entry => (entry.deviceId = deviceId, s)
  | none => (true, { s with canvasAuthority := Function.update s.canvasAuthority key (some ⟨deviceId, s.now⟩) })

def claim (s : State) (key : Uuid × Uuid) (deviceId : Int) : Bool × State :=
  let claimed := { s with canvasAuthority := Function.update s.canvasAuthority key (some ⟨deviceId, s.now⟩) }
  match s.canvasAuthority key with
  | none => (true, claimed)
  | some entry =>
    if entry.deviceId = deviceId then (false, s)
    else if s.now - entry.claimedAt < claimGrace then (false, s)
    else (true, claimed)

def perform : (r : Request) → State → Option (Answer r × State)
  | .sql r, s => s.sqlPerform r
  | .cachedMembership conversationId userId, s =>
    some ((s.membershipCache (userId, conversationId)).any s.isFresh, s)
  | .cacheMembership conversationId userId, s =>
    let cache := Function.update s.membershipCache (userId, conversationId) (some s.now)
    some ((), { s with membershipCache := cache })
  | .evictMembership conversationId userId, s =>
    some ((), { s with membershipCache := Function.update s.membershipCache (userId, conversationId) none })
  | .cachedMemberIds conversationId, s =>
    some (((s.memberIdsCache conversationId).filter fun e => s.isFresh e.2).map Prod.fst, s)
  | .cacheMemberIds conversationId members, s =>
    let cache := Function.update s.memberIdsCache conversationId (some (members, s.now))
    some ((), { s with memberIdsCache := cache })
  | .cachedKind conversationId, s =>
    some (((s.convKindCache conversationId).filter fun e => s.isFresh e.2).map Prod.fst, s)
  | .cacheKind conversationId kind, s =>
    some ((), { s with convKindCache := Function.update s.convKindCache conversationId (some (kind, s.now)) })
  | .invalidateMemberCache conversationId, s =>
    some ((), { s with
      memberIdsCache := Function.update s.memberIdsCache conversationId none
      membershipCache := fun key => if key.2 = conversationId then none else s.membershipCache key })
  | .broadcastJson memberIds notice exclude, s =>
    some ((), { s with outbox := ⟨memberIds.filter fun u => some u ≠ exclude, notice⟩ :: s.outbox })
  | .sendToDevice userId deviceId _, s =>
    some ((s.hub.connection userId deviceId).isSome && !s.saturated (userId, deviceId), s)
  | .deviceCount userId, s => some (s.hub.deviceCount userId, s)
  | .register userId deviceId, s =>
    some (s.sockets.length, { s with
      hub := s.hub.register userId deviceId s.sockets.length
      sockets := s.sockets ++ [⟨userId, deviceId, false, false⟩] })
  | .unregister userId deviceId, s => some ((), { s with hub := s.hub.unregister userId deviceId })
  | .unregisterAll userId, s => some ((), { s with hub := s.hub.unregisterAll userId })
  | .deleteUser userId hasBanned, s => s.deleteUser userId hasBanned
  | .claimIfAbsent userId channelId deviceId, s => some (s.claimIfAbsent (userId, channelId) deviceId)
  | .claim userId channelId deviceId, s => some (s.claim (userId, channelId) deviceId)
  | .clearOnLeave userId channelId, s =>
    some ((), { s with canvasAuthority := Function.update s.canvasAuthority (userId, channelId) none })
  | .hangUp socket, s =>
    some ((), { s with sockets := s.sockets.modify socket fun c => { c with isHungUp := true } })
  | .ended socket, s => if (s.sockets[socket]?).any Socket.isHungUp then some ((), s) else none
  | .abort socket, s =>
    some ((), { s with sockets := s.sockets.modify socket fun c => { c with isAborted := true } })
  | .tick socket time, s =>
    if (s.sockets[socket]?).all Socket.isAborted then some (false, s)
    else if time ≤ s.now then some (true, s) else none
  | .saturate userId deviceId full, s =>
    some ((), { s with saturated := Function.update s.saturated (userId, deviceId) full })
  | .clock milliseconds, s => some ((), s.setTables { s.tables with now := s.now + milliseconds })
  | .utcNow, s => some (s.now, s)

def restart (s : State) : State :=
  { s with
    store := s.store.restart
    membershipCache := fun _ => none
    memberIdsCache := fun _ => none
    convKindCache := fun _ => none
    hub := .new
    sockets := s.sockets.map fun c => { c with isHungUp := true, isAborted := true }
    canvasAuthority := fun _ => none }

def new (usernames : Uuid → Option String) : State where
  store :=
    { tables :=
        { usernames
          readReceiptsEnabled := fun _ => some true
          blockedUsers := []
          conversations := fun _ => none
          drawnIds := []
          members := fun _ => .empty
          bannedMembers := []
          groupKeys := []
          envelopes := []
          rotations := []
          channels := []
          voiceSessions := []
          inviteTokens := fun _ => none
          drawnTokens := []
          systemMessages := []
          now := 0 }
      writes := fun _ => []
      next := 0 }
  membershipCache := fun _ => none
  memberIdsCache := fun _ => none
  convKindCache := fun _ => none
  hub := .new
  sockets := []
  saturated := fun _ => false
  canvasAuthority := fun _ => none
  outbox := []
  faults := []

end State

def machine : Machine where
  State := State
  Req := Request
  Ans := Answer
  perform := State.perform
  restart := State.restart

end Echo.Groups
