import Echo.Lib.Async
import Echo.Server.Store

/-! The shared state of the server, and the single accesses its tasks make to it: the hub, the
queues, the cached member lists and the database. A database access may fail. -/
namespace Echo.Server
open Echo.Lib

section Frames

structure NewMessage where
  messageId : Uuid
  fromUserId : Uuid
  fromDeviceId : Option Int
  fromUsername : String
  conversationId : Uuid
  channelId : Option Uuid
  content : String
  timestamp : Nat
  replyToId : Option Uuid
  replyToContent : Option String
  replyToUsername : Option String
  threadRootId : Option Uuid
  expiresAt : Option Int
  undecryptable : Option Bool
  deriving DecidableEq

structure SelfMessage where
  messageId : Uuid
  fromDeviceId : Int
  conversationId : Uuid
  channelId : Option Uuid
  content : String
  timestamp : Nat
  replyToId : Option Uuid
  deriving DecidableEq

structure MessageSent where
  messageId : Uuid
  conversationId : Uuid
  channelId : Option Uuid
  timestamp : Nat
  expiresAt : Option Int
  deriving DecidableEq

inductive Frame where
  | newMessage (m : NewMessage)
  | selfMessage (m : SelfMessage)
  | messageSent (m : MessageSent)
  | delivered (messageId conversationId : Uuid)
  | error (message : String)
  | presence (userId : Uuid)
  | presenceList
  | deviceRevoked (deviceId : Int)
  | ping
  | heartbeat
  deriving DecidableEq

def Frame.new? : Frame → Option NewMessage
  | .newMessage m => some m
  | _ => none

end Frames

/-- A socket and its queue. `replayEnd` is when its backlog replay ended: from then on the send
task takes frames out of the queue. -/
structure Connection where
  userId : Uuid
  deviceId : Int
  queue : List Frame
  written : List Frame
  dropped : List Frame
  replayEnd : Option Nat
  isHungUp : Bool
  isOpen : Bool

def queueCapacity : Nat := 256

namespace Connection

def fresh (userId : Uuid) (deviceId : Int) : Connection := ⟨userId, deviceId, [], [], [], none, false, true⟩

def log (c : Connection) : List Frame := c.written ++ c.queue ++ c.dropped

def isFull (c : Connection) : Bool := queueCapacity ≤ c.queue.length

def push (c : Connection) (f : Frame) : Connection := { c with queue := c.queue ++ [f] }

def take (c : Connection) : Connection :=
  match c.queue with
  | [] => c
  | f :: rest =>
    if c.replayEnd.isSome && c.isOpen then { c with queue := rest, written := c.written ++ [f] } else c

def close (c : Connection) : Connection :=
  { c with queue := [], dropped := c.dropped ++ c.queue, isOpen := false }

end Connection

structure AppState where
  db : Database
  hub : Hub
  connections : List Connection
  /-- Member list and when it was read, in milliseconds. -/
  memberIdsCache : Uuid → Option (List Uuid × Nat)
  now : Nat
  /-- Which of the coming database accesses fail. -/
  faults : List Bool
  /-- The ids `gen_random_uuid()` will give. -/
  uuids : Nat → Uuid

def membershipCacheTtl : Nat := 60 * 1000

inductive Query where
  | isMember (conversationId userId : Uuid)
  | areContacts (userA userB : Uuid)
  | conversationSecurity (conversationId : Uuid)
  | channel (channelId : Uuid)
  | defaultTextChannel (conversationId : Uuid)
  | memberIds (conversationId : Uuid)
  | replyContext (replyToId conversationId : Uuid)
  | blockersOf (candidateIds : List Uuid) (targetId : Uuid)
  | revokedDevices (userIds : List Uuid)
  | undelivered (userId : Uuid) (deviceId : Int) (cursor : Option (Nat × Uuid))
  | deviceContentsBatch (messageIds : List Uuid) (userId : Uuid) (deviceId : Int)
  | anyDeviceContent (messageIds : List Uuid) (userId : Uuid)
  | contactIds (userId : Uuid)

namespace Query

def Result : Query → Type
  | isMember .. | areContacts .. => Bool
  | conversationSecurity _ => Option ConversationSecurity
  | channel _ | defaultTextChannel _ => Option Channel
  | memberIds _ | blockersOf .. | anyDeviceContent .. | contactIds _ => List Uuid
  | replyContext .. => Option (String × String)
  | revokedDevices _ => List (Uuid × Int)
  | undelivered .. => List MessageWithSender
  | deviceContentsBatch .. => List (Uuid × String)

def eval (db : Database) : (q : Query) → q.Result
  | isMember conversationId userId => db.isMember conversationId userId
  | areContacts userA userB => db.areContacts userA userB
  | conversationSecurity conversationId => db.conversations.find conversationId
  | channel channelId => db.getChannel channelId
  | defaultTextChannel conversationId => db.getDefaultTextChannel conversationId
  | memberIds conversationId => db.getConversationMemberIds conversationId
  | replyContext replyToId conversationId => db.lookupReplyContext replyToId conversationId
  | blockersOf candidateIds targetId => db.getBlockersOf candidateIds targetId
  | revokedDevices userIds => db.getRevokedDevicesForUsers userIds
  | undelivered userId deviceId cursor => db.getUndelivered userId deviceId cursor
  | deviceContentsBatch messageIds userId deviceId => db.getDeviceContentsBatch messageIds userId deviceId
  | anyDeviceContent messageIds userId => db.messageIdsWithAnyDeviceContent messageIds userId
  | contactIds userId => db.listContactUserIds userId

end Query

inductive Change where
  | addMember (conversationId userId : Uuid)
  | removeMember (conversationId userId : Uuid)
  | block (blocker blocked : Uuid)
  | unblock (blocker blocked : Uuid)
  | revokeDevice (userId : Uuid) (deviceId : Int)
  | deleteMessage (messageId senderId : Uuid)
  | editMessage (messageId senderId : Uuid) (newContent : String)
  | systemMessage (conversationId senderId : Uuid) (content : String) (id : Uuid)
  | cleanupExpired

def Change.apply (now : Nat) (db : Database) : Change → Database
  | .addMember conversationId userId =>
    let joined := (db.members conversationId).insert userId false
    { db with members := Function.update db.members conversationId joined }
  | .removeMember conversationId userId =>
    let removed := (db.members conversationId).insert userId true
    { db with members := Function.update db.members conversationId removed }
  | .block blocker blocked => { db with blockedUsers := (blocker, blocked) :: db.blockedUsers }
  | .unblock blocker blocked =>
    { db with blockedUsers := db.blockedUsers.filter fun b => b ≠ (blocker, blocked) }
  | .revokeDevice userId deviceId => { db with revokedDevices := (userId, deviceId) :: db.revokedDevices }
  | .deleteMessage messageId senderId => db.deleteMessage messageId senderId
  | .editMessage messageId senderId newContent => db.editMessage messageId senderId newContent
  | .systemMessage conversationId senderId content id =>
    db.insertSystemMessage conversationId senderId content now id
  | .cleanupExpired => db.cleanupExpiredMessages now

inductive Request where
  | query (q : Query)
  | findOrCreateDm (userA userB : Uuid)
  | storeMessage (r : Database.NewRow)
  | storeDeviceContents (messageId : Uuid) (entries : List (Uuid × Int × String))
  | recordDeliveries (rows : List Delivery)
  | cachedMemberIds (conversationId : Uuid)
  | cacheMemberIds (conversationId : Uuid) (memberIds : List Uuid)
  | invalidateMemberCache (conversationId : Uuid)
  | register (userId : Uuid) (deviceId : Int)
  | unregister (userId : Uuid) (deviceId : Int)
  | unregisterAll (userId : Uuid)
  | deviceCount (userId : Uuid)
  | devicesOf (userId : Uuid)
  | connectionOf (userId : Uuid) (deviceId : Int)
  | trySend (userId : Uuid) (deviceId : Int) (tx : Nat) (frame : Frame)
  | serve (connection : Nat)
  | recv (connection : Nat)
  | hangUp (connection : Nat)
  /-- Waits until one of the two loops of the connection has ended. -/
  | ended (connection : Nat)
  | close (connection : Nat)
  | change (c : Change)
  | clock (now : Nat)

def Answer : Request → Type
  | .query q => Except Unit q.Result
  | .findOrCreateDm .. => Except Unit Uuid
  | .storeMessage _ => Except StoreError MessageRow
  | .storeDeviceContents .. | .recordDeliveries _ => Except Unit Unit
  | .cachedMemberIds _ => Option (List Uuid)
  | .register .. | .deviceCount _ => Nat
  | .devicesOf _ => List (Int × Nat)
  | .connectionOf .. => Option Nat
  | .trySend .. => Bool
  | _ => Unit

namespace AppState

def fault (s : AppState) : Bool := s.faults.headD false

def faulted (s : AppState) : AppState := { s with faults := s.faults.tail }

def setDb (s : AppState) (db : Database) : AppState := { s with db }

/-- The smaller id first; a new conversation is a direct, encrypted one of both. -/
def findOrCreateDm (s : AppState) (userA userB : Uuid) : Uuid × AppState :=
  let pair := if userA < userB then (userA, userB) else (userB, userA)
  match s.db.directConversations.find pair with
  | some conversationId => (conversationId, s)
  | none =>
    let conversationId := s.uuids 0
    let both := ((s.db.members conversationId).insert userA false).insert userB false
    (conversationId,
      { s with
        uuids := fun n => s.uuids (n + 1)
        db := { s.db with
          conversations := s.db.conversations.insert conversationId ⟨.direct, true, none⟩
          members := Function.update s.db.members conversationId both
          directConversations := s.db.directConversations.insert pair conversationId } })

def storeMessage (s : AppState) (r : Database.NewRow) : Except StoreError MessageRow × AppState :=
  let s' := { s with uuids := fun n => s.uuids (n + 1) }
  match s.db.storeMessage r s.now (s.uuids 0) with
  | .error e => (.error e, s')
  | .ok (row, db) => (.ok row, s'.setDb db)

/-- `try_send_tracked`: a queue that stays full puts its device out of the hub. -/
def trySend (s : AppState) (userId : Uuid) (deviceId : Int) (tx : Nat) (frame : Frame) : Bool × AppState :=
  match s.connections[tx]? with
  | none => (false, { s with hub := s.hub.resetCounter userId deviceId })
  | some c =>
    if !c.isOpen then (false, { s with hub := s.hub.resetCounter userId deviceId })
    else if c.isFull then
      let (kick, hub) := s.hub.recordFull s.now userId deviceId
      (false, { s with hub := if kick then hub.unregister userId deviceId else hub })
    else
      (true, { s with
        hub := s.hub.resetCounter userId deviceId
        connections := s.connections.set tx (c.push frame) })

def onConnection (s : AppState) (connection : Nat) (f : Connection → Connection) : AppState :=
  { s with connections := s.connections.modify connection f }

def perform : (r : Request) → AppState → Option (Answer r × AppState)
  | .query q, s => some (if s.fault then .error () else .ok (q.eval s.db), s.faulted)
  | .findOrCreateDm userA userB, s =>
    if s.fault then some (.error (), s.faulted)
    else some (.ok (s.faulted.findOrCreateDm userA userB).1, (s.faulted.findOrCreateDm userA userB).2)
  | .storeMessage r, s =>
    if s.fault then some (.error .database, s.faulted) else some (s.faulted.storeMessage r)
  | .storeDeviceContents messageId entries, s =>
    if s.fault || !s.db.hasMessages [messageId] then some (.error (), s.faulted)
    else some (.ok (), s.faulted.setDb (s.db.storeDeviceContents messageId entries))
  | .recordDeliveries rows, s =>
    if s.fault || !s.db.hasMessages (rows.map Delivery.messageId) then some (.error (), s.faulted)
    else some (.ok (), s.faulted.setDb (s.db.recordDeliveries rows))
  | .cachedMemberIds conversationId, s =>
    some (((s.memberIdsCache conversationId).filter fun e => s.now - e.2 < membershipCacheTtl).map Prod.fst, s)
  | .cacheMemberIds conversationId memberIds, s =>
    let cache := Function.update s.memberIdsCache conversationId (some (memberIds, s.now))
    some ((), { s with memberIdsCache := cache })
  | .invalidateMemberCache conversationId, s =>
    some ((), { s with memberIdsCache := Function.update s.memberIdsCache conversationId none })
  | .register userId deviceId, s =>
    some (s.connections.length, { s with
      hub := s.hub.register userId deviceId s.connections.length
      connections := s.connections ++ [.fresh userId deviceId] })
  | .unregister userId deviceId, s => some ((), { s with hub := s.hub.unregister userId deviceId })
  | .unregisterAll userId, s => some ((), { s with hub := s.hub.unregisterAll userId })
  | .deviceCount userId, s => some (s.hub.deviceCount userId, s)
  | .devicesOf userId, s => some (((s.hub.connections.find userId).map LinkedMap.entries).getD [], s)
  | .connectionOf userId deviceId, s => some (s.hub.connection userId deviceId, s)
  | .trySend userId deviceId tx frame, s => some (s.trySend userId deviceId tx frame)
  | .serve connection, s => some ((), s.onConnection connection fun c => { c with replayEnd := some s.now })
  | .recv connection, s => some ((), s.onConnection connection Connection.take)
  | .hangUp connection, s => some ((), s.onConnection connection fun c => { c with isHungUp := true })
  | .ended connection, s =>
    match s.connections[connection]? with
    | some c => if c.isHungUp then some ((), s) else none
    | none => none
  | .close connection, s => some ((), s.onConnection connection Connection.close)
  | .change c, s => some ((), s.setDb (c.apply s.now s.db))
  | .clock now, s => some ((), { s with now := s.now + now })

def restart (s : AppState) : AppState :=
  { s with
    hub := .new
    memberIdsCache := fun _ => none
    connections := s.connections.map fun c => { c.close with replayEnd := c.replayEnd.or (some s.now) } }

end AppState

def machine : Machine where
  State := AppState
  Req := Request
  Ans := Answer
  perform := AppState.perform
  restart := AppState.restart

end Echo.Server
