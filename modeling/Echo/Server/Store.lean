import Echo.Server.Hub
import Mathlib.Data.List.Sort

/-! The tables behind messaging and the queries of `db/messages.rs` and its siblings on them.
Left out are columns that only the screen reads: reactions, reply counts, the delivered flag. -/
namespace Echo.Server
open Echo.Lib

inductive ConversationKind where
  | direct
  | group
  deriving DecidableEq

structure ConversationSecurity where
  kind : ConversationKind
  isEncrypted : Bool
  disappearingTtlSeconds : Option Int

structure Channel where
  id : Uuid
  conversationId : Uuid
  isText : Bool
  position : Int
  createdAt : Nat
  isDeleted : Bool

structure MessageRow where
  id : Uuid
  conversationId : Uuid
  channelId : Option Uuid
  senderId : Uuid
  senderDeviceId : Option Int
  content : String
  createdAt : Nat
  replyToId : Option Uuid
  expiresAt : Option Int
  threadRootId : Option Uuid
  isDeleted : Bool
  deriving DecidableEq

structure DeviceContent where
  messageId : Uuid
  recipientUserId : Uuid
  deviceId : Int
  content : String
  deriving DecidableEq

structure Delivery where
  messageId : Uuid
  recipientUserId : Uuid
  deviceId : Int
  deriving DecidableEq

structure Database where
  username : Uuid → String
  conversations : LinkedMap Uuid ConversationSecurity
  /-- For each conversation its members, with `is_removed`. -/
  members : Uuid → LinkedMap Uuid Bool
  /-- Accepted contacts: requester and target. -/
  contacts : List (Uuid × Uuid)
  /-- The smaller id first. -/
  directConversations : LinkedMap (Uuid × Uuid) Uuid
  channels : List Channel
  messages : List MessageRow
  deviceContents : List DeviceContent
  deliveries : List Delivery
  /-- Blocker and blocked. -/
  blockedUsers : List (Uuid × Uuid)
  revokedDevices : List (Uuid × Int)

structure MessageWithSender where
  id : Uuid
  conversationId : Uuid
  channelId : Option Uuid
  senderId : Uuid
  senderDeviceId : Option Int
  senderUsername : String
  content : String
  createdAt : Nat
  replyToId : Option Uuid
  replyToContent : Option String
  replyToUsername : Option String
  threadRootId : Option Uuid
  deriving DecidableEq

inductive StoreError where
  | rowNotFound
  | uniqueViolation
  | database
  deriving DecidableEq

def undeliveredPageSize : Nat := 100

def systemLead : List Char := "__system__:".toList

def isSystem (content : String) : Bool := systemLead.isPrefixOf content.toList

/-- `(created_at, id) < (ts, id')` -/
def MessageRow.before (row : MessageRow) (ts : Nat) (id : Uuid) : Prop :=
  row.createdAt < ts ∨ row.createdAt = ts ∧ row.id < id

instance (row : MessageRow) (ts : Nat) (id : Uuid) : Decidable (row.before ts id) :=
  inferInstanceAs (Decidable (_ ∨ _))

def MessageRow.isExpired (now : Nat) (row : MessageRow) : Bool := row.expiresAt.any fun t => t ≤ (now : Int)

def MessageRow.le (row other : MessageRow) : Prop := ¬ other.before row.createdAt row.id

instance (row other : MessageRow) : Decidable (row.le other) := inferInstanceAs (Decidable (¬ _))

namespace Database
variable (db : Database)

section Reads

def isMember (conversationId userId : Uuid) : Bool := (db.members conversationId).find userId = some false

def getConversationMemberIds (conversationId : Uuid) : List Uuid :=
  ((db.members conversationId).entries.filter fun e => e.2 = false).map Prod.fst

def areContacts (userA userB : Uuid) : Bool :=
  db.contacts.any fun c => c = (userA, userB) ∨ c = (userB, userA)

def listContactUserIds (userId : Uuid) : List Uuid :=
  db.contacts.filterMap fun c =>
    if c.1 = userId then some c.2 else if c.2 = userId then some c.1 else none

def getChannel (channelId : Uuid) : Option Channel :=
  db.channels.find? fun c => c.id = channelId ∧ ¬ c.isDeleted

def getDefaultTextChannel (conversationId : Uuid) : Option Channel :=
  ((db.channels.filter fun c => c.conversationId = conversationId ∧ c.isText ∧ ¬ c.isDeleted).insertionSort
    fun a b => a.position < b.position ∨ a.position = b.position ∧ a.createdAt ≤ b.createdAt).head?

def parent (id conversationId : Uuid) : Option MessageRow :=
  db.messages.find? fun m => m.id = id ∧ m.conversationId = conversationId ∧ m.isDeleted = false

def lookupReplyContext (replyToId conversationId : Uuid) : Option (String × String) :=
  (db.parent replyToId conversationId).map fun m => (m.content, db.username m.senderId)

def getBlockersOf (candidateIds : List Uuid) (targetId : Uuid) : List Uuid :=
  (db.blockedUsers.filter fun b => b.1 ∈ candidateIds ∧ b.2 = targetId).map Prod.fst

def getRevokedDevicesForUsers (userIds : List Uuid) : List (Uuid × Int) :=
  db.revokedDevices.filter fun r => r.1 ∈ userIds

def withSender (m : MessageRow) : MessageWithSender where
  id := m.id
  conversationId := m.conversationId
  channelId := m.channelId
  senderId := m.senderId
  senderDeviceId := m.senderDeviceId
  senderUsername := db.username m.senderId
  content := m.content
  createdAt := m.createdAt
  replyToId := m.replyToId
  replyToContent := (m.replyToId.bind fun id => db.parent id m.conversationId).map MessageRow.content
  replyToUsername := (m.replyToId.bind fun id => db.parent id m.conversationId).map fun p =>
    db.username p.senderId
  threadRootId := m.threadRootId

def isRecorded (messageId userId : Uuid) (deviceId : Int) : Bool :=
  db.deliveries.any fun d => d = ⟨messageId, userId, deviceId⟩

/-- The `WHERE` of `get_undelivered`, without the cursor. -/
def isUndelivered (userId : Uuid) (deviceId : Int) (m : MessageRow) : Bool :=
  db.isMember m.conversationId userId && m.senderId ≠ userId && !m.isDeleted && !isSystem m.content &&
    !db.isRecorded m.id userId deviceId

def isBeyond (cursor : Option (Nat × Uuid)) (m : MessageRow) : Bool :=
  match cursor with
  | none => true
  | some (ts, id) => ts < m.createdAt ∨ ts = m.createdAt ∧ id < m.id

def undeliveredRows (userId : Uuid) (deviceId : Int) (cursor : Option (Nat × Uuid)) : List MessageRow :=
  ((db.messages.filter fun m => db.isUndelivered userId deviceId m && isBeyond cursor m).insertionSort
    MessageRow.le).take undeliveredPageSize

def getUndelivered (userId : Uuid) (deviceId : Int) (cursor : Option (Nat × Uuid)) : List MessageWithSender :=
  (db.undeliveredRows userId deviceId cursor).map db.withSender

def getDeviceContentsBatch (messageIds : List Uuid) (userId : Uuid) (deviceId : Int) : List (Uuid × String) :=
  (db.deviceContents.filter fun c =>
    c.messageId ∈ messageIds ∧ c.recipientUserId = userId ∧ c.deviceId = deviceId).map
      fun c => (c.messageId, c.content)

def messageIdsWithAnyDeviceContent (messageIds : List Uuid) (userId : Uuid) : List Uuid :=
  (db.deviceContents.filter fun c => c.messageId ∈ messageIds ∧ c.recipientUserId = userId).map
    DeviceContent.messageId

/-- A row of `get_messages` or `get_thread_replies`, for the device that asks. -/
def historyRow (userId : Uuid) (deviceId : Option Int) (m : MessageRow) : MessageWithSender :=
  let own := deviceId.bind fun device => (db.getDeviceContentsBatch [m.id] userId device).head?
  { db.withSender m with content := (own.map Prod.snd).getD m.content }

end Reads

section Writes

/-- The arguments of `store_message`; `fresh` is what `gen_random_uuid()` gives. -/
structure NewRow where
  conversationId : Uuid
  channelId : Option Uuid
  senderId : Uuid
  senderDeviceId : Option Int
  content : String
  replyToId : Option Uuid
  ttlSeconds : Option Int
  clientMessageId : Option Uuid
  threadRootId : Option Uuid

def threadRoot (anchorId conversationId : Uuid) : Option Uuid :=
  let anchor := db.messages.find? fun m => m.id = anchorId ∧ m.conversationId = conversationId
  (anchor.bind MessageRow.threadRootId).or ((db.parent anchorId conversationId).map MessageRow.id)

/-- The row `store_message` inserts. Times are in milliseconds. -/
def insertedRow (r : NewRow) (now : Nat) (fresh : Uuid) : MessageRow where
  id := r.clientMessageId.getD fresh
  conversationId := r.conversationId
  channelId := r.channelId
  senderId := r.senderId
  senderDeviceId := r.senderDeviceId
  content := r.content
  createdAt := now
  replyToId := r.replyToId.bind fun id => (db.parent id r.conversationId).map MessageRow.id
  expiresAt := r.ttlSeconds.map fun ttl => (now : Int) + ttl * 1000
  threadRootId := r.threadRootId.bind fun id => db.threadRoot id r.conversationId
  isDeleted := false

def isAnchored (id : Option Uuid) (conversationId : Uuid) : Bool :=
  id.all fun id => (db.parent id conversationId).isSome

/-- A parent or an anchor that is missing, deleted or elsewhere stops the insert. -/
def storeMessage (r : NewRow) (now : Nat) (fresh : Uuid) : Except StoreError (MessageRow × Database) :=
  if db.isAnchored r.replyToId r.conversationId && db.isAnchored r.threadRootId r.conversationId then
    let row := db.insertedRow r now fresh
    if db.messages.any fun m => m.id = row.id then .error .uniqueViolation
    else .ok (row, { db with messages := db.messages ++ [row] })
  else .error .rowNotFound

def storeDeviceContents (messageId : Uuid) (entries : List (Uuid × Int × String)) : Database :=
  { db with deviceContents := entries.foldl (fun rows (user, device, content) =>
      if rows.any fun c => c.messageId = messageId ∧ c.recipientUserId = user ∧ c.deviceId = device then rows
      else rows ++ [⟨messageId, user, device, content⟩]) db.deviceContents }

def hasMessages (ids : List Uuid) : Bool := ids.all fun id => db.messages.any fun m => m.id = id

def recordDeliveries (rows : List Delivery) : Database :=
  { db with deliveries := db.deliveries ++ rows.filter (· ∉ db.deliveries) }

def insertSystemMessage (conversationId senderId : Uuid) (content : String) (now : Nat) (fresh : Uuid) :
    Database :=
  if db.messages.any fun m => m.id = fresh then db
  else { db with messages := db.messages ++ [⟨fresh, conversationId, none, senderId, none, content, now,
    none, none, none, false⟩] }

def deleteMessage (messageId senderId : Uuid) : Database :=
  { db with messages := db.messages.map fun m =>
      if m.id = messageId ∧ m.senderId = senderId then { m with isDeleted := true } else m }

def editMessage (messageId senderId : Uuid) (newContent : String) : Database :=
  { db with messages := db.messages.map fun m =>
      if m.id = messageId ∧ m.senderId = senderId ∧ m.isDeleted = false then { m with content := newContent }
      else m }

/-- Ciphertexts and ledger rows go with a removed message, replies to it lose the reference. -/
def cleanupExpiredMessages (now : Nat) : Database :=
  let gone := (db.messages.filter (MessageRow.isExpired now)).map MessageRow.id
  { db with
    messages := (db.messages.filter fun m => !MessageRow.isExpired now m).map fun m =>
      { m with replyToId := m.replyToId.filter (· ∉ gone), threadRootId := m.threadRootId.filter (· ∉ gone) }
    deviceContents := db.deviceContents.filter fun c => c.messageId ∉ gone
    deliveries := db.deliveries.filter fun d => d.messageId ∉ gone }

end Writes
end Database
end Echo.Server
