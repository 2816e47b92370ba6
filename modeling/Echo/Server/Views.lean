import Echo.Lib.Paging
import Echo.Server.Store

/-! The reads that show messages with their replies: the history, the replies of a thread and the inbox of
threads, from `db/messages.rs` and `db/threads.rs`. -/
namespace Echo.Server
open Echo.Lib Paging

structure HistoryRow extends MessageWithSender where
  replyCount : Nat
  lastReplySnippet : Option String
  lastReplyAt : Option Nat
  recentReplierUsernames : List String
  deriving DecidableEq

structure ThreadInboxEntry where
  threadRootId : Uuid
  conversationId : Uuid
  channelId : Option Uuid
  parentSenderUsername : String
  parentExcerpt : String
  lastReplyAt : Nat
  lastReplyExcerpt : String
  lastReplySenderUsername : String
  replyCount : Nat
  unreadCount : Nat
  deriving DecidableEq

/-- `thread_read_state`: of a user and a root, `last_read_at`. -/
abbrev ThreadReads := Uuid → Uuid → Option Nat

/-- `LEFT(content, n)` -/
def excerpt (n : Nat) (content : String) : String := String.ofList (content.toList.take n)

/-- `COALESCE(thread_root_id, reply_to_id)` -/
def MessageRow.rootId (m : MessageRow) : Option Uuid := m.threadRootId.or m.replyToId

/-- `created_at > COALESCE(last_read_at, 'epoch')` -/
def ThreadReads.isUnread (reads : ThreadReads) (userId rootId : Uuid) (m : MessageRow) : Bool :=
  (reads userId rootId).getD 0 < m.createdAt

namespace Database
variable (db : Database)

section History

/-- The rows that the joins on `reply_to_id` find. -/
def repliesTo (id : Uuid) : List MessageRow :=
  db.messages.filter fun x => x.replyToId = some id ∧ x.isDeleted = false

def replyCount (id : Uuid) : Nat := (db.repliesTo id).length

def newestReplyTo (id : Uuid) : Option MessageRow := (newestFirst MessageRow.createdAt (db.repliesTo id)).head?

def recentReplierUsernames (id : Uuid) : List String :=
  let senders := (newestFirst MessageRow.createdAt (db.repliesTo id)).map MessageRow.senderId
  (senders.eraseDups.take 3).map db.username

def onTimeline (conversationId : Uuid) (channelId : Option Uuid) (m : MessageRow) : Bool :=
  m.conversationId = conversationId ∧ (channelId.all fun c => m.channelId = some c) ∧ m.isDeleted = false ∧
    m.threadRootId = none

def messageView (userId : Uuid) (deviceId : Option Int) (m : MessageRow) : HistoryRow where
  toMessageWithSender := db.historyRow userId deviceId m
  replyCount := db.replyCount m.id
  lastReplySnippet := (db.newestReplyTo m.id).map fun x => excerpt 80 x.content
  lastReplyAt := (db.newestReplyTo m.id).map MessageRow.createdAt
  recentReplierUsernames := db.recentReplierUsernames m.id

def getMessages (conversationId : Uuid) (channelId : Option Uuid) (before : Option Nat) (limit : Nat)
    (userId : Uuid) (deviceId : Option Int) : List HistoryRow :=
  (page MessageRow.createdAt (db.messages.filter (onTimeline conversationId channelId)) limit before).map
    (db.messageView userId deviceId)

end History

section Thread

def inThread (parentMessageId conversationId : Uuid) (m : MessageRow) : Bool :=
  (m.threadRootId = some parentMessageId ∨ m.replyToId = some parentMessageId) ∧
    m.conversationId = conversationId ∧ m.isDeleted = false

def replyView (m : MessageRow) : HistoryRow where
  toMessageWithSender := db.withSender m
  replyCount := db.replyCount m.id
  lastReplySnippet := none
  lastReplyAt := none
  recentReplierUsernames := []

def getThreadReplies (parentMessageId conversationId : Uuid) (limit : Nat) (before : Option Nat) : List HistoryRow :=
  (page MessageRow.createdAt (db.messages.filter (inThread parentMessageId conversationId)) limit before).map
    db.replyView

def allThreadReplies (parentMessageId conversationId : Uuid) (limit : Nat) : List HistoryRow :=
  pages (fun row => row.createdAt) (db.getThreadReplies parentMessageId conversationId limit)
    (db.messages.length + 1) none

end Thread

section Inbox
variable (reads : ThreadReads) (userId : Uuid)

/-- The common table `replies`, of one root. -/
def repliesOf (rootId : Uuid) : List MessageRow :=
  db.messages.filter fun m => m.rootId = some rootId ∧ m.isDeleted = false

def latestMsg (rootId : Uuid) : Option MessageRow := (newestFirst MessageRow.createdAt (db.repliesOf rootId)).head?

def inboxEntry (root : MessageRow) : Option ThreadInboxEntry :=
  if root.isDeleted = false ∧ db.isMember root.conversationId userId = true then
    (db.latestMsg root.id).map fun latest =>
      { threadRootId := root.id
        conversationId := root.conversationId
        channelId := root.channelId
        parentSenderUsername := db.username root.senderId
        parentExcerpt := excerpt 120 root.content
        lastReplyAt := latest.createdAt
        lastReplyExcerpt := excerpt 120 latest.content
        lastReplySenderUsername := db.username latest.senderId
        replyCount := (db.repliesOf root.id).length
        unreadCount := ((db.repliesOf root.id).filter (reads.isUnread userId root.id)).length }
  else none

def threadsInbox : List ThreadInboxEntry :=
  newestFirst ThreadInboxEntry.lastReplyAt (db.messages.filterMap (db.inboxEntry reads userId))

def getThreadsInbox (limit : Nat) : List ThreadInboxEntry := (db.threadsInbox reads userId).take limit

def unreadRoots : List Uuid :=
  db.messages.filterMap fun m =>
    m.rootId.filter fun root =>
      m.isDeleted = false ∧ db.isMember m.conversationId userId = true ∧ reads.isUnread userId root m = true

def unreadThreadCount : Nat := (db.unreadRoots reads userId).dedup.length

end Inbox
end Database
end Echo.Server
