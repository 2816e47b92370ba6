import Echo.Lib.Newest
import Echo.Server.Views
import Echo.Timeline.Frames
import Echo.Timeline.Index

/-! Scrolling back through a conversation: `loadHistoryWithUserId` of `chat_history.dart`, `loadOlderMessages` of
`history_loaders.dart` and the pages that the server answers with. -/
namespace Echo.Timeline
open ChatState Chat
open Echo.Lib.Paging
open Echo.Server (Uuid UuidFormat MessageRow HistoryRow Database)

/-- Ids and timestamps on the wire: `uuid` and `chrono` read back what they write. -/
structure HistoryWire where
  uuid : UuidFormat
  uuid_trimmed : ∀ id, trimmed (uuid.text id) = uuid.text id
  uuid_ne : ∀ id, uuid.text id ≠ ""
  timestamp : Nat → String
  parse : String → Option Nat
  parse_timestamp : ∀ at_, parse (timestamp at_) = some at_

/-- `MessageDto`; when a message was edited and its reactions are left out. -/
def HistoryWire.messageDto (w : HistoryWire) (row : HistoryRow) : Frame
  | "id" => .str (w.uuid.text row.id)
  | "conversation_id" => .str (w.uuid.text row.conversationId)
  | "channel_id" => (row.channelId.map fun id => Value.str (w.uuid.text id)).getD .null
  | "sender_id" => .str (w.uuid.text row.senderId)
  | "from_device_id" => (row.senderDeviceId.map Value.int).getD .null
  | "sender_username" => .str row.senderUsername
  | "content" => .str row.content
  | "created_at" => .str (w.timestamp row.createdAt)
  | "reply_to_id" => (row.replyToId.map fun id => Value.str (w.uuid.text id)).getD .null
  | "reply_to_content" => (row.replyToContent.map Value.str).getD .null
  | "reply_to_username" => (row.replyToUsername.map Value.str).getD .null
  | "thread_root_id" => (row.threadRootId.map fun id => Value.str (w.uuid.text id)).getD .null
  | "reply_count" => .int row.replyCount
  | "last_reply_snippet" => (row.lastReplySnippet.map Value.str).getD .null
  | "last_reply_at" => (row.lastReplyAt.map fun last => Value.str (w.timestamp last)).getD .null
  | "recent_replier_usernames" => .list (row.recentReplierUsernames.map Value.str)
  | "reactions" => .list []
  | _ => .null

/-- The client that reads: what it takes from the platform, and `_decryptIfNeeded`, which changes what a message
says, or answers the copy that is cached under its id. -/
structure Reader where
  platform : Platform
  dates : Dates
  wire : HistoryWire
  userId : Uuid
  deviceId : Option Int
  decryptIfNeeded : Frame → ChatMessage → ChatMessage
  keeps_id : ∀ json msg, (decryptIfNeeded json msg).id = msg.id
  keeps_timestamp : ∀ json msg, (decryptIfNeeded json msg).timestamp = msg.timestamp
  keeps_channel : ∀ json msg, (decryptIfNeeded json msg).channelId = msg.channelId

namespace ChatState

def messagesForConversationChannel (s : ChatState) (conversationId : String) (channelId : Option String)
    (includeUnchanneled : Bool) : List ChatMessage :=
  match channelId with
  | none => s.messagesForConversation conversationId
  | some channelId =>
    if channelId = "" then s.messagesForConversation conversationId
    else (s.messagesForConversation conversationId).filter fun m =>
      m.isSystemEvent || m.channelId == some channelId ||
        includeUnchanneled && (m.channelId.isNone || m.channelId == some "")

def conversationHasMore (s : ChatState) (conversationId : String) (channelId : Option String) : Bool :=
  (s.hasMore (historyKey conversationId channelId)).getD true

end ChatState

def paginationCursor (messages : List ChatMessage) : Option ChatMessage :=
  (messages.find? fun m => !m.isSystemEvent).or messages.head?

namespace Reader
variable (r : Reader) (db : Database) (conversationId : Uuid) (channelId : Option Uuid) (limit : Nat)

def conversation : String := r.wire.uuid.text conversationId

def channel : Option String := channelId.map r.wire.uuid.text

def processHistoryMessages (rows : List HistoryRow) : Option (List ChatMessage) :=
  rows.mapM fun row =>
    (fromServerJson r.dates (r.wire.messageDto row) (r.wire.uuid.text r.userId)).map
      (r.decryptIfNeeded (r.wire.messageDto row))

/-- The answer to the request; a cursor that is no timestamp is refused. The reader is a member, and `limit` is 50 in
the client's request. -/
def fetchHistory (before : Option String) : Option (List HistoryRow) :=
  match before with
  | none => some (db.getMessages conversationId channelId none limit r.userId r.deviceId)
  | some text =>
    (r.wire.parse text).map fun cursor =>
      db.getMessages conversationId channelId (some cursor) limit r.userId r.deviceId

def loadHistoryWithUserId (before : Option String) (s : ChatState) : ChatState :=
  match (r.fetchHistory db conversationId channelId limit before).bind r.processHistoryMessages with
  | none => s
  | some newMessages =>
    mergeMessages r.platform s (r.conversation conversationId) newMessages (r.channel channelId)

def shown (s : ChatState) : List ChatMessage :=
  s.messagesForConversationChannel (r.conversation conversationId) (r.channel channelId) channelId.isNone

def hasMore (s : ChatState) : Bool := s.conversationHasMore (r.conversation conversationId) (r.channel channelId)

def loadOlderMessages (s : ChatState) : ChatState :=
  if r.hasMore conversationId channelId s then
    match paginationCursor (r.shown conversationId channelId s) with
    | none => s
    | some oldest => r.loadHistoryWithUserId db conversationId channelId limit (some oldest.timestamp) s
  else s

def scrolled (s : ChatState) : Nat → ChatState
  | 0 => r.loadHistoryWithUserId db conversationId channelId limit none s
  | n + 1 => r.loadOlderMessages db conversationId channelId limit (scrolled s n)

def held (s : ChatState) : List ChatMessage := s.messagesForConversation (r.conversation conversationId)

def holds (s : ChatState) (m : MessageRow) : Bool := r.wire.uuid.text m.id ∈ ids (r.held conversationId s)

def timeline : List MessageRow := db.messages.filter (Database.onTimeline conversationId channelId)

/-- Nothing is skipped: what is not held is older than what is shown, and what is held of the conversation is shown.
All of it and the rest of the conversation fit under the cap, and the server can read the timestamps that are shown. -/
structure Sound (s : ChatState) : Prop where
  unskipped : ∀ m ∈ timeline db conversationId channelId, r.holds conversationId s m = false →
    ∀ x ∈ r.shown conversationId channelId s, ∀ cursor, r.wire.parse x.timestamp = some cursor → m.createdAt < cursor
  seen : ∀ m ∈ timeline db conversationId channelId, r.holds conversationId s m = true →
    ∃ x ∈ r.shown conversationId channelId s, x.id = r.wire.uuid.text m.id
  dated : ∀ x ∈ r.shown conversationId channelId s, (r.wire.parse x.timestamp).isSome = true
  fits : (timeline db conversationId channelId).countP (fun m => !r.holds conversationId s m) +
    (r.held conversationId s).length ≤ maxMessagesPerConv

/-- The messages before a cursor: no messages of one moment are parted by the page, and a page that is shorter than
what the client asks for is all of them. -/
structure Clean (cursor : Option Nat) : Prop where
  unbroken : Unbroken MessageRow.createdAt
    ((timeline db conversationId channelId).filter (isBefore MessageRow.createdAt cursor)) limit
  enough : 50 ≤ limit ∨
    ((timeline db conversationId channelId).filter (isBefore MessageRow.createdAt cursor)).length ≤ limit

/-- The first page is clean, and so is every later one; and of the messages before its cursor fewer than a page are
held. -/
structure Unhindered (s : ChatState) : Prop where
  start : r.Sound db conversationId channelId s
  first : Clean db conversationId channelId limit none
  clean : ∀ n, r.hasMore conversationId channelId (r.scrolled db conversationId channelId limit s n) = true →
    ∀ oldest, paginationCursor (r.shown conversationId channelId (r.scrolled db conversationId channelId limit s n)) =
      some oldest → Clean db conversationId channelId limit (r.wire.parse oldest.timestamp)
  unheld : ∀ n, r.hasMore conversationId channelId (r.scrolled db conversationId channelId limit s n) = true →
    ∀ oldest, paginationCursor (r.shown conversationId channelId (r.scrolled db conversationId channelId limit s n)) =
      some oldest →
        ((timeline db conversationId channelId).filter
          (isBefore MessageRow.createdAt (r.wire.parse oldest.timestamp))).countP
            (r.holds conversationId (r.scrolled db conversationId channelId limit s n)) < 50

/-- Every load adds a message or is the last, and at the end every message has been held. -/
structure ReachesAll (s : ChatState) : Prop where
  advances : ∀ n, r.hasMore conversationId channelId (r.scrolled db conversationId channelId limit s n) = true →
    r.hasMore conversationId channelId (r.scrolled db conversationId channelId limit s (n + 1)) = false ∨
      ∃ m ∈ r.held conversationId (r.scrolled db conversationId channelId limit s (n + 1)),
        m.id ∉ ids (r.held conversationId (r.scrolled db conversationId channelId limit s n))
  ends : ∃ n, r.hasMore conversationId channelId (r.scrolled db conversationId channelId limit s n) = false ∧
    ∀ m ∈ timeline db conversationId channelId,
      ∃ k ≤ n, r.holds conversationId (r.scrolled db conversationId channelId limit s k) m = true

section Answer
variable {r : Reader} {db : Database} {conversationId : Uuid} {channelId : Option Uuid} {limit : Nat}

structure ReadFrom (r : Reader) (row : MessageRow) (msg : ChatMessage) : Prop where
  id : msg.id = r.wire.uuid.text row.id
  timestamp : msg.timestamp = r.wire.timestamp row.createdAt
  channelId : msg.channelId = row.channelId.map r.wire.uuid.text

theorem asStringOrNull_map {α : Type} (f : α → String) (value : Option α) :
    ((value.map fun a => Value.str (f a)).getD .null).asStringOrNull = some (value.map f) := by
  cases value <;> rfl

theorem fromServerJson_messageDto (w : HistoryWire) (dates : Dates) (row : HistoryRow) (myUserId : String) :
    ∃ msg, fromServerJson dates (w.messageDto row) myUserId = some msg ∧ msg.id = w.uuid.text row.id ∧
      msg.timestamp = w.timestamp row.createdAt ∧ msg.channelId = row.channelId.map w.uuid.text := by
  have channel : (w.messageDto row "channel_id").asStringOrNull = some (row.channelId.map w.uuid.text) :=
    asStringOrNull_map _ _
  have replyTo : (w.messageDto row "reply_to_id").asStringOrNull = some (row.replyToId.map w.uuid.text) :=
    asStringOrNull_map _ _
  have content : (w.messageDto row "reply_to_content").asStringOrNull = some (row.replyToContent.map id) :=
    asStringOrNull_map id _
  have username : (w.messageDto row "reply_to_username").asStringOrNull = some (row.replyToUsername.map id) :=
    asStringOrNull_map id _
  have root : (w.messageDto row "thread_root_id").asStringOrNull = some (row.threadRootId.map w.uuid.text) :=
    asStringOrNull_map _ _
  have trimmed_channel : ((row.channelId.map w.uuid.text).map trimmed).filter (· ≠ "") =
      row.channelId.map w.uuid.text := by
    cases row.channelId with
    | none => rfl
    | some id => simp [w.uuid_trimmed, w.uuid_ne]
  rw [fromServerJson, channel, replyTo, content, username, root]
  exact ⟨_, rfl, rfl, rfl, trimmed_channel⟩

theorem processHistoryMessages_view (r : Reader) (db : Database) (rows : List MessageRow) :
    ∃ newMessages, r.processHistoryMessages (rows.map (db.messageView r.userId r.deviceId)) = some newMessages ∧
      List.Forall₂ (ReadFrom r) rows newMessages := by
  induction rows with
  | nil => exact ⟨[], rfl, .nil⟩
  | cons row rows ih =>
    obtain ⟨newMessages, processed, read⟩ := ih
    obtain ⟨msg, made, id, timestamp, channel⟩ := fromServerJson_messageDto r.wire r.dates
      (db.messageView r.userId r.deviceId row) (r.wire.uuid.text r.userId)
    refine ⟨r.decryptIfNeeded (r.wire.messageDto (db.messageView r.userId r.deviceId row)) msg :: newMessages, ?_,
      .cons ⟨(r.keeps_id _ _).trans id, (r.keeps_timestamp _ _).trans timestamp, (r.keeps_channel _ _).trans channel⟩
        read⟩
    rw [processHistoryMessages] at processed
    rw [processHistoryMessages, List.map_cons, List.mapM_cons, made, processed]
    rfl

def Answer (r : Reader) (db : Database) (conversationId : Uuid) (channelId : Option Uuid) (limit : Nat)
    (cursor : Option Nat) (newMessages : List ChatMessage) : Prop :=
  List.Forall₂ (ReadFrom r) (page MessageRow.createdAt (timeline db conversationId channelId) limit cursor) newMessages

theorem load_first (r : Reader) (db : Database) (conversationId : Uuid) (channelId : Option Uuid) (limit : Nat)
    (s : ChatState) :
    ∃ newMessages, Answer r db conversationId channelId limit none newMessages ∧
      r.loadHistoryWithUserId db conversationId channelId limit none s =
        mergeMessages r.platform s (r.conversation conversationId) newMessages (r.channel channelId) := by
  obtain ⟨newMessages, processed, read⟩ := processHistoryMessages_view r db
    (page MessageRow.createdAt (timeline db conversationId channelId) limit none)
  refine ⟨newMessages, read, ?_⟩
  rw [loadHistoryWithUserId, fetchHistory, Option.bind_some, Database.getMessages, ← timeline, processed]

theorem load_from (db : Database) (conversationId : Uuid) (channelId : Option Uuid) (limit : Nat) (s : ChatState)
    {text : String} {cursor : Nat} (parsed : r.wire.parse text = some cursor) :
    ∃ newMessages, Answer r db conversationId channelId limit (some cursor) newMessages ∧
      r.loadHistoryWithUserId db conversationId channelId limit (some text) s =
        mergeMessages r.platform s (r.conversation conversationId) newMessages (r.channel channelId) := by
  obtain ⟨newMessages, processed, read⟩ := processHistoryMessages_view r db
    (page MessageRow.createdAt (timeline db conversationId channelId) limit (some cursor))
  refine ⟨newMessages, read, ?_⟩
  rw [loadHistoryWithUserId, fetchHistory, parsed, Option.map_some, Option.bind_some, Database.getMessages, ← timeline,
    processed]

structure Joined (r : Reader) (conversationId : Uuid) (channelId : Option Uuid) (s : ChatState)
    (newMessages : List ChatMessage) (s' : ChatState) : Prop where
  held : (r.held conversationId s').Perm
    (newMessages.filter (fun m => m.id ∉ ids (r.held conversationId s)) ++ r.held conversationId s)
  more : r.hasMore conversationId channelId s' = decide (50 ≤ newMessages.length)

theorem merge_hasMore (s : ChatState) (newMessages : List ChatMessage) :
    r.hasMore conversationId channelId
      (mergeMessages r.platform s (r.conversation conversationId) newMessages (r.channel channelId)) =
        decide (50 ≤ newMessages.length) := by
  have updated : (mergeMessages r.platform s (r.conversation conversationId) newMessages (r.channel channelId)).hasMore
      (historyKey (r.conversation conversationId) (r.channel channelId)) = some (decide (50 ≤ newMessages.length)) :=
    Function.update_self _ _ _
  rw [hasMore, conversationHasMore, updated, Option.getD_some]

theorem merged_joined (s : ChatState) (newMessages : List ChatMessage) :
    (merged r.platform s (r.conversation conversationId) newMessages).Perm
      (newMessages.filter (fun m => m.id ∉ ids (r.held conversationId s)) ++ r.held conversationId s) := by
  have perm : (merged r.platform s (r.conversation conversationId) newMessages).Perm _ := merged_perm s _ newMessages
  rw [Reader.held]
  simpa only [idSet, List.mem_toFinset] using perm

variable {newMessages : List ChatMessage}

theorem merge_joined {s : ChatState}
    (room : (newMessages.filter fun m => m.id ∉ ids (r.held conversationId s)).length +
      (r.held conversationId s).length ≤ maxMessagesPerConv) :
    Joined r conversationId channelId s newMessages
      (mergeMessages r.platform s (r.conversation conversationId) newMessages (r.channel channelId)) where
  held := by
    have perm : (merged r.platform s (r.conversation conversationId) newMessages).Perm
        (newMessages.filter (fun m => m.id ∉ ids (r.held conversationId s)) ++ r.held conversationId s) :=
      merged_joined s newMessages
    have short : (merged r.platform s (r.conversation conversationId) newMessages).length ≤ maxMessagesPerConv := by
      rw [perm.length_eq, List.length_append]
      exact room
    rw [Reader.held, mergeMessages]
    have listed := rebuild_messages s (r.conversation conversationId)
      (trim (merged r.platform s (r.conversation conversationId) newMessages))
    rw [trim_short short] at listed ⊢
    exact List.Perm.trans (List.Perm.of_eq listed) perm
  more := merge_hasMore s newMessages

theorem Answer.length {cursor : Option Nat}
    (answer : Answer r db conversationId channelId limit cursor newMessages) :
    newMessages.length =
      min limit ((timeline db conversationId channelId).filter (isBefore MessageRow.createdAt cursor)).length := by
  rw [← length_page]
  exact (List.Forall₂.length_eq answer).symm

theorem ids_readFrom {rows : List MessageRow}
    (read : List.Forall₂ (ReadFrom r) rows newMessages) :
    ids newMessages = rows.map fun m => r.wire.uuid.text m.id := by
  induction read with
  | nil => rfl
  | cons first _ ih => rw [ids, List.map_cons, List.map_cons, first.id, ← ih]

theorem exists_row {rows : List MessageRow}
    (read : List.Forall₂ (ReadFrom r) rows newMessages) {msg : ChatMessage} (mem : msg ∈ newMessages) :
    ∃ m ∈ rows, ReadFrom r m msg := by
  induction read with
  | nil => cases mem
  | cons first _ ih =>
    rcases List.mem_cons.mp mem with rfl | later
    · exact ⟨_, List.mem_cons_self, first⟩
    · obtain ⟨m, inside, read⟩ := ih later
      exact ⟨m, List.mem_cons_of_mem _ inside, read⟩

theorem shown_eq_filter (r : Reader) (db : Database) (conversationId : Uuid) (channelId : Option Uuid) :
    ∃ visible : ChatMessage → Bool,
      (∀ s, r.shown conversationId channelId s = (r.held conversationId s).filter visible) ∧
        ∀ m ∈ timeline db conversationId channelId, ∀ msg, ReadFrom r m msg → visible msg = true := by
  cases channelId with
  | none => exact ⟨fun _ => true, fun s => (List.filter_true _).symm, fun _ _ _ _ => rfl⟩
  | some channelId =>
    refine ⟨_, fun s => if_neg (r.wire.uuid_ne channelId), fun m mem msg read => ?_⟩
    have own := of_decide_eq_true (List.mem_filter.mp mem).2
    have channel : m.channelId = some channelId := by simpa using own.2.1
    rw [read.channelId, channel]
    simp

section Step
variable {s s' : ChatState} {newMessages : List ChatMessage}

theorem mem_ids_joined {messages joined : List ChatMessage}
    (perm : joined.Perm (newMessages.filter (fun m => m.id ∉ ids messages) ++ messages)) (id : String) :
    id ∈ ids joined ↔ id ∈ ids newMessages ∨ id ∈ ids messages := by
  rw [ids, (perm.map ChatMessage.id).mem_iff, List.map_append, List.mem_append]
  by_cases known : id ∈ ids messages
  · exact iff_of_true (Or.inr known) (Or.inr known)
  · refine or_congr_left ?_
    constructor
    · intro mem
      obtain ⟨m, inside, rfl⟩ := List.mem_map.mp mem
      exact List.mem_map_of_mem (List.mem_of_mem_filter inside)
    · intro mem
      obtain ⟨m, inside, rfl⟩ := List.mem_map.mp mem
      exact List.mem_map_of_mem (List.mem_filter.mpr ⟨inside, decide_eq_true known⟩)

theorem Joined.holds_iff (joined : Joined r conversationId channelId s newMessages s') (m : MessageRow) :
    r.holds conversationId s' m = true ↔
      r.wire.uuid.text m.id ∈ ids newMessages ∨ r.holds conversationId s m = true := by
  simp only [holds, decide_eq_true_eq]
  exact mem_ids_joined joined.held _

theorem length_unheld {rows : List MessageRow} (read : List.Forall₂ (ReadFrom r) rows newMessages) :
    (newMessages.filter fun m => m.id ∉ ids (r.held conversationId s)).length =
      rows.countP fun m => !r.holds conversationId s m := by
  rw [← List.countP_eq_length_filter]
  induction read with
  | nil => rfl
  | cons first _ ih =>
    rw [List.countP_cons, List.countP_cons, ih, first.id]
    simp [holds]

variable {cursor : Option Nat} {m : MessageRow}

theorem Answer.room (sound : r.Sound db conversationId channelId s)
    (answer : Answer r db conversationId channelId limit cursor newMessages) :
    (newMessages.filter fun m => m.id ∉ ids (r.held conversationId s)).length +
      (r.held conversationId s).length ≤ maxMessagesPerConv := by
  refine (Nat.add_le_add_right ?_ _).trans sound.fits
  rw [length_unheld answer]
  have perm := page_append_left MessageRow.createdAt (timeline db conversationId channelId) limit cursor
  calc (page MessageRow.createdAt (timeline db conversationId channelId) limit cursor).countP _
      ≤ ((timeline db conversationId channelId).filter (isBefore MessageRow.createdAt cursor)).countP _ := by
        rw [← perm.countP_eq, List.countP_append]
        exact Nat.le_add_right _ _
    _ ≤ (timeline db conversationId channelId).countP _ := List.filter_sublist.countP_le

theorem Answer.joined_page
    (answer : Answer r db conversationId channelId limit cursor newMessages)
    (joined : Joined r conversationId channelId s newMessages s')
    (mem : m ∈ page MessageRow.createdAt (timeline db conversationId channelId) limit cursor) :
    r.holds conversationId s' m = true := by
  rw [joined.holds_iff, ids_readFrom answer]
  exact Or.inl (List.mem_map_of_mem mem)

theorem Answer.unheld_left
    (answer : Answer r db conversationId channelId limit cursor newMessages)
    (joined : Joined r conversationId channelId s newMessages s')
    (unskipped : ∀ m ∈ timeline db conversationId channelId, r.holds conversationId s m = false →
      isBefore MessageRow.createdAt cursor m = true)
    (mem : m ∈ timeline db conversationId channelId) (unheld : r.holds conversationId s' m = false) :
    m ∈ older MessageRow.createdAt (timeline db conversationId channelId) limit cursor := by
  have before : r.holds conversationId s m = false := by
    by_contra held
    rw [Bool.not_eq_false] at held
    rw [(joined.holds_iff m).mpr (Or.inr held)] at unheld
    exact Bool.noConfusion unheld
  have perm := page_append_left MessageRow.createdAt (timeline db conversationId channelId) limit cursor
  rcases List.mem_append.mp (perm.mem_iff.mpr (List.mem_filter.mpr ⟨mem, unskipped m mem before⟩)) with now | later
  · rw [answer.joined_page joined now] at unheld
    exact Bool.noConfusion unheld
  · exact later

theorem Joined.countP_unheld {rows all : List MessageRow} (joined : Joined r conversationId channelId s newMessages s')
    (read : List.Forall₂ (ReadFrom r) rows newMessages) (inside : rows.Subperm all) :
    all.countP (fun m => !r.holds conversationId s' m) + rows.countP (fun m => !r.holds conversationId s m) ≤
      all.countP fun m => !r.holds conversationId s m := by
  let brought (m : MessageRow) : Bool := r.wire.uuid.text m.id ∈ ids newMessages
  have after : all.countP (fun m => !r.holds conversationId s' m) =
      (all.filter fun m => !brought m).countP fun m => !r.holds conversationId s m := by
    rw [List.countP_filter]
    refine List.countP_congr fun m _ => ?_
    have both := joined.holds_iff m
    cases held : r.holds conversationId s' m <;> cases held' : r.holds conversationId s m <;> simp_all [brought]
  have rows_brought : rows.filter brought = rows := List.filter_eq_self.mpr fun m mem => by
    simp only [brought, ids_readFrom read]
    exact decide_eq_true (List.mem_map_of_mem mem)
  have first : rows.countP (fun m => !r.holds conversationId s m) ≤
      (all.filter brought).countP fun m => !r.holds conversationId s m := by
    rw [← rows_brought]
    exact (inside.filter brought).countP_le _
  rw [after, List.countP_eq_countP_filter_add all _ brought]
  omega

theorem page_subperm (rows : List MessageRow) (limit : Nat) (cursor : Option Nat) :
    (page MessageRow.createdAt rows limit cursor).Subperm rows := by
  have perm := page_append_left MessageRow.createdAt rows limit cursor
  exact (List.sublist_append_left _ _).subperm.trans (perm.subperm.trans List.filter_sublist.subperm)

theorem Sound.join (sound : r.Sound db conversationId channelId s)
    (clean : Clean db conversationId channelId limit cursor)
    (answer : Answer r db conversationId channelId limit cursor newMessages)
    (unskipped : ∀ m ∈ timeline db conversationId channelId, r.holds conversationId s m = false →
      isBefore MessageRow.createdAt cursor m = true)
    (joined : Joined r conversationId channelId s newMessages s') : r.Sound db conversationId channelId s' := by
  obtain ⟨visible, shown, own⟩ := shown_eq_filter r db conversationId channelId
  have old_stays : ∀ x ∈ r.shown conversationId channelId s, x ∈ r.shown conversationId channelId s' := by
    intro x mem
    rw [shown] at mem ⊢
    obtain ⟨held, seen⟩ := List.mem_filter.mp mem
    exact List.mem_filter.mpr ⟨joined.held.mem_iff.mpr (List.mem_append_right _ held), seen⟩
  have old_or_new : ∀ x ∈ r.shown conversationId channelId s', x ∈ r.shown conversationId channelId s ∨
      ∃ m ∈ page MessageRow.createdAt (timeline db conversationId channelId) limit cursor,
        r.wire.parse x.timestamp = some m.createdAt := by
    intro x mem
    rw [shown] at mem ⊢
    obtain ⟨held, seen⟩ := List.mem_filter.mp mem
    rcases List.mem_append.mp (joined.held.mem_iff.mp held) with new | old
    · obtain ⟨m, inside, read⟩ := exists_row answer (List.mem_of_mem_filter new)
      exact Or.inr ⟨m, inside, by rw [read.timestamp, r.wire.parse_timestamp]⟩
    · exact Or.inl (List.mem_filter.mpr ⟨old, seen⟩)
  constructor
  · intro m mem unheld x seen t parsed
    have left := answer.unheld_left joined unskipped mem unheld
    rcases old_or_new x seen with old | ⟨row, inside, dated⟩
    · refine sound.unskipped m mem ?_ x old t parsed
      by_contra held
      rw [Bool.not_eq_false] at held
      rw [(joined.holds_iff m).mpr (Or.inr held)] at unheld
      exact Bool.noConfusion unheld
    · obtain rfl := Option.some.inj (dated.symm.trans parsed)
      exact older_lt clean.unbroken inside left
  · intro m mem held
    cases before : r.holds conversationId s m with
    | true =>
      obtain ⟨x, seen, same⟩ := sound.seen m mem before
      exact ⟨x, old_stays x seen, same⟩
    | false =>
      have new := ((joined.holds_iff m).mp held).resolve_right (by rw [before]; exact Bool.false_ne_true)
      obtain ⟨x, mem', same⟩ := List.mem_map.mp new
      obtain ⟨row, inside, read⟩ := exists_row answer mem'
      have unknown : x.id ∉ ids (r.held conversationId s) := by
        rw [same]
        exact of_decide_eq_false before
      refine ⟨x, ?_, same⟩
      rw [shown]
      refine List.mem_filter.mpr ⟨joined.held.mem_iff.mpr ?_, own row (mem_page inside).1 x read⟩
      exact List.mem_append_left _ (List.mem_filter.mpr ⟨mem', decide_eq_true unknown⟩)
  · intro x seen
    rcases old_or_new x seen with old | ⟨row, -, dated⟩
    · exact sound.dated x old
    · rw [dated]
      rfl
  · have fits := sound.fits
    have counted := joined.countP_unheld answer (page_subperm (timeline db conversationId channelId) limit cursor)
    rw [joined.held.length_eq, List.length_append, length_unheld answer]
    omega

theorem Answer.holds_all (clean : Clean db conversationId channelId limit cursor)
    (answer : Answer r db conversationId channelId limit cursor newMessages)
    (unskipped : ∀ m ∈ timeline db conversationId channelId, r.holds conversationId s m = false →
      isBefore MessageRow.createdAt cursor m = true)
    (joined : Joined r conversationId channelId s newMessages s')
    (done : r.hasMore conversationId channelId s' = false)
    (mem : m ∈ timeline db conversationId channelId) : r.holds conversationId s' m = true := by
  rw [joined.more, decide_eq_false_iff_not, answer.length] at done
  by_contra unheld
  have left := answer.unheld_left joined unskipped mem (Bool.eq_false_iff.mpr unheld)
  have enough := clean.enough
  rw [older_eq_nil (by omega)] at left
  cases left

structure Loaded (r : Reader) (db : Database) (conversationId : Uuid) (channelId : Option Uuid) (s : ChatState) :
    Prop where
  sound : r.Sound db conversationId channelId s
  whole : r.hasMore conversationId channelId s = false →
    ∀ m ∈ timeline db conversationId channelId, r.holds conversationId s m = true
  filled : r.hasMore conversationId channelId s = true → r.shown conversationId channelId s ≠ []

theorem Sound.load (sound : r.Sound db conversationId channelId s)
    (clean : Clean db conversationId channelId limit cursor)
    (answer : Answer r db conversationId channelId limit cursor newMessages)
    (unskipped : ∀ m ∈ timeline db conversationId channelId, r.holds conversationId s m = false →
      isBefore MessageRow.createdAt cursor m = true)
    (joined : Joined r conversationId channelId s newMessages s') : Loaded r db conversationId channelId s' where
  sound := sound.join clean answer unskipped joined
  whole done _ mem := answer.holds_all clean unskipped joined done mem
  filled more := by
    rw [joined.more, decide_eq_true_eq] at more
    have some_row : 0 < (page MessageRow.createdAt (timeline db conversationId channelId) limit cursor).length := by
      rw [List.Forall₂.length_eq answer]
      omega
    obtain ⟨m, inside⟩ := List.exists_mem_of_length_pos some_row
    obtain ⟨x, seen, -⟩ := (sound.join clean answer unskipped joined).seen m (mem_page inside).1
      (answer.joined_page joined inside)
    exact List.ne_nil_of_mem seen

end Step

theorem paginationCursor_mem {messages : List ChatMessage} {oldest : ChatMessage}
    (found : paginationCursor messages = some oldest) : oldest ∈ messages := by
  rw [paginationCursor, Option.or_eq_some_iff] at found
  rcases found with first | ⟨-, first⟩
  · exact List.mem_of_find?_eq_some first
  · exact List.mem_of_mem_head? first

theorem exists_paginationCursor {messages : List ChatMessage} (filled : messages ≠ []) :
    ∃ oldest, paginationCursor messages = some oldest := by
  cases messages with
  | nil => exact absurd rfl filled
  | cons first rest =>
    rw [paginationCursor]
    cases (first :: rest).find? fun m => !m.isSystemEvent with
    | none => exact ⟨first, rfl⟩
    | some oldest => exact ⟨oldest, rfl⟩

section Run
variable {s : ChatState}

theorem Loaded.older {t : ChatState} (limit : Nat) (loaded : Loaded r db conversationId channelId t)
    (more : r.hasMore conversationId channelId t = true) :
    ∃ oldest cursor newMessages, paginationCursor (r.shown conversationId channelId t) = some oldest ∧
      r.wire.parse oldest.timestamp = some cursor ∧
      Answer r db conversationId channelId limit (some cursor) newMessages ∧
      (∀ m ∈ timeline db conversationId channelId, r.holds conversationId t m = false →
        isBefore MessageRow.createdAt (some cursor) m = true) ∧
      Joined r conversationId channelId t newMessages (r.loadOlderMessages db conversationId channelId limit t) := by
  obtain ⟨oldest, found⟩ := exists_paginationCursor (loaded.filled more)
  have seen := paginationCursor_mem found
  obtain ⟨cursor, parsed⟩ := Option.isSome_iff_exists.mp (loaded.sound.dated oldest seen)
  obtain ⟨newMessages, answer, made⟩ := load_from db conversationId channelId limit t parsed
  refine ⟨oldest, cursor, newMessages, found, parsed, answer, fun m mem unheld => ?_, ?_⟩
  · exact decide_eq_true (loaded.sound.unskipped m mem unheld oldest seen cursor parsed)
  · have step : r.loadOlderMessages db conversationId channelId limit t =
        mergeMessages r.platform t (r.conversation conversationId) newMessages (r.channel channelId) := by
      rw [loadOlderMessages, if_pos more, found]
      exact made
    rw [step]
    exact merge_joined (answer.room loaded.sound)

theorem loadOlderMessages_done {t : ChatState} (done : r.hasMore conversationId channelId t = false) :
    r.loadOlderMessages db conversationId channelId limit t = t := by
  rw [loadOlderMessages, done]
  exact if_neg Bool.false_ne_true

theorem scrolled_loaded (unhindered : r.Unhindered db conversationId channelId limit s) (n : Nat) :
    Loaded r db conversationId channelId (r.scrolled db conversationId channelId limit s n) := by
  induction n with
  | zero =>
    obtain ⟨newMessages, answer, made⟩ := load_first r db conversationId channelId limit s
    rw [scrolled, made]
    exact unhindered.start.load unhindered.first answer (fun _ _ _ => rfl) (merge_joined (answer.room unhindered.start))
  | succ n ih =>
    rw [scrolled]
    cases more : r.hasMore conversationId channelId (r.scrolled db conversationId channelId limit s n) with
    | false =>
      rw [loadOlderMessages_done more]
      exact ih
    | true =>
      obtain ⟨oldest, cursor, newMessages, found, parsed, answer, unskipped, joined⟩ := ih.older limit more
      have clean := unhindered.clean n more oldest found
      rw [parsed] at clean
      exact ih.sound.load clean answer unskipped joined

theorem scrolled_advances (unhindered : r.Unhindered db conversationId channelId limit s) {n : Nat}
    (more : r.hasMore conversationId channelId (r.scrolled db conversationId channelId limit s n) = true)
    (more' : r.hasMore conversationId channelId (r.scrolled db conversationId channelId limit s (n + 1)) = true) :
    ∃ m ∈ timeline db conversationId channelId,
      r.holds conversationId (r.scrolled db conversationId channelId limit s n) m = false ∧
        r.holds conversationId (r.scrolled db conversationId channelId limit s (n + 1)) m = true := by
  obtain ⟨oldest, cursor, newMessages, found, parsed, answer, -, joined⟩ :=
    (scrolled_loaded unhindered n).older limit more
  have few := unhindered.unheld n more oldest found
  rw [scrolled, joined.more, decide_eq_true_eq, ← List.Forall₂.length_eq answer] at more'
  by_contra none_new
  push Not at none_new
  have all : ∀ m ∈ page MessageRow.createdAt (timeline db conversationId channelId) limit (some cursor),
      r.holds conversationId (r.scrolled db conversationId channelId limit s n) m = true := by
    intro m inside
    by_contra unheld
    exact none_new m (mem_page inside).1 (Bool.eq_false_iff.mpr unheld) (answer.joined_page joined inside)
  have perm := page_append_left MessageRow.createdAt (timeline db conversationId channelId) limit (some cursor)
  rw [parsed, ← perm.countP_eq, List.countP_append, List.countP_eq_length.mpr all] at few
  omega

theorem scrolled_keeps (unhindered : r.Unhindered db conversationId channelId limit s) (n : Nat) {m : MessageRow}
    (held : r.holds conversationId (r.scrolled db conversationId channelId limit s n) m = true) :
    r.holds conversationId (r.scrolled db conversationId channelId limit s (n + 1)) m = true := by
  rw [scrolled]
  cases more : r.hasMore conversationId channelId (r.scrolled db conversationId channelId limit s n) with
  | false => rwa [loadOlderMessages_done more]
  | true =>
    obtain ⟨_, _, _, _, _, _, _, joined⟩ := (scrolled_loaded unhindered n).older limit more
    exact (joined.holds_iff m).mpr (Or.inr held)

def unheld (r : Reader) (db : Database) (conversationId : Uuid) (channelId : Option Uuid) (s : ChatState) : Nat :=
  (timeline db conversationId channelId).countP fun m => !r.holds conversationId s m

theorem unheld_lt (unhindered : r.Unhindered db conversationId channelId limit s) {n : Nat}
    (more : r.hasMore conversationId channelId (r.scrolled db conversationId channelId limit s n) = true)
    (more' : r.hasMore conversationId channelId (r.scrolled db conversationId channelId limit s (n + 1)) = true) :
    unheld r db conversationId channelId (r.scrolled db conversationId channelId limit s (n + 1)) <
      unheld r db conversationId channelId (r.scrolled db conversationId channelId limit s n) := by
  obtain ⟨m, mem, before, after⟩ := scrolled_advances unhindered more more'
  refine Echo.Lib.countP_lt_countP (fun x _ unheld => ?_) mem (by rw [before]; rfl) (by rw [after]; rfl)
  by_contra held
  rw [Bool.not_eq_true, Bool.not_eq_false'] at held
  rw [scrolled_keeps unhindered n held] at unheld
  exact Bool.noConfusion unheld

theorem scrolled_ends (unhindered : r.Unhindered db conversationId channelId limit s) :
    ∃ n, r.hasMore conversationId channelId (r.scrolled db conversationId channelId limit s n) = false := by
  by_contra endless
  have more : ∀ n, r.hasMore conversationId channelId (r.scrolled db conversationId channelId limit s n) = true :=
    fun n => by
      by_contra done
      exact endless ⟨n, Bool.eq_false_iff.mpr done⟩
  have fewer : ∀ n, unheld r db conversationId channelId (r.scrolled db conversationId channelId limit s n) + n ≤
      unheld r db conversationId channelId (r.scrolled db conversationId channelId limit s 0) := by
    intro n
    induction n with
    | zero => exact le_rfl
    | succ n ih =>
      have less := unheld_lt unhindered (more n) (more (n + 1))
      omega
  have beyond := fewer (unheld r db conversationId channelId (r.scrolled db conversationId channelId limit s 0) + 1)
  omega

theorem Unhindered.reachesAll (unhindered : r.Unhindered db conversationId channelId limit s) :
    r.ReachesAll db conversationId channelId limit s where
  advances n more := by
    cases more' : r.hasMore conversationId channelId (r.scrolled db conversationId channelId limit s (n + 1)) with
    | false => exact Or.inl rfl
    | true =>
      obtain ⟨m, -, before, after⟩ := scrolled_advances unhindered more more'
      obtain ⟨x, held, same⟩ := List.mem_map.mp (of_decide_eq_true after)
      refine Or.inr ⟨x, held, ?_⟩
      rw [same]
      exact of_decide_eq_false before
  ends := by
    obtain ⟨n, done⟩ := scrolled_ends unhindered
    exact ⟨n, done, fun m mem => ⟨n, le_rfl, (scrolled_loaded unhindered n).whole done m mem⟩⟩

end Run
end Answer
end Reader
end Echo.Timeline
