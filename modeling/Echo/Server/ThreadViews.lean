import Echo.Server.Threads
import Echo.Server.Views
import Mathlib.Data.List.Dedup

/-! Thread views: on which tables the history, the thread, the inbox and the badge count the same replies. -/
namespace Echo.Server
open Echo.Lib Paging
namespace Database
variable {db : Database}

section Links

def Referenced (db : Database) : Prop :=
  ∀ m ∈ db.messages, ∀ id, m.replyToId = some id →
    ∃ r ∈ db.messages, r.id = id ∧ r.conversationId = m.conversationId

theorem Referenced.append (referenced : db.Referenced) {row : MessageRow}
    (named : ∀ id, row.replyToId = some id → ∃ r ∈ db.messages, r.id = id ∧ r.conversationId = row.conversationId) :
    Referenced { db with messages := db.messages ++ [row] } := by
  intro m mem id replies
  have found : ∃ r ∈ db.messages, r.id = id ∧ r.conversationId = m.conversationId := by
    rcases List.mem_append.mp mem with old | added
    · exact referenced m old id replies
    · cases List.mem_singleton.mp added
      exact named id replies
  obtain ⟨r, memRow, is⟩ := found
  exact ⟨r, List.mem_append_left _ memRow, is⟩

theorem Referenced.rewritten (referenced : db.Referenced) {f : MessageRow → MessageRow} (id : ∀ m, (f m).id = m.id)
    (inside : ∀ m, (f m).conversationId = m.conversationId) (reply : ∀ m, (f m).replyToId = m.replyToId) :
    Referenced { db with messages := db.messages.map f } := by
  intro m mem named replies
  obtain ⟨old, memOld, rfl⟩ := List.mem_map.mp mem
  obtain ⟨r, memRow, is⟩ := referenced old memOld named ((reply old).symm.trans replies)
  exact ⟨f r, List.mem_map_of_mem memRow, by rw [id, inside, inside]; exact is⟩

theorem Referenced.store (referenced : db.Referenced) (r : NewRow) (now : Nat) (fresh : Uuid) :
    (db.afterStore r now fresh).Referenced := by
  unfold afterStore
  cases done : db.storeMessage r now fresh with
  | error e => exact referenced
  | ok result =>
    obtain ⟨row, stored⟩ := result
    obtain ⟨-, -, rfl, -, rfl⟩ := of_storeMessage done
    refine referenced.append ?_
    intro id replies
    simp only [insertedRow, Option.bind_eq_some_iff, Option.map_eq_some_iff] at replies ⊢
    obtain ⟨parentId, -, m, found, rfl⟩ := replies
    obtain ⟨mem, -, inside, -⟩ := parent_eq_some found
    exact ⟨m, mem, rfl, inside⟩

theorem Referenced.cleanupExpiredMessages (referenced : db.Referenced) (now : Nat) :
    (db.cleanupExpiredMessages now).Referenced := by
  intro m mem id replies
  simp only [Database.cleanupExpiredMessages] at mem ⊢
  obtain ⟨old, kept, rfl⟩ := List.mem_map.mp mem
  obtain ⟨named, spared⟩ := Option.filter_eq_some_iff.mp replies
  obtain ⟨r, memRow, isId, inside⟩ := referenced old (List.mem_of_mem_filter kept) id named
  have stays : r.isExpired now = false := by
    by_contra expired
    simp only [decide_eq_true_eq] at spared
    refine spared (List.mem_map.mpr ⟨r, List.mem_filter.mpr ⟨memRow, ?_⟩, isId⟩)
    simpa using expired
  exact ⟨_, List.mem_map_of_mem (List.mem_filter.mpr ⟨memRow, by simp [stays]⟩), isId, inside⟩

theorem Referenced.execute (referenced : db.Referenced) (statement : Statement) :
    (db.execute statement).Referenced := by
  cases statement with
  | store r now fresh => exact referenced.store r now fresh
  | change c now =>
    cases c with
    | deleteMessage messageId senderId =>
      refine referenced.rewritten ?_ ?_ ?_ <;> intro m <;> split <;> rfl
    | editMessage messageId senderId newContent =>
      refine referenced.rewritten ?_ ?_ ?_ <;> intro m <;> split <;> rfl
    | systemMessage conversationId senderId content id =>
      simp only [Database.execute, Change.apply, insertSystemMessage]
      split
      case isTrue => exact referenced
      case isFalse =>
        refine referenced.append ?_
        intro id replies
        cases replies
    | cleanupExpired => exact referenced.cleanupExpiredMessages now
    | addMember | removeMember | block | unblock | revokeDevice => exact referenced

theorem run_referenced (referenced : db.Referenced) (statements : List Statement) :
    (db.run statements).Referenced :=
  foldl_keeps (fun _ statement referenced => referenced.execute statement) statements referenced

end Links

section Replies

theorem Flat.home (flat : db.Flat) (referenced : db.Referenced) {x : MessageRow} (mem : x ∈ db.messages) {id : Uuid}
    (named : x.threadRootId = some id ∨ x.replyToId = some id) :
    ∃ r ∈ db.messages, r.id = id ∧ r.conversationId = x.conversationId := by
  rcases named with root | reply
  · obtain ⟨r, memRoot, isId, inside, -⟩ := flat.roots x mem id root
    exact ⟨r, memRoot, isId, inside⟩
  · exact referenced x mem id reply

theorem rootId_named {x : MessageRow} {id : Uuid} (root : x.rootId = some id) :
    x.threadRootId = some id ∨ x.replyToId = some id := by
  rcases Option.or_eq_some_iff.mp root with anchored | ⟨-, reply⟩
  · exact Or.inl anchored
  · exact Or.inr reply

theorem Flat.inThread_iff (flat : db.Flat) (referenced : db.Referenced) {m x : MessageRow} (mem : m ∈ db.messages)
    (memReply : x ∈ db.messages) :
    inThread m.id m.conversationId x = true ↔
      (x.threadRootId = some m.id ∨ x.replyToId = some m.id) ∧ x.isDeleted = false := by
  simp only [inThread, decide_eq_true_eq]
  refine and_congr_right fun named => and_iff_right ?_
  obtain ⟨r, memRoot, isId, inside⟩ := flat.home referenced memReply named
  rw [← inside, flat.unique memRoot mem isId]

theorem allThreadReplies_eq (parentMessageId conversationId : Uuid) (limit : Nat) :
    db.allThreadReplies parentMessageId conversationId limit =
      (pages MessageRow.createdAt
        (page MessageRow.createdAt (db.messages.filter (inThread parentMessageId conversationId)) limit)
        (db.messages.length + 1) none).map db.replyView :=
  pages_map db.replyView _ _ _

theorem length_allThreadReplies {parentMessageId conversationId : Uuid} {limit : Nat} (positive : 0 < limit)
    (distinct : ((db.messages.filter (inThread parentMessageId conversationId)).map MessageRow.createdAt).Nodup) :
    (db.allThreadReplies parentMessageId conversationId limit).length =
      (db.messages.filter (inThread parentMessageId conversationId)).length := by
  have short := List.length_filter_le (inThread parentMessageId conversationId) db.messages
  have enough : ((db.messages.filter (inThread parentMessageId conversationId)).filter
      (isBefore MessageRow.createdAt none)).length < db.messages.length + 1 := by
    rw [filter_isBefore_none]
    exact Nat.lt_succ_of_le short
  have whole := pages_perm positive distinct enough
  rw [allThreadReplies_eq, List.length_map, whole.length_eq, filter_isBefore_none]

theorem length_allThreadReplies_whole (parentMessageId conversationId : Uuid) :
    (db.allThreadReplies parentMessageId conversationId (db.messages.length + 1)).length =
      (db.messages.filter (inThread parentMessageId conversationId)).length := by
  rw [allThreadReplies_eq, List.length_map]
  exact (pages_whole ((List.length_filter_le _ _).trans (Nat.le_succ _)) _).length_eq

end Replies

section Counts
variable {reads : ThreadReads} {userId : Uuid}

theorem length_filter_eq_iff {α : Type} {p q : α → Bool} {rows : List α}
    (narrower : ∀ a ∈ rows, p a = true → q a = true) :
    (rows.filter p).length = (rows.filter q).length ↔ ∀ a ∈ rows, q a = true → p a = true := by
  have nested : rows.filter p = (rows.filter q).filter p := by
    rw [List.filter_filter]
    refine List.filter_congr fun a mem => ?_
    cases held : p a with
    | false => rfl
    | true => rw [narrower a mem held, Bool.and_self]
  rw [nested, List.length_filter_eq_length_iff]
  simp only [List.mem_filter, and_imp]

theorem length_eq_iff_subset {α : Type} {few many : List α} (fewOnce : few.Nodup) (manyOnce : many.Nodup)
    (within : few ⊆ many) : many.length = few.length ↔ many ⊆ few := by
  have shorter := List.subperm_of_subset fewOnce within
  constructor
  · intro same
    exact (shorter.perm_of_length_le same.le).symm.subset
  · intro all
    exact (shorter.antisymm (List.subperm_of_subset manyOnce all)).length_eq.symm

theorem inboxEntry_eq_some {root : MessageRow} {e : ThreadInboxEntry} (listed : db.inboxEntry reads userId root =
    some e) :
    root.isDeleted = false ∧ db.isMember root.conversationId userId = true ∧ e.threadRootId = root.id ∧
      e.replyCount = (db.repliesOf root.id).length ∧
      e.unreadCount = ((db.repliesOf root.id).filter (reads.isUnread userId root.id)).length := by
  unfold inboxEntry at listed
  split at listed
  case isFalse => cases listed
  case isTrue visible =>
    obtain ⟨latest, -, rfl⟩ := Option.map_eq_some_iff.mp listed
    exact ⟨visible.1, visible.2, rfl, rfl, rfl⟩

theorem exists_inboxEntry {root : MessageRow} (live : root.isDeleted = false)
    (member : db.isMember root.conversationId userId = true) (replied : db.repliesOf root.id ≠ []) :
    ∃ e, db.inboxEntry reads userId root = some e := by
  have filled : newestFirst MessageRow.createdAt (db.repliesOf root.id) ≠ [] := by
    intro empty
    have same := newestFirst_perm MessageRow.createdAt (db.repliesOf root.id)
    rw [empty] at same
    exact replied same.nil_eq.symm
  rw [inboxEntry, if_pos ⟨live, member⟩, latestMsg, List.head?_eq_some_head filled]
  exact ⟨_, rfl⟩

theorem mem_threadsInbox {e : ThreadInboxEntry} :
    e ∈ db.threadsInbox reads userId ↔ ∃ root ∈ db.messages, db.inboxEntry reads userId root = some e := by
  rw [threadsInbox, (newestFirst_perm _ _).mem_iff, List.mem_filterMap]

theorem threadsInbox_once (keyed : (db.messages.map MessageRow.id).Nodup) :
    ((db.threadsInbox reads userId).map ThreadInboxEntry.threadRootId).Nodup := by
  have same : ((db.threadsInbox reads userId).map ThreadInboxEntry.threadRootId).Perm
      ((db.messages.filterMap (db.inboxEntry reads userId)).map ThreadInboxEntry.threadRootId) :=
    (newestFirst_perm _ _).map _
  refine same.nodup_iff.mpr (keyed.sublist ?_)
  induction db.messages with
  | nil => exact List.Sublist.slnil
  | cons m rows ih =>
    simp only [List.filterMap_cons, List.map_cons]
    cases listed : db.inboxEntry reads userId m with
    | none => exact ih.cons m.id
    | some e =>
      obtain ⟨-, -, isId, -⟩ := inboxEntry_eq_some listed
      simp only [List.map_cons, isId]
      exact ih.cons_cons m.id

def inboxReplyCount (db : Database) (reads : ThreadReads) (userId id : Uuid) : Nat :=
  (((db.threadsInbox reads userId).find? fun e => e.threadRootId = id).map ThreadInboxEntry.replyCount).getD 0

theorem Flat.inboxReplyCount_eq (flat : db.Flat) {m : MessageRow} (mem : m ∈ db.messages) (live : m.isDeleted = false)
    (member : db.isMember m.conversationId userId = true) :
    db.inboxReplyCount reads userId m.id = (db.repliesOf m.id).length := by
  cases found : (db.threadsInbox reads userId).find? fun e => e.threadRootId = m.id with
  | none =>
    rw [inboxReplyCount, found]
    by_contra replied
    have some_reply : db.repliesOf m.id ≠ [] := fun empty => replied (by rw [empty]; rfl)
    obtain ⟨e, listed⟩ : ∃ e, db.inboxEntry reads userId m = some e := exists_inboxEntry live member some_reply
    have missing := List.find?_eq_none.mp found e (mem_threadsInbox.mpr ⟨m, mem, listed⟩)
    simp [(inboxEntry_eq_some listed).2.2.1] at missing
  | some e =>
    obtain ⟨root, memRoot, listed⟩ := mem_threadsInbox.mp (List.mem_of_find?_eq_some found)
    obtain ⟨-, -, isId, counted, -⟩ := inboxEntry_eq_some listed
    have named := List.find?_some found
    simp only [decide_eq_true_eq] at named
    rw [inboxReplyCount, found, flat.unique mem memRoot (named.symm.trans isId)]
    exact counted

/-- What either reference of a reply to the message must be for the other. -/
def OneWay (m x : MessageRow) : Prop :=
  (x.threadRootId = some m.id → x.replyToId = some m.id) ∧
    (x.replyToId = some m.id → x.threadRootId = none ∨ x.threadRootId = some m.id)

theorem rootId_eq_some {m x : MessageRow} (oneWay : OneWay m x) :
    x.rootId = some m.id ↔ x.replyToId = some m.id := by
  constructor
  · intro root
    exact (rootId_named root).elim oneWay.1 id
  · intro reply
    rcases oneWay.2 reply with free | anchored
    · rw [MessageRow.rootId, free, Option.none_or, reply]
    · rw [MessageRow.rootId, anchored, Option.some_or]

variable {m : MessageRow}

theorem paged_iff {n : Nat} : (∀ pageSize, 0 < pageSize →
      (db.allThreadReplies m.id m.conversationId pageSize).length = n) ↔
    (db.messages.filter (inThread m.id m.conversationId)).length = n ∧
      ((db.messages.filter (inThread m.id m.conversationId)).map MessageRow.createdAt).Nodup := by
  constructor
  · intro paged
    have whole := paged (db.messages.length + 1) (Nat.succ_pos _)
    rw [length_allThreadReplies_whole] at whole
    refine ⟨whole, @distinct_of_pages_one _ _ _ _ _ (db.messages.length + 1) ?_⟩
    have single := paged 1 Nat.one_pos
    rw [allThreadReplies_eq, List.length_map] at single
    exact single.trans whole.symm
  · rintro ⟨whole, distinct⟩ pageSize positive
    exact (length_allThreadReplies positive distinct).trans whole

theorem Flat.thread_eq (flat : db.Flat) (referenced : db.Referenced) (mem : m ∈ db.messages) :
    db.messages.filter (inThread m.id m.conversationId) = db.messages.filter fun x =>
      (x.threadRootId = some m.id ∨ x.replyToId = some m.id) ∧ x.isDeleted = false :=
  List.filter_congr fun x memReply => by
    rw [Bool.eq_iff_iff, flat.inThread_iff referenced mem memReply, decide_eq_true_eq]

theorem Flat.thread_eq_repliesTo (flat : db.Flat) (referenced : db.Referenced) (mem : m ∈ db.messages)
    (oneWay : ∀ x ∈ db.messages, x.isDeleted = false → OneWay m x) :
    db.messages.filter (inThread m.id m.conversationId) = db.repliesTo m.id := by
  rw [flat.thread_eq referenced mem, repliesTo]
  refine List.filter_congr fun x memReply => decide_eq_decide.mpr (and_congr_left fun live => ?_)
  exact or_iff_right_of_imp (oneWay x memReply live).1

theorem Flat.counts_iff (flat : db.Flat) (referenced : db.Referenced) (mem : m ∈ db.messages) :
    ((db.messages.filter (inThread m.id m.conversationId)).length = db.replyCount m.id ∧
      (db.repliesOf m.id).length = db.replyCount m.id) ↔
    ∀ x ∈ db.messages, x.isDeleted = false → OneWay m x := by
  rw [flat.thread_eq referenced mem]
  have fewer : (db.messages.filter fun x => (x.threadRootId = some m.id ∨ x.replyToId = some m.id) ∧
      x.isDeleted = false).length = db.replyCount m.id ↔ ∀ x ∈ db.messages, x.isDeleted = false →
        x.threadRootId = some m.id → x.replyToId = some m.id := by
    rw [eq_comm, replyCount, repliesTo, length_filter_eq_iff]
    · simp only [decide_eq_true_eq]
      refine forall₂_congr fun x _ => ?_
      tauto
    · simp only [decide_eq_true_eq]
      exact fun x _ held => ⟨Or.inr held.1, held.2⟩
  constructor
  · rintro ⟨thread, inbox⟩ x memReply live
    refine ⟨fewer.mp thread x memReply live, fun reply => ?_⟩
    have rooted : ∀ x ∈ db.messages, ((x.threadRootId = some m.id ∨ x.replyToId = some m.id) ∧
        x.isDeleted = false) → x.rootId = some m.id ∧ x.isDeleted = false := by
      have same := inbox.trans thread.symm
      rw [repliesOf, length_filter_eq_iff] at same
      · simpa only [decide_eq_true_eq] using same
      · simp only [decide_eq_true_eq]
        exact fun x _ held => ⟨rootId_named held.1, held.2⟩
    have root := (rooted x memReply ⟨Or.inr reply, live⟩).1
    rcases Option.or_eq_some_iff.mp root with anchored | ⟨free, -⟩
    · exact Or.inr anchored
    · exact Or.inl free
  · intro oneWay
    refine ⟨fewer.mpr fun x memReply live => (oneWay x memReply live).1, ?_⟩
    rw [replyCount, repliesOf, repliesTo]
    refine congrArg List.length (List.filter_congr fun x memReply => ?_)
    refine decide_eq_decide.mpr (and_congr_left fun live => rootId_eq_some (oneWay x memReply live))

end Counts

section Unread
variable {reads : ThreadReads} {userId : Uuid}

theorem mem_unreadRoots {id : Uuid} :
    id ∈ db.unreadRoots reads userId ↔ ∃ x ∈ db.messages, x.isDeleted = false ∧
      db.isMember x.conversationId userId = true ∧ x.rootId = some id ∧ reads.isUnread userId id x = true := by
  rw [unreadRoots, List.mem_filterMap]
  refine exists_congr fun x => and_congr_right fun _ => ?_
  rw [Option.filter_eq_some_iff, decide_eq_true_eq]
  tauto

def listedUnread (db : Database) (reads : ThreadReads) (userId : Uuid) : List Uuid :=
  ((db.threadsInbox reads userId).filter fun e => 0 < e.unreadCount).map ThreadInboxEntry.threadRootId

theorem mem_listedUnread {id : Uuid} :
    id ∈ db.listedUnread reads userId ↔ ∃ root ∈ db.messages, root.id = id ∧ root.isDeleted = false ∧
      db.isMember root.conversationId userId = true ∧
      ∃ x ∈ db.messages, x.isDeleted = false ∧ x.rootId = some id ∧ reads.isUnread userId id x = true := by
  simp only [listedUnread, List.mem_map, List.mem_filter, mem_threadsInbox, decide_eq_true_eq]
  constructor
  · rintro ⟨e, ⟨⟨root, mem, listed⟩, unread⟩, rfl⟩
    obtain ⟨live, member, isId, -, counted⟩ := inboxEntry_eq_some listed
    rw [counted] at unread
    obtain ⟨x, found⟩ := List.exists_mem_of_length_pos unread
    obtain ⟨replies, late⟩ := List.mem_filter.mp found
    obtain ⟨memReply, held⟩ := List.mem_filter.mp replies
    simp only [decide_eq_true_eq] at held
    rw [isId]
    exact ⟨root, mem, rfl, live, member, x, memReply, held.2, held.1, late⟩
  · rintro ⟨root, mem, rfl, live, member, x, memReply, liveReply, isRoot, late⟩
    have replies : x ∈ db.repliesOf root.id := List.mem_filter.mpr ⟨memReply, decide_eq_true ⟨isRoot, liveReply⟩⟩
    obtain ⟨e, listed⟩ : ∃ e, db.inboxEntry reads userId root = some e :=
      exists_inboxEntry live member (List.ne_nil_of_mem replies)
    obtain ⟨-, -, isId, -, counted⟩ := inboxEntry_eq_some listed
    refine ⟨e, ⟨⟨root, mem, listed⟩, ?_⟩, isId⟩
    rw [counted]
    exact List.length_pos_of_mem (List.mem_filter.mpr ⟨replies, late⟩)

theorem Flat.unread_iff (flat : db.Flat) (referenced : db.Referenced) :
    db.unreadThreadCount reads userId = ((db.threadsInbox reads userId).filter fun e => 0 < e.unreadCount).length ↔
    ∀ x ∈ db.messages, x.isDeleted = false → db.isMember x.conversationId userId = true →
      ∀ root ∈ db.messages, x.rootId = some root.id → reads.isUnread userId root.id x = true →
        root.isDeleted = false := by
  have counted : ((db.threadsInbox reads userId).filter fun e => 0 < e.unreadCount).length =
      (db.listedUnread reads userId).length := (List.length_map _).symm
  have once : (db.listedUnread reads userId).Nodup :=
    (threadsInbox_once flat.keyed).sublist (List.filter_sublist.map _)
  rw [counted, unreadThreadCount, length_eq_iff_subset once (List.nodup_dedup _)]
  · constructor
    · intro all x mem live member root memRoot isRoot late
      have unread := List.mem_dedup.mpr (mem_unreadRoots.mpr ⟨x, mem, live, member, isRoot, late⟩)
      obtain ⟨r, memR, same, liveRoot, -⟩ := mem_listedUnread.mp (all unread)
      rwa [← flat.unique memR memRoot same]
    · intro live id unread
      obtain ⟨x, mem, liveReply, member, isRoot, late⟩ := mem_unreadRoots.mp (List.mem_dedup.mp unread)
      obtain ⟨root, memRoot, rfl, inside⟩ := flat.home referenced mem (rootId_named isRoot)
      refine mem_listedUnread.mpr ⟨root, memRoot, rfl, live x mem liveReply member root memRoot isRoot late,
        inside ▸ member, x, mem, liveReply, isRoot, late⟩
  · intro id listed
    obtain ⟨root, memRoot, rfl, -, member, x, mem, live, isRoot, late⟩ := mem_listedUnread.mp listed
    obtain ⟨r, memR, same, inside⟩ := flat.home referenced mem (rootId_named isRoot)
    rw [flat.unique memR memRoot same] at inside
    exact List.mem_dedup.mpr (mem_unreadRoots.mpr ⟨x, mem, live, inside ▸ member, isRoot, late⟩)

end Unread

section Agreement

/-- The history, the thread page by page, the inbox and the badge of a user. -/
structure ViewsAgree (db : Database) (reads : ThreadReads) (userId : Uuid) : Prop where
  counts : ∀ conversationId, db.isMember conversationId userId = true →
    ∀ channelId before limit deviceId, ∀ row ∈ db.getMessages conversationId channelId before limit userId deviceId,
      (∀ pageSize, 0 < pageSize →
        (db.allThreadReplies row.id row.conversationId pageSize).length = row.replyCount) ∧
      db.inboxReplyCount reads userId row.id = row.replyCount
  unread : db.unreadThreadCount reads userId =
    ((db.threadsInbox reads userId).filter fun e => 0 < e.unreadCount).length

def IsShown (db : Database) (userId : Uuid) (m : MessageRow) : Prop :=
  m ∈ db.messages ∧ m.isDeleted = false ∧ m.threadRootId = none ∧ db.isMember m.conversationId userId = true

structure Plain (db : Database) (reads : ThreadReads) (userId : Uuid) : Prop where
  oneWay : ∀ m, db.IsShown userId m → ∀ x ∈ db.messages, x.isDeleted = false → OneWay m x
  apart : ∀ m, db.IsShown userId m → ((db.repliesTo m.id).map MessageRow.createdAt).Nodup
  live : ∀ x ∈ db.messages, x.isDeleted = false → db.isMember x.conversationId userId = true →
    ∀ root ∈ db.messages, x.rootId = some root.id → reads.isUnread userId root.id x = true → root.isDeleted = false

variable {reads : ThreadReads} {userId : Uuid}

theorem mem_getMessages {conversationId : Uuid} {channelId : Option Uuid} {before : Option Nat} {limit : Nat}
    {deviceId : Option Int} {row : HistoryRow} (member : db.isMember conversationId userId = true)
    (mem : row ∈ db.getMessages conversationId channelId before limit userId deviceId) :
    ∃ m, db.IsShown userId m ∧ row.id = m.id ∧ row.conversationId = m.conversationId ∧
      row.replyCount = db.replyCount m.id := by
  obtain ⟨m, found, rfl⟩ := List.mem_map.mp mem
  obtain ⟨onTime, -⟩ := mem_page found
  obtain ⟨inside, held⟩ := List.mem_filter.mp onTime
  simp only [onTimeline, decide_eq_true_eq] at held
  obtain ⟨here, -, live, main⟩ := held
  exact ⟨m, ⟨inside, live, main, here ▸ member⟩, rfl, rfl, rfl⟩

theorem IsShown.read {m : MessageRow} (shown : db.IsShown userId m) :
    db.messageView userId none m ∈
      db.getMessages m.conversationId none none db.messages.length userId none := by
  obtain ⟨mem, live, main, -⟩ := shown
  refine List.mem_map_of_mem ?_
  have short := List.length_filter_le (onTimeline m.conversationId none) db.messages
  rw [page, filter_isBefore_none, List.take_of_length_le, (newestFirst_perm _ _).mem_iff]
  · exact List.mem_filter.mpr ⟨mem, by simp [onTimeline, live, main]⟩
  · rwa [(newestFirst_perm _ _).length_eq]

theorem Flat.viewsAgree_iff (flat : db.Flat) (referenced : db.Referenced) :
    db.ViewsAgree reads userId ↔ db.Plain reads userId := by
  have unread := @Flat.unread_iff db reads userId flat referenced
  constructor
  · intro agree
    have each : ∀ m, db.IsShown userId m → (∀ x ∈ db.messages, x.isDeleted = false → OneWay m x) ∧
        ((db.messages.filter (inThread m.id m.conversationId)).map MessageRow.createdAt).Nodup := by
      intro m shown
      obtain ⟨paged, inbox⟩ := agree.counts m.conversationId shown.2.2.2 none none db.messages.length none _ shown.read
      obtain ⟨whole, distinct⟩ := paged_iff.mp paged
      have entry : db.inboxReplyCount reads userId m.id = (db.repliesOf m.id).length :=
        flat.inboxReplyCount_eq shown.1 shown.2.1 shown.2.2.2
      exact ⟨(flat.counts_iff referenced shown.1).mp ⟨whole, entry.symm.trans inbox⟩, distinct⟩
    refine ⟨fun m shown => (each m shown).1, fun m shown => ?_, unread.mp agree.unread⟩
    rw [← (flat.thread_eq_repliesTo referenced shown.1 (each m shown).1)]
    exact (each m shown).2
  · intro plain
    refine ⟨?_, unread.mpr plain.live⟩
    intro conversationId member channelId before limit deviceId row mem
    obtain ⟨m, shown, isId, inside, counted⟩ := mem_getMessages member mem
    rw [isId, inside, counted, flat.inboxReplyCount_eq shown.1 shown.2.1 shown.2.2.2]
    obtain ⟨whole, inbox⟩ := (flat.counts_iff referenced shown.1).mpr (plain.oneWay m shown)
    refine ⟨paged_iff.mpr ⟨whole, ?_⟩, inbox⟩
    rw [flat.thread_eq_repliesTo referenced shown.1 (plain.oneWay m shown)]
    exact plain.apart m shown

/-- After every run of the statements, exactly where a reply of a message shown names it by `reply_to_id` and is in
no other thread, no two of its replies have one time, and the root of what is unread is not deleted. -/
theorem thread_views_agree_iff (unthreaded : db.Unthreaded) (referenced : db.Referenced) (statements : List Statement)
    (reads : ThreadReads) (userId : Uuid) :
    (db.run statements).ViewsAgree reads userId ↔ (db.run statements).Plain reads userId :=
  (run_flat unthreaded statements).viewsAgree_iff (run_referenced referenced statements)

instance (m x : MessageRow) : Decidable (OneWay m x) := inferInstanceAs (Decidable (_ ∧ _))

def answered : List Statement :=
  [.change (.addMember 7 10) 1, .store ⟨7, none, 11, some 1, "answer", some 1, none, none, some 1⟩ 2 2]

def answeredTwice : List Statement :=
  answered ++ [.store ⟨7, none, 10, some 1, "reply", some 2, none, none, some 1⟩ 3 3]

theorem thread_views_agree_answered : (opened.run answered).ViewsAgree (fun _ _ => none) 10 := by
  have referenced : opened.Referenced := by
    intro m mem id replies
    cases List.mem_singleton.mp mem
    cases replies
  refine (thread_views_agree_iff ⟨by decide, by decide⟩ referenced answered _ 10).mpr ⟨?_, ?_, ?_⟩
  · have all : ∀ m ∈ (opened.run answered).messages, ∀ x ∈ (opened.run answered).messages,
        x.isDeleted = false → OneWay m x := by decide
    exact fun m shown => all m shown.1
  · have all : ∀ m ∈ (opened.run answered).messages,
        (((opened.run answered).repliesTo m.id).map MessageRow.createdAt).Nodup := by decide
    exact fun m shown => all m shown.1
  · have all : ∀ m ∈ (opened.run answered).messages, m.isDeleted = false := by decide
    exact fun _ _ _ _ root mem _ _ => all root mem

/-- The history counts one reply of message 1, the inbox two. -/
theorem nested_reply_uncounted : ¬ (opened.run answeredTwice).ViewsAgree (fun _ _ => none) 10 := by
  intro agree
  have shown : (opened.run answeredTwice).IsShown 10 ⟨1, 7, none, 10, some 1, "topic", 0, none, none, none, false⟩ := by
    unfold IsShown
    decide
  have same := (agree.counts 7 shown.2.2.2 none none _ none _ shown.read).2
  exact absurd same (by decide)

end Agreement
end Database
end Echo.Server
