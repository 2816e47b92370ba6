import Echo.Server.Hub
import Mathlib.Data.List.Sort

/-! Read marks: `mark_read` of `routes/reactions.rs`, `handle_read_receipt` of `typing_service.rs`
and the counts of `list_conversations`. One stored moment serves the user's own counts and what
the others are told. -/
namespace Echo.Server

namespace ReadMarks

structure Message where
  id : Uuid
  conversationId : Uuid
  channelId : Option Uuid
  senderId : Uuid
  createdAt : Nat
  isDeleted : Bool
  /-- The users of its rows in `mentions`. -/
  mentions : List Uuid
  deriving DecidableEq

/-- The tables, and what was sent to other members: recipients, conversation and reader. -/
structure Tables where
  conversations : List Uuid
  isMember : Uuid → Uuid → Bool
  /-- `users.read_receipts_enabled`. -/
  readReceiptsEnabled : Uuid → Option Bool
  /-- In the order in which they were stored. -/
  messages : List Message
  deletedChannels : List Uuid
  /-- `last_read_at` by conversation and user. -/
  readReceipts : Uuid → Uuid → Option Nat
  now : Nat
  told : List (List Uuid × Uuid × Uuid)

structure Row where
  conversationId : Uuid
  unreadCount : Nat
  mentionCount : Nat
  deriving DecidableEq

namespace Tables
variable (t : Tables)

/-- The filter of `unread_cte`. -/
def isUnread (userId conversationId : Uuid) (m : Message) : Bool :=
  m.conversationId = conversationId && m.senderId ≠ userId && !m.isDeleted &&
    m.channelId.all (· ∉ t.deletedChannels) && (t.readReceipts conversationId userId).getD 0 < m.createdAt

/-- The filter of `mention_cte`. -/
def isMention (userId conversationId : Uuid) (m : Message) : Bool :=
  m.mentions.contains userId && t.isUnread userId conversationId m

def lastMessageAt (conversationId : Uuid) : Option Nat :=
  ((t.messages.filter fun m => m.conversationId = conversationId && !m.isDeleted).map Message.createdAt).max?

def row (userId conversationId : Uuid) : Row where
  conversationId := conversationId
  unreadCount := (t.messages.filter (t.isUnread userId conversationId)).length
  mentionCount := (t.messages.filter (t.isMention userId conversationId)).length

/-- `ORDER BY … DESC NULLS LAST LIMIT 50`. -/
def listConversations (userId : Uuid) : List Row :=
  let mine := t.conversations.filter fun c => t.isMember c userId
  let sorted := mine.insertionSort fun c d => (t.lastMessageAt d).getD 0 ≤ (t.lastMessageAt c).getD 0
  (sorted.take 50).map (t.row userId)

/-- The upsert of `db::reactions::mark_read`. -/
def markRead (conversationId userId : Uuid) : Tables :=
  let mine := Function.update (t.readReceipts conversationId) userId (some t.now)
  { t with readReceipts := Function.update t.readReceipts conversationId mine }

end Tables

inductive MarkReadAnswer where
  | read
  | ignored (reason : String)
  | unauthorized (message : String)
  | notFound (message : String)
  | databaseError
  deriving DecidableEq

/-- `POST /api/conversations/:id/read`; `fails` when the upsert does. -/
def markRead (userId conversationId : Uuid) (fails : Bool) (t : Tables) : MarkReadAnswer × Tables :=
  if !t.isMember conversationId userId then (.unauthorized "Not a member of this conversation", t)
  else
    match t.readReceiptsEnabled userId with
    | none => (.notFound "User not found", t)
    | some false => (.ignored "read_receipts_disabled", t)
    | some true => if fails then (.databaseError, t) else (.read, t.markRead conversationId userId)

/-- The membership is the cached one, and so are the members told; the upsert's error is dropped. -/
def handleReadReceipt (senderId conversationId : Uuid) (isMemberCached fails : Bool) (memberIds : List Uuid)
    (t : Tables) : Tables :=
  if !isMemberCached then t
  else if t.readReceiptsEnabled senderId ≠ some true then t
  else
    let marked := if fails then t else t.markRead conversationId senderId
    { marked with told := (memberIds.filter (· ≠ senderId), conversationId, senderId) :: marked.told }

inductive Event where
  | post (id conversationId : Uuid) (channelId : Option Uuid) (senderId : Uuid) (mentions : List Uuid)
  | deleteMessage (id : Uuid)
  | deleteChannel (channelId : Uuid)
  | setMember (conversationId userId : Uuid) (active : Bool)
  | setReadReceipts (userId : Uuid) (enabled : Bool)
  | clock (elapsed : Nat)
  | markRead (userId conversationId : Uuid) (fails : Bool)
  | readReceipt (senderId conversationId : Uuid) (isMemberCached fails : Bool) (memberIds : List Uuid)

def Tables.step (t : Tables) : Event → Tables
  | .post id conversationId channelId senderId mentions =>
    { t with messages := t.messages ++ [⟨id, conversationId, channelId, senderId, t.now, false, mentions⟩] }
  | .deleteMessage id =>
    { t with messages := t.messages.map fun m => if m.id = id then { m with isDeleted := true } else m }
  | .deleteChannel channelId => { t with deletedChannels := channelId :: t.deletedChannels }
  | .setMember conversationId userId active =>
    let members := Function.update (t.isMember conversationId) userId active
    { t with isMember := Function.update t.isMember conversationId members }
  | .setReadReceipts userId enabled =>
    { t with readReceiptsEnabled := Function.update t.readReceiptsEnabled userId (some enabled) }
  | .clock elapsed => { t with now := t.now + elapsed }
  | .markRead userId conversationId fails => (ReadMarks.markRead userId conversationId fails t).2
  | .readReceipt senderId conversationId isMemberCached fails memberIds =>
    handleReadReceipt senderId conversationId isMemberCached fails memberIds t

def Tables.run (t : Tables) (events : List Event) : Tables := events.foldl Tables.step t

/-- `_markAsRead` of the chat panel with `sendReadReceipt` of both providers: what reaches the server
of it when nothing is lost. -/
def reads (readReceiptsEnabled : Bool) (userId conversationId : Uuid) (isMemberCached : Bool)
    (memberIds : List Uuid) : List Event :=
  if readReceiptsEnabled then
    [.markRead userId conversationId false, .readReceipt userId conversationId isMemberCached false memberIds]
  else []

def Marks (t : Tables) (userId conversationId : Uuid) : Event → Prop
  | .markRead u c fails => u = userId ∧ c = conversationId ∧ fails = false ∧ t.isMember c u = true ∧
      t.readReceiptsEnabled u = some true
  | .readReceipt u c isMemberCached fails _ => u = userId ∧ c = conversationId ∧ fails = false ∧
      isMemberCached = true ∧ t.readReceiptsEnabled u = some true
  | _ => False

def Tables.new (conversations : List Uuid) (isMember : Uuid → Uuid → Bool)
    (readReceiptsEnabled : Uuid → Option Bool) : Tables where
  conversations := conversations
  isMember := isMember
  readReceiptsEnabled := readReceiptsEnabled
  messages := []
  deletedChannels := []
  readReceipts _ _ := none
  now := 1
  told := []

section Runs
variable {t : Tables} {u c : Uuid} {n : Nat}

structure Timed (t : Tables) : Prop where
  messages : ∀ m ∈ t.messages, m.createdAt ≤ t.now
  readReceipts : ∀ c u at', t.readReceipts c u = some at' → at' ≤ t.now

/-- The first so many messages were there when the user last read the conversation. -/
structure Behind (u c : Uuid) (n : Nat) (t : Tables) : Prop where
  enough : n ≤ t.messages.length
  seen : ∀ m ∈ t.messages.take n, m.createdAt ≤ (t.readReceipts c u).getD 0

theorem markRead_timed (timed : Timed t) (c u : Uuid) : Timed (t.markRead c u) where
  messages := timed.messages
  readReceipts d v at' marked := by
    simp only [Tables.markRead, Function.update_apply] at marked
    split at marked
    · rw [Function.update_apply] at marked
      split at marked
      · exact Nat.le_of_eq (Option.some.inj marked).symm
      · exact timed.readReceipts c v at' marked
    · exact timed.readReceipts d v at' marked

theorem markRead_behind (timed : Timed t) (behind : Behind u c n t) (d v : Uuid) :
    Behind u c n (t.markRead d v) where
  enough := behind.enough
  seen m inside := by
    have before := behind.seen m inside
    have present := timed.messages m (List.mem_of_mem_take inside)
    simp only [Tables.markRead, Function.update_apply]
    split
    · next same =>
      subst same
      rw [Function.update_apply]
      split
      · exact present
      · exact before
    · exact before

theorem step_read_cases (e : Event) (isRead : (∃ u c f, e = .markRead u c f) ∨ ∃ u c b f l, e = .readReceipt u c b f l) :
    ∃ told, t.step e = { t with told } ∨ ∃ d v, t.step e = { t.markRead d v with told } := by
  rcases isRead with ⟨u, c, f, rfl⟩ | ⟨u, c, b, f, l, rfl⟩
  · refine ⟨t.told, ?_⟩
    simp only [Tables.step, markRead]
    split
    · exact .inl rfl
    · split
      · exact .inl rfl
      · exact .inl rfl
      · split
        · exact .inl rfl
        · exact .inr ⟨c, u, rfl⟩
  · simp only [Tables.step, handleReadReceipt]
    split
    · exact ⟨t.told, .inl rfl⟩
    · split
      · exact ⟨t.told, .inl rfl⟩
      · cases f with
        | true => exact ⟨_, .inl rfl⟩
        | false => exact ⟨_, .inr ⟨c, u, rfl⟩⟩

theorem step_timed (timed : Timed t) (e : Event) : Timed (t.step e) := by
  cases e with
  | post id conversationId channelId senderId mentions =>
    refine ⟨fun m inside => ?_, timed.readReceipts⟩
    rcases List.mem_append.mp inside with old | new
    · exact timed.messages m old
    · rw [List.mem_singleton.mp new]
      exact Nat.le_refl _
  | deleteMessage id =>
    refine ⟨fun m inside => ?_, timed.readReceipts⟩
    obtain ⟨before, there, rfl⟩ := List.mem_map.mp inside
    have present := timed.messages before there
    split
    · exact present
    · exact present
  | deleteChannel | setMember | setReadReceipts => exact ⟨timed.messages, timed.readReceipts⟩
  | clock elapsed =>
    exact ⟨fun m inside => (timed.messages m inside).trans (Nat.le_add_right _ _),
      fun c u at' marked => (timed.readReceipts c u at' marked).trans (Nat.le_add_right _ _)⟩
  | markRead userId conversationId fails =>
    obtain ⟨told, same | ⟨d, v, same⟩⟩ := step_read_cases (t := t) (.markRead userId conversationId fails)
      (.inl ⟨_, _, _, rfl⟩)
    · rw [same]
      exact ⟨timed.messages, timed.readReceipts⟩
    · rw [same]
      exact ⟨timed.messages, (markRead_timed timed d v).readReceipts⟩
  | readReceipt senderId conversationId isMemberCached fails memberIds =>
    obtain ⟨told, same | ⟨d, v, same⟩⟩ := step_read_cases (t := t)
      (.readReceipt senderId conversationId isMemberCached fails memberIds) (.inr ⟨_, _, _, _, _, rfl⟩)
    · rw [same]
      exact ⟨timed.messages, timed.readReceipts⟩
    · rw [same]
      exact ⟨timed.messages, (markRead_timed timed d v).readReceipts⟩

theorem step_behind (timed : Timed t) (behind : Behind u c n t) (e : Event) : Behind u c n (t.step e) := by
  cases e with
  | post id conversationId channelId senderId mentions =>
    refine ⟨?_, fun m inside => ?_⟩
    · simp only [Tables.step, List.length_append]
      exact behind.enough.trans (Nat.le_add_right _ _)
    · simp only [Tables.step, List.take_append_of_le_length behind.enough] at inside
      exact behind.seen m inside
  | deleteMessage id =>
    refine ⟨?_, fun m inside => ?_⟩
    · simp only [Tables.step, List.length_map]
      exact behind.enough
    · simp only [Tables.step, ← List.map_take] at inside
      obtain ⟨before, there, rfl⟩ := List.mem_map.mp inside
      have present := behind.seen before there
      split
      · exact present
      · exact present
  | deleteChannel | setMember | setReadReceipts | clock => exact ⟨behind.enough, behind.seen⟩
  | markRead userId conversationId fails =>
    obtain ⟨told, same | ⟨d, v, same⟩⟩ := step_read_cases (t := t) (.markRead userId conversationId fails)
      (.inl ⟨_, _, _, rfl⟩)
    · rw [same]
      exact ⟨behind.enough, behind.seen⟩
    · rw [same]
      exact ⟨behind.enough, (markRead_behind timed behind d v).seen⟩
  | readReceipt senderId conversationId isMemberCached fails memberIds =>
    obtain ⟨told, same | ⟨d, v, same⟩⟩ := step_read_cases (t := t)
      (.readReceipt senderId conversationId isMemberCached fails memberIds) (.inr ⟨_, _, _, _, _, rfl⟩)
    · rw [same]
      exact ⟨behind.enough, behind.seen⟩
    · rw [same]
      exact ⟨behind.enough, (markRead_behind timed behind d v).seen⟩

theorem marks_behind (timed : Timed t) {e : Event} (marks : Marks t u c e) :
    Behind u c t.messages.length (t.step e) ∧ (t.step e).messages = t.messages := by
  have marked : ∀ told, Behind u c t.messages.length { t.markRead c u with told } := by
    intro told
    refine ⟨Nat.le_refl _, fun m inside => ?_⟩
    have present := timed.messages m (List.mem_of_mem_take inside)
    simpa [Tables.markRead] using present
  cases e with
  | markRead v d fails =>
    obtain ⟨rfl, rfl, rfl, member, enabled⟩ := marks
    have stepped : t.step (.markRead v d false) = { t.markRead d v with told := t.told } := by
      simp [Tables.step, markRead, member, enabled, Tables.markRead]
    rw [stepped]
    exact ⟨marked _, rfl⟩
  | readReceipt v d isMemberCached fails memberIds =>
    obtain ⟨rfl, rfl, rfl, rfl, enabled⟩ := marks
    have stepped : t.step (.readReceipt v d true false memberIds) = { t.markRead d v with
        told := (memberIds.filter (· ≠ v), d, v) :: t.told } := by
      simp [Tables.step, handleReadReceipt, enabled, Tables.markRead]
    rw [stepped]
    exact ⟨marked _, rfl⟩
  | _ => exact marks.elim

theorem run_timed (timed : Timed t) (events : List Event) : Timed (t.run events) := by
  induction events generalizing t with
  | nil => exact timed
  | cons e events ih => exact ih (step_timed timed e)

theorem run_behind (timed : Timed t) (behind : Behind u c n t) (events : List Event) :
    Behind u c n (t.run events) := by
  induction events generalizing t with
  | nil => exact behind
  | cons e events ih => exact ih (step_timed timed e) (step_behind timed behind e)

theorem Behind.row (behind : Behind u c n t) :
    t.row u c = ⟨c, ((t.messages.drop n).filter (t.isUnread u c)).length,
      ((t.messages.drop n).filter (t.isMention u c)).length⟩ := by
  have read : ∀ m ∈ t.messages.take n, t.isUnread u c m = false := by
    intro m inside
    have late : ¬ (t.readReceipts c u).getD 0 < m.createdAt := Nat.not_lt.mpr (behind.seen m inside)
    rw [Tables.isUnread, decide_eq_false late, Bool.and_false]
  have cut : ∀ p : Message → Bool, (∀ m ∈ t.messages.take n, p m = false) →
      t.messages.filter p = (t.messages.drop n).filter p := by
    intro p none
    conv_lhs => rw [← List.take_append_drop n t.messages, List.filter_append]
    rw [List.filter_eq_nil_iff.mpr fun m inside => by rw [none m inside]; exact Bool.false_ne_true, List.nil_append]
  simp only [Tables.row]
  rw [cut _ read, cut _ fun m inside => by rw [Tables.isMention, read m inside, Bool.and_false]]

theorem mem_listConversations {row : Row} (listed : row ∈ t.listConversations u) :
    row = t.row u row.conversationId := by
  obtain ⟨c, -, rfl⟩ := List.mem_map.mp listed
  rfl

end Runs

theorem new_timed (conversations : List Uuid) (isMember : Uuid → Uuid → Bool)
    (readReceiptsEnabled : Uuid → Option Bool) : Timed (.new conversations isMember readReceiptsEnabled) :=
  ⟨nofun, nofun⟩

/-- After a read that is stored only later messages are counted; with read receipts disabled on either
side a read changes nothing on the server. -/
theorem read_counts (conversations : List Uuid) (isMember : Uuid → Uuid → Bool)
    (readReceiptsEnabled : Uuid → Option Bool) (before after : List Event) (u c : Uuid) :
    let t := (Tables.new conversations isMember readReceiptsEnabled).run before
    (∀ e, Marks t u c e → ∀ row ∈ ((t.step e).run after).listConversations u, row.conversationId = c →
      let later := ((t.step e).run after).messages.drop t.messages.length
      row.unreadCount = (later.filter (((t.step e).run after).isUnread u c)).length ∧
        row.mentionCount = (later.filter (((t.step e).run after).isMention u c)).length) ∧
    (∀ isMemberCached memberIds, reads false u c isMemberCached memberIds = []) ∧
    (t.readReceiptsEnabled u ≠ some true → ∀ enabled isMemberCached memberIds,
      t.run (reads enabled u c isMemberCached memberIds) = t) := by
  intro t
  have timed : Timed t := run_timed (new_timed ..) before
  refine ⟨fun e marks row listed here => ?_, fun _ _ => rfl, fun disabled enabled isMemberCached memberIds => ?_⟩
  · obtain ⟨behind, -⟩ := marks_behind timed marks
    have still := run_behind (step_timed timed e) behind after
    have counted := (mem_listConversations listed).trans ((congrArg _ here).trans still.row)
    rw [counted]
    exact ⟨rfl, rfl⟩
  · have quiet : (markRead u c false t).2 = t := by
      unfold markRead
      split
      · rfl
      · split
        · rfl
        · rfl
        · next on => exact (disabled on).elim
    have silent : handleReadReceipt u c isMemberCached false memberIds t = t := by
      unfold handleReadReceipt
      rw [if_pos disabled, ite_self]
    cases enabled with
    | false => rfl
    | true =>
      change handleReadReceipt u c isMemberCached false memberIds (markRead u c false t).2 = t
      rw [quiet]
      exact silent

def readOnce (enabled : Bool) : List Row :=
  ((Tables.new [1] (fun _ _ => true) fun _ => some enabled).run
    (.post 10 1 none 7 [8] :: (reads true 8 1 true [7, 8] ++ [.clock 1, .post 11 1 none 7 []]))).listConversations 8

example : readOnce true = [⟨1, 1, 0⟩] := by decide

theorem read_counts_once :
    let t := (Tables.new [1] (fun _ _ => true) fun _ => some true).run [.post 10 1 none 7 [8]]
    let s := (t.step (.markRead 8 1 false)).run [.clock 1, .post 11 1 none 7 []]
    ∀ row ∈ s.listConversations 8, row.conversationId = 1 →
      row.unreadCount = ((s.messages.drop t.messages.length).filter (s.isUnread 8 1)).length ∧
        row.mentionCount = ((s.messages.drop t.messages.length).filter (s.isMention 8 1)).length :=
  (read_counts [1] (fun _ _ => true) (fun _ => some true) [.post 10 1 none 7 [8]] [.clock 1, .post 11 1 none 7 []]
    8 1).1 (.markRead 8 1 false) ⟨rfl, rfl, rfl, rfl, rfl⟩

/-- With read receipts disabled the conversation that was read stays unread. -/
theorem read_stays_unread :
    let t := (Tables.new [1] (fun _ _ => true) fun _ => some false).run (.post 10 1 none 7 [8] :: reads true 8 1 true [7, 8])
    t.listConversations 8 = [⟨1, 1, 1⟩] ∧ t.messages.length = 1 := by decide

end ReadMarks
end Echo.Server
