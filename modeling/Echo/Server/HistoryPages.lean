import Echo.Lib.Ties
import Echo.Server.ThreadViews

/-! Whole histories and threads, read page by page from before the oldest row of the page before. -/
namespace Echo.Server
open Echo.Lib.Paging

namespace Database
variable (db : Database)

/-- What `get_messages` may answer to each cursor: the order of rows of one `created_at` is open. -/
def AnswersMessages (conversationId : Uuid) (channelId : Option Uuid) (limit : Nat) (userId : Uuid)
    (deviceId : Option Int) (answer : Option Nat → List HistoryRow) : Prop :=
  ∃ fetch, Answers MessageRow.createdAt (db.messages.filter (onTimeline conversationId channelId)) limit fetch ∧
    answer = fun before => (fetch before).map (db.messageView userId deviceId)

/-- What `get_thread_replies` may answer. -/
def AnswersThreadReplies (parentMessageId conversationId : Uuid) (limit : Nat)
    (answer : Option Nat → List HistoryRow) : Prop :=
  ∃ fetch, Answers MessageRow.createdAt (db.messages.filter (inThread parentMessageId conversationId)) limit fetch ∧
    answer = fun before => (fetch before).map db.replyView

def readAll (answer : Option Nat → List HistoryRow) : List HistoryRow :=
  pages (fun row => row.createdAt) answer (db.messages.length + 1) none

def Complete (rows : List MessageRow) (view : MessageRow → HistoryRow) (shown : List HistoryRow) : Prop :=
  shown.Perm (rows.map view) ∧ shown.Pairwise fun a b => b.createdAt ≤ a.createdAt

variable {db}

theorem getMessages_answers (conversationId : Uuid) (channelId : Option Uuid) (limit : Nat) (userId : Uuid)
    (deviceId : Option Int) : db.AnswersMessages conversationId channelId limit userId deviceId fun before =>
      db.getMessages conversationId channelId before limit userId deviceId :=
  ⟨_, page_answers _ limit, rfl⟩

theorem readAll_eq {view : MessageRow → HistoryRow} (dated : ∀ m, (view m).createdAt = m.createdAt)
    (fetch : Option Nat → List MessageRow) :
    db.readAll (fun before => (fetch before).map view) =
      (pages MessageRow.createdAt fetch (db.messages.length + 1) none).map view := by
  rw [readAll, pages_map]
  exact congrArg (fun key => (pages key fetch _ none).map view) (funext dated)

theorem complete_iff {filter : MessageRow → Bool} {limit : Nat} (positive : 1 ≤ limit)
    {view : MessageRow → HistoryRow} (dated : ∀ m, (view m).createdAt = m.createdAt)
    {fetch : Option Nat → List MessageRow} (answers : Answers MessageRow.createdAt (db.messages.filter filter) limit fetch) :
    Complete (db.messages.filter filter) view (db.readAll fun before => (fetch before).map view) ↔
      Untied MessageRow.createdAt (db.messages.filter filter) limit := by
  have enough : ((db.messages.filter filter).filter (isBefore MessageRow.createdAt none)).length <
      db.messages.length + 1 := by
    rw [filter_isBefore_none]
    exact Nat.lt_succ_of_le (List.length_filter_le _ _)
  have whole := pages_perm_iff answers positive enough
  have part : (pages MessageRow.createdAt fetch (db.messages.length + 1) none).Subperm _ := pages_subperm answers
  rw [filter_isBefore_none] at whole part
  have sorted : (db.readAll fun before => (fetch before).map view).Pairwise fun a b => b.createdAt ≤ a.createdAt := by
    rw [readAll_eq dated, List.pairwise_map]
    simpa only [dated] using pages_sorted answers
  rw [Complete, and_iff_left sorted, readAll_eq dated, ← whole]
  refine ⟨fun same => part.perm_of_length_le ?_, fun same => same.map view⟩
  have length := same.length_eq
  rw [List.length_map, List.length_map] at length
  exact length.ge

/-- For any limit and any order of equal times, a history and a thread are read whole exactly when no page ends
between two of their rows of one time. -/
theorem paged_reading_iff (db : Database) {limit : Nat} (positive : 1 ≤ limit) :
    (∀ conversationId channelId userId deviceId answer,
      db.AnswersMessages conversationId channelId limit userId deviceId answer →
        (Complete (db.messages.filter (onTimeline conversationId channelId)) (db.messageView userId deviceId)
            (db.readAll answer) ↔
          Untied MessageRow.createdAt (db.messages.filter (onTimeline conversationId channelId)) limit)) ∧
    ∀ parentMessageId conversationId answer,
      db.AnswersThreadReplies parentMessageId conversationId limit answer →
        (Complete (db.messages.filter (inThread parentMessageId conversationId)) db.replyView (db.readAll answer) ↔
          Untied MessageRow.createdAt (db.messages.filter (inThread parentMessageId conversationId)) limit) := by
  constructor
  · rintro conversationId channelId userId deviceId answer ⟨fetch, answers, rfl⟩
    exact complete_iff positive (fun _ => rfl) answers
  · rintro parentMessageId conversationId answer ⟨fetch, answers, rfl⟩
    exact complete_iff positive (fun _ => rfl) answers

def twins : Database :=
  { opened with messages := [⟨1, 7, none, 10, some 1, "first", 5, none, none, none, false⟩,
      ⟨2, 7, none, 10, some 1, "second", 5, none, none, none, false⟩] }

/-- One row a page, the second of them is never shown. -/
theorem twins_parted :
    ¬ Complete (twins.messages.filter (onTimeline 7 none)) (twins.messageView 10 none)
      (twins.readAll fun before => twins.getMessages 7 none before 1 10 none) := by
  intro complete
  have untied := (complete_iff Nat.one_pos (fun _ => rfl) (page_answers _ 1)).mp complete
  have both := untied 1 ⟨1, 7, none, 10, some 1, "first", 5, none, none, none, false⟩ (by decide) (by decide)
  exact absurd both (by decide)

theorem twins_together :
    Complete (twins.messages.filter (onTimeline 7 none)) (twins.messageView 10 none)
      (twins.readAll fun before => twins.getMessages 7 none before 2 10 none) := by
  refine ((paged_reading_iff twins Nat.two_pos).1 7 none 10 none _
    (getMessages_answers 7 none 2 10 none)).mpr fun k a _ some_page => ?_
  have all : (twins.messages.filter (onTimeline 7 none)).length ≤ 2 := by decide
  have positive : 0 < k * 2 := (Nat.zero_le _).trans_lt some_page
  exact (List.countP_le_length.trans all).trans (by omega)

end Database
end Echo.Server
