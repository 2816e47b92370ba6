import Echo.Lib.Along
import Echo.Timeline.State
import Mathlib.Data.Finset.Card

/-! The counter of decrypt failures against the messages that failed. -/
namespace Echo.Timeline
open Echo.Lib (Along)

namespace ChatMessage
variable (m : ChatMessage)

def isInbound : Bool := !m.isMine && !m.isSystemEvent

def failsToDecrypt : Bool := startsWith m.content "[Could not decrypt"

def failsToVerify : Bool := startsWith m.content "[Could not verify sender"

def isDecrypted : Bool := !isPlaceholderContent m.content && !m.failsToVerify

end ChatMessage

/-- What has become of the messages of one conversation: those that failed since the last success, those that failed
before it, and those that were decrypted. -/
structure Tally where
  failing : Finset String := ∅
  earlier : Finset String := ∅
  decrypted : Finset String := ∅

namespace Tally
variable (t : Tally)

def Seen (id : String) : Prop := id ∈ t.failing ∨ id ∈ t.earlier ∨ id ∈ t.decrypted

instance (id : String) : Decidable (t.Seen id) := inferInstanceAs (Decidable (_ ∨ _ ∨ _))

/-- A message counts when it first fails, and ends the count when it is first decrypted. -/
def record (m : ChatMessage) : Tally :=
  if m.isInbound = false then t
  else if m.failsToDecrypt = true then
    if t.Seen m.id then t else { t with failing := insert m.id t.failing }
  else if m.isDecrypted = true then
    if m.id ∈ t.decrypted then t
    else { failing := ∅, earlier := t.earlier ∪ t.failing, decrypted := insert m.id t.decrypted }
  else t

end Tally

structure Watch where
  state : ChatState := {}
  tally : String → Tally := fun _ => {}

namespace Watch
variable (w : Watch)

def withMessage (m : ChatMessage) : Watch where
  state := w.state.withMessage m
  tally := Function.update w.tally m.conversationId ((w.tally m.conversationId).record m)

def counter (c : String) : Nat := (w.state.consecutiveDecryptFailures c).getD 0

/-- Every counter is the number of messages that failed since the last success. -/
def Counts : Prop := ∀ c, c ≠ "" → w.counter c = (w.tally c).failing.card

/-- A failure is that of a new message of another user; what ends a count is a message of another user that is verified
and was not decrypted before. -/
def Fair (m : ChatMessage) : Prop :=
  m.conversationId = "" ∨
    (m.failsToDecrypt = true → m.isInbound = true ∧ ¬ (w.tally m.conversationId).Seen m.id) ∧
      (m.failsToDecrypt = false → isPlaceholderContent m.content = false → m.isSystemEvent = false →
        (w.tally m.conversationId).failing.Nonempty →
          m.isMine = false ∧ m.failsToVerify = false ∧ m.id ∉ (w.tally m.conversationId).decrypted)

variable {w}

theorem failures_appendOrReplaceMessage (s : ChatState) (msg : ChatMessage) :
    (s.appendOrReplaceMessage msg).consecutiveDecryptFailures = s.consecutiveDecryptFailures := by
  unfold ChatState.appendOrReplaceMessage
  dsimp only
  split
  · rfl
  · split
    · rfl
    · split
      · rfl
      · split <;> rfl

theorem failures_withMessage (s : ChatState) {msg : ChatMessage} (named : msg.conversationId ≠ "") :
    (s.withMessage msg).consecutiveDecryptFailures = (s.trackDecryptFailures msg).consecutiveDecryptFailures := by
  rw [ChatState.withMessage, if_neg named]
  exact failures_appendOrReplaceMessage _ _

theorem counter_withMessage_of_ne {m : ChatMessage} {c : String} (apart : c ≠ m.conversationId) :
    (w.withMessage m).counter c = w.counter c := by
  by_cases named : m.conversationId = ""
  · unfold counter withMessage ChatState.withMessage
    rw [if_pos named]
  · unfold counter withMessage
    rw [failures_withMessage _ named, ChatState.trackDecryptFailures]
    dsimp only
    split
    · rw [Function.update_of_ne apart]
    · split
      · rw [Function.update_of_ne apart]
      · rfl

theorem counter_withMessage {m : ChatMessage} (named : m.conversationId ≠ "") :
    (w.withMessage m).counter m.conversationId =
      if m.failsToDecrypt = true then w.counter m.conversationId + 1
      else if isPlaceholderContent m.content = false ∧ m.isSystemEvent = false then 0
      else w.counter m.conversationId := by
  unfold counter withMessage
  rw [failures_withMessage _ named, ChatState.trackDecryptFailures]
  dsimp only
  by_cases fails : m.failsToDecrypt = true
  · have lead : startsWith m.content "[Could not decrypt" = true := fails
    rw [if_pos fails, if_pos lead, Function.update_self]
    rfl
  · have lead : ¬ startsWith m.content "[Could not decrypt" = true := fails
    rw [if_neg fails, if_neg lead]
    by_cases genuine : isPlaceholderContent m.content = false ∧ m.isSystemEvent = false
    · rw [if_pos genuine, genuine.1, genuine.2]
      by_cases counted : 0 < (w.state.consecutiveDecryptFailures m.conversationId).getD 0
      · rw [if_pos (by simp [counted]), Function.update_self]
        rfl
      · rw [if_neg (by simp [counted])]
        omega
    · rw [if_neg genuine, if_neg]
      intro reset
      simp only [Bool.and_eq_true, Bool.not_eq_true'] at reset
      exact genuine ⟨reset.1.2, reset.2⟩

theorem card_record_failing (t : Tally) {m : ChatMessage} (fails : m.failsToDecrypt = true) :
    (t.record m).failing.card =
      if m.isInbound = true ∧ ¬ t.Seen m.id then t.failing.card + 1 else t.failing.card := by
  unfold Tally.record
  cases inbound : m.isInbound with
  | false => rw [if_pos rfl, if_neg (by simp)]
  | true =>
    rw [if_neg (by simp), if_pos fails]
    by_cases seen : t.Seen m.id
    · rw [if_pos seen, if_neg (by simp [seen])]
    · rw [if_neg seen, if_pos ⟨rfl, seen⟩]
      exact Finset.card_insert_of_notMem fun held => seen (Or.inl held)

theorem card_record_otherwise (t : Tally) {m : ChatMessage} (fine : m.failsToDecrypt = false) :
    (t.record m).failing.card =
      if m.isInbound = true ∧ m.isDecrypted = true ∧ m.id ∉ t.decrypted then 0 else t.failing.card := by
  unfold Tally.record
  cases inbound : m.isInbound with
  | false => rw [if_pos rfl, if_neg (by simp)]
  | true =>
    rw [if_neg (by simp), if_neg (by simp [fine])]
    by_cases decrypted : m.isDecrypted = true
    · rw [if_pos decrypted]
      by_cases again : m.id ∈ t.decrypted
      · rw [if_pos again, if_neg (by simp [again])]
      · rw [if_neg again, if_pos ⟨rfl, decrypted, again⟩]
        rfl
    · rw [if_neg decrypted, if_neg (by simp [decrypted])]

theorem counts_here_iff {m : ChatMessage} (named : m.conversationId ≠ "") (counts : w.Counts) :
    (w.withMessage m).counter m.conversationId = ((w.withMessage m).tally m.conversationId).failing.card ↔
      w.Fair m := by
  have start := counts m.conversationId named
  have tally : (w.withMessage m).tally m.conversationId = (w.tally m.conversationId).record m :=
    Function.update_self ..
  rw [Fair, or_iff_right named, counter_withMessage named, tally, start]
  cases fails : m.failsToDecrypt with
  | true =>
    rw [if_pos rfl, card_record_failing _ fails]
    by_cases new : m.isInbound = true ∧ ¬ (w.tally m.conversationId).Seen m.id
    · rw [if_pos new]
      exact iff_of_true rfl ⟨fun _ => new, fun impossible => absurd impossible (by simp)⟩
    · rw [if_neg new]
      exact iff_of_false (by omega) fun fair => new (fair.1 rfl)
  | false =>
    rw [if_neg (by simp), card_record_otherwise _ fails]
    by_cases genuine : isPlaceholderContent m.content = false ∧ m.isSystemEvent = false
    · have ends : (m.isInbound = true ∧ m.isDecrypted = true ∧ m.id ∉ (w.tally m.conversationId).decrypted) ↔
          m.isMine = false ∧ m.failsToVerify = false ∧ m.id ∉ (w.tally m.conversationId).decrypted := by
        simp [ChatMessage.isInbound, ChatMessage.isDecrypted, genuine.1, genuine.2]
      rw [if_pos genuine]
      simp only [ends, genuine.1, genuine.2, Bool.false_eq_true, false_implies, true_and, true_implies]
      by_cases fresh : m.isMine = false ∧ m.failsToVerify = false ∧ m.id ∉ (w.tally m.conversationId).decrypted
      · rw [if_pos fresh]
        exact iff_of_true rfl fun _ => fresh
      · rw [if_neg fresh, eq_comm, Finset.card_eq_zero, ← Finset.not_nonempty_iff_eq_empty]
        exact ⟨fun none_failing failing => absurd failing none_failing, fun fair failing => fresh (fair failing)⟩
    · have kept : ¬ (m.isInbound = true ∧ m.isDecrypted = true ∧ m.id ∉ (w.tally m.conversationId).decrypted) := by
        rintro ⟨inbound, decrypted, -⟩
        simp only [ChatMessage.isInbound, ChatMessage.isDecrypted, Bool.and_eq_true, Bool.not_eq_true'] at inbound decrypted
        exact genuine ⟨decrypted.1, inbound.2⟩
      rw [if_neg genuine, if_neg kept]
      refine iff_of_true rfl ⟨fun impossible => absurd impossible (by simp), fun _ placeholder system => ?_⟩
      exact absurd ⟨placeholder, system⟩ genuine

theorem counts_iff (m : ChatMessage) (counts : w.Counts) : (w.withMessage m).Counts ↔ w.Fair m := by
  have elsewhere : ∀ c, c ≠ "" → c ≠ m.conversationId →
      (w.withMessage m).counter c = ((w.withMessage m).tally c).failing.card := by
    intro c named apart
    rw [counter_withMessage_of_ne apart, counts c named]
    exact congrArg (fun t : Tally => t.failing.card) (Function.update_of_ne apart _ _).symm
  by_cases named : m.conversationId = ""
  · exact iff_of_true (fun c some_name => elsewhere c some_name fun same => some_name (same.trans named)) (Or.inl named)
  · rw [← counts_here_iff named counts]
    refine ⟨fun all => all _ named, fun here c some_name => ?_⟩
    by_cases same : c = m.conversationId
    · rw [same, here]
    · exact elsewhere c some_name same

/-- Along every sequence of messages, the counters say how many messages have failed exactly as long as each message is
counted as it should. -/
theorem failures_counted_iff (calls : List ChatMessage) :
    Along Watch.withMessage (fun w m => (w.withMessage m).Counts) {} calls ↔ Along Watch.withMessage Watch.Fair {} calls :=
  Along.invariant_iff (fun _ m counts => counts_iff m counts) fun _ _ => rfl

def undecrypted : ChatMessage :=
  { id := "m1", fromUserId := "ann", fromUsername := "Ann", conversationId := "c",
    content := "[Could not decrypt - encryption keys may be out of sync]", timestamp := "2026-01-01T12:00:00.000Z",
    isMine := false, isEncrypted := true }

/-- The one message that failed, delivered again, is counted twice. -/
theorem redelivered_counted_twice :
    ¬ Along Watch.withMessage (fun w m => (w.withMessage m).Counts) {} [undecrypted, undecrypted] := by
  intro along
  have counted := along.2.1 "c" (by decide)
  exact absurd counted (by decide +kernel)

end Watch
end Echo.Timeline
