import Echo.Lib.Calendar
import Echo.Timeline.Store

/-! The timestamps of messages: what the server's serialiser and `DateTime.now().toIso8601String()` write, and which
of two such texts `compareTo` puts first. -/
namespace Echo.Timeline
open Echo.Lib

inductive Stamp where
  | utc (clock : Clock)
  | wall (clock : Clock)

namespace Stamp

def clock : Stamp → Clock
  | utc clock | wall clock => clock

def isUtc : Stamp → Bool
  | utc _ => true
  | wall _ => false

/-- In microseconds; `zone` is how far the zone of the device is ahead at a reading of its clock. -/
def moment (zone : Nat → Int) : Stamp → Int
  | utc clock => clock.reading
  | wall clock => clock.reading - zone clock.reading

def fraction (micros : Nat) : List Char :=
  if micros % 1000 = 0 then '.' :: padded 3 (micros / 1000) else '.' :: padded 6 micros

/-- `chrono` leaves out a fraction of zero, Dart does not. -/
def text : Stamp → String
  | utc clock =>
    String.ofList (clock.dateTime ++ ((if clock.micros = 0 then [] else fraction clock.micros) ++ ['Z']))
  | wall clock => String.ofList (clock.dateTime ++ fraction clock.micros)

def unit : Stamp → Nat
  | utc clock => if clock.micros = 0 then 1000000 else if clock.micros % 1000 = 0 then 1000 else 1
  | wall clock => if clock.micros % 1000 = 0 then 1000 else 1

def reading (s : Stamp) : Nat := s.clock.reading

/-- To the coarser of the two units the clocks show the same, and one text goes on where the other has its end or
its `Z`: an end is before everything, a `Z` after every digit. -/
def Tied (s t : Stamp) : Prop :=
  if s.unit = t.unit then s.isUtc = false ∧ t.isUtc = true
  else if t.unit < s.unit then s.isUtc = false
  else t.isUtc = true

def TextBefore (s t : Stamp) : Prop :=
  let coarser := max s.unit t.unit
  s.reading / coarser < t.reading / coarser ∨ s.reading / coarser = t.reading / coarser ∧ Tied s t

instance (s t : Stamp) : Decidable (Tied s t) := by
  unfold Tied
  infer_instance

instance (s t : Stamp) : Decidable (TextBefore s t) := inferInstanceAs (Decidable (_ ∨ _))

end Stamp

section Texts
open Stamp

theorem codeUnits_ofList {text : List Char} (plain : ∀ c ∈ text, c.toNat < 0x10000) :
    codeUnits (String.ofList text) = codes text := by
  rw [codeUnits, String.toList_ofList, codes]
  induction text with
  | nil => rfl
  | cons c text ih =>
    rw [List.flatMap_cons, if_pos (plain c List.mem_cons_self), ih fun d later =>
        plain d (List.mem_cons_of_mem c later)]
    rfl

theorem padded_plain (width v : Nat) : ∀ c ∈ padded width v, c.toNat < 0x10000 := by
  induction width with
  | zero => exact fun _ mem => absurd mem List.not_mem_nil
  | succ width ih =>
    intro c mem
    rcases List.mem_cons.mp mem with rfl | later
    · rw [digitChar_toNat (Nat.mod_lt _ (by decide))]
      omega
    · exact ih c later

theorem fraction_plain (micros : Nat) : ∀ c ∈ fraction micros, c.toNat < 0x10000 := by
  unfold fraction
  split <;> exact List.forall_mem_cons.mpr ⟨by decide, padded_plain _ _⟩

theorem dateTime_plain (c : Clock) : ∀ d ∈ c.dateTime, d.toNat < 0x10000 := by
  simp only [Clock.dateTime, List.forall_mem_append, List.forall_mem_cons]
  exact ⟨padded_plain _ _, by decide, padded_plain _ _, by decide, padded_plain _ _, by decide, padded_plain _ _,
    by decide, padded_plain _ _, by decide, padded_plain _ _⟩

def Stamp.rest : Stamp → List Char
  | utc clock => (if clock.micros = 0 then [] else fraction clock.micros) ++ ['Z']
  | wall clock => fraction clock.micros

theorem text_eq (s : Stamp) : s.text = String.ofList (s.clock.dateTime ++ s.rest) := by
  cases s <;> rfl

theorem rest_plain (s : Stamp) : ∀ c ∈ s.rest, c.toNat < 0x10000 := by
  cases s with
  | utc clock =>
    have letter : ∀ c ∈ ['Z'], c.toNat < 0x10000 := by
      intro c mem
      rw [List.mem_singleton.mp mem]
      decide
    refine List.forall_mem_append.mpr ⟨?_, letter⟩
    split
    · exact fun _ mem => absurd mem List.not_mem_nil
    · exact fraction_plain clock.micros
  | wall clock => exact fraction_plain clock.micros

theorem codeUnits_text (s : Stamp) : codeUnits s.text = codes s.clock.dateTime ++ codes s.rest := by
  rw [text_eq, codeUnits_ofList (List.forall_mem_append.mpr ⟨dateTime_plain s.clock, rest_plain s⟩), codes_append]

/-- A `Z`, or nothing. -/
def Stamp.ending (s : Stamp) : List Nat := if s.isUtc then [90] else []

def group (v : Nat) (rest : List Nat) : List Nat := codes (padded 3 v) ++ rest

theorem group_lt_iff {v w : Nat} (left : v < 1000) (right : w < 1000) (x y : List Nat) :
    group v x < group w y ↔ v < w ∨ v = w ∧ x < y := by
  have lengths : (codes (padded 3 v)).length = (codes (padded 3 w)).length := by simp [codes, padded_length]
  rw [group, group, append_lt_append_iff lengths]
  rcases lt_trichotomy v w with less | rfl | more
  · exact iff_of_true (Or.inl (padded_lt right less)) (Or.inl less)
  · simp only [lt_irrefl, false_or, true_and]
  · have later : codes (padded 3 w) < codes (padded 3 v) := padded_lt left more
    refine iff_of_false ?_ (by omega)
    rintro (less | ⟨same, -⟩)
    · exact later.not_gt less
    · exact later.ne' same

theorem cons_lt_ending {d : Nat} (small : d < 90) (x : List Nat) (t : Stamp) : d :: x < t.ending ↔ t.isUtc = true := by
  rw [Stamp.ending]
  cases t.isUtc with
  | true => exact iff_of_true (List.cons_lt_cons_iff.mpr (Or.inl small)) rfl
  | false => exact iff_of_false (List.not_lt_nil _) Bool.false_ne_true

theorem ending_lt_cons {d : Nat} (small : d < 90) (x : List Nat) (s : Stamp) : s.ending < d :: x ↔ s.isUtc = false := by
  rw [Stamp.ending]
  cases s.isUtc with
  | true =>
    refine iff_of_false (fun before => ?_) (by decide)
    rcases List.cons_lt_cons_iff.mp before with less | ⟨same, -⟩ <;> omega
  | false => exact iff_of_true (List.nil_lt_cons _ _) rfl

theorem group_head (v : Nat) (x : List Nat) : ∃ d later, group v x = d :: later ∧ d < 90 := by
  refine ⟨_, _, rfl, ?_⟩
  rw [digitChar_toNat (Nat.mod_lt _ (by decide))]
  omega

theorem group_lt_ending (v : Nat) (x : List Nat) (t : Stamp) : group v x < t.ending ↔ t.isUtc = true := by
  obtain ⟨d, later, shape, small⟩ := group_head v x
  rw [shape]
  exact cons_lt_ending small later t

theorem ending_lt_group (v : Nat) (x : List Nat) (s : Stamp) : s.ending < group v x ↔ s.isUtc = false := by
  obtain ⟨d, later, shape, small⟩ := group_head v x
  rw [shape]
  exact ending_lt_cons small later s

theorem ending_lt_ending (s t : Stamp) : s.ending < t.ending ↔ s.isUtc = false ∧ t.isUtc = true := by
  unfold Stamp.ending
  cases s.isUtc <;> cases t.isUtc <;> decide

theorem milli_digits {micros : Nat} (coarse : micros % 1000 = 0) (x : List Char) :
    codes (fraction micros ++ x) = 46 :: group (micros / 1000) (codes x) := by
  rw [fraction, if_pos coarse, List.cons_append, codes_cons, codes_append]
  rfl

theorem micro_digits {micros : Nat} (fine : micros % 1000 ≠ 0) (x : List Char) :
    codes (fraction micros ++ x) = 46 :: group (micros / 1000) (group (micros % 1000) (codes x)) := by
  have low : padded 3 (micros % 1000) = padded 3 micros := padded_mod 3 micros
  rw [fraction, if_neg fine, List.cons_append, codes_cons, codes_append, padded_add 3 3, codes_append, group, group,
      low,
    List.append_assoc]
  rfl

theorem precision (s : Stamp) :
    s.unit = 1000000 ∧ s.clock.micros = 0 ∧ s.isUtc = true ∧ codes s.rest = s.ending ∨
    s.unit = 1000 ∧ s.clock.micros % 1000 = 0 ∧ codes s.rest = 46 :: group (s.clock.micros / 1000) s.ending ∨
    s.unit = 1 ∧ s.clock.micros % 1000 ≠ 0 ∧
      codes s.rest = 46 :: group (s.clock.micros / 1000) (group (s.clock.micros % 1000) s.ending) := by
  cases s with
  | utc clock =>
    by_cases whole : clock.micros = 0
    · exact Or.inl ⟨if_pos whole, whole, rfl, by rw [Stamp.rest, if_pos whole]; rfl⟩
    · by_cases coarse : clock.micros % 1000 = 0
      · refine Or.inr (Or.inl ⟨(if_neg whole).trans (if_pos coarse), coarse, ?_⟩)
        rw [Stamp.rest, if_neg whole]
        exact milli_digits coarse ['Z']
      · refine Or.inr (Or.inr ⟨(if_neg whole).trans (if_neg coarse), coarse, ?_⟩)
        rw [Stamp.rest, if_neg whole]
        exact micro_digits coarse ['Z']
  | wall clock =>
    by_cases coarse : clock.micros % 1000 = 0
    · refine Or.inr (Or.inl ⟨if_pos coarse, coarse, ?_⟩)
      rw [Stamp.rest, ← List.append_nil (fraction clock.micros)]
      exact milli_digits coarse []
    · refine Or.inr (Or.inr ⟨if_neg coarse, coarse, ?_⟩)
      rw [Stamp.rest, ← List.append_nil (fraction clock.micros)]
      exact micro_digits coarse []

theorem codeUnits_lt_iff (s t : Stamp) :
    codeUnits s.text < codeUnits t.text ↔
      s.clock.seconds < t.clock.seconds ∨ s.clock.seconds = t.clock.seconds ∧ codes s.rest < codes t.rest := by
  rw [codeUnits_text, codeUnits_text,
    append_lt_append_iff ((Clock.dateTime_length s.clock).trans (Clock.dateTime_length t.clock).symm),
    Clock.dateTime_lt_iff, Clock.dateTime_eq_iff]

theorem tied_same {s t : Stamp} (same : s.unit = t.unit) : Tied s t ↔ s.isUtc = false ∧ t.isUtc = true := by
  rw [Tied, if_pos same]

theorem tied_coarser {s t : Stamp} (coarser : t.unit < s.unit) : Tied s t ↔ s.isUtc = false := by
  rw [Tied, if_neg coarser.ne', if_pos coarser]

theorem tied_finer {s t : Stamp} (finer : s.unit < t.unit) : Tied s t ↔ t.isUtc = true := by
  rw [Tied, if_neg finer.ne, if_neg finer.not_gt]

theorem textBefore_at {s t : Stamp} {coarser : Nat} (units : max s.unit t.unit = coarser) :
    TextBefore s t ↔ s.reading / coarser < t.reading / coarser ∨
      s.reading / coarser = t.reading / coarser ∧ Tied s t := by
  subst units
  rfl

theorem reading_second (s : Stamp) : s.reading / 1000000 = s.clock.seconds := by
  have small := s.clock.micros_lt
  rw [Stamp.reading, Clock.reading]
  omega

theorem reading_milli (s : Stamp) : s.reading / 1000 = s.clock.seconds * 1000 + s.clock.micros / 1000 := by
  rw [Stamp.reading, Clock.reading]
  omega

theorem reading_micro (s : Stamp) :
    s.reading / 1 = (s.clock.seconds * 1000 + s.clock.micros / 1000) * 1000 + s.clock.micros % 1000 := by
  rw [Stamp.reading, Clock.reading]
  omega

theorem places_lt_or_eq {b x y u v : Nat} (left : u < b) (right : v < b) (tied : Prop) :
    x * b + u < y * b + v ∨ x * b + u = y * b + v ∧ tied ↔ x < y ∨ x = y ∧ (u < v ∨ u = v ∧ tied) := by
  rcases lt_trichotomy x y with less | rfl | more
  · have room : (x + 1) * b ≤ y * b := Nat.mul_le_mul_right b less
    rw [Nat.add_mul] at room
    exact iff_of_true (Or.inl (by omega)) (Or.inl less)
  · simp only [Nat.add_lt_add_iff_left, Nat.add_left_cancel_iff, lt_irrefl, true_and, false_or]
  · have room : (y + 1) * b ≤ x * b := Nat.mul_le_mul_right b more
    rw [Nat.add_mul] at room
    exact iff_of_false (by omega) (by omega)

theorem codeUnits_lt_iff_textBefore (s t : Stamp) : codeUnits s.text < codeUnits t.text ↔ TextBefore s t := by
  have high : s.clock.micros / 1000 < 1000 := Nat.div_lt_of_lt_mul s.clock.micros_lt
  have high' : t.clock.micros / 1000 < 1000 := Nat.div_lt_of_lt_mul t.clock.micros_lt
  have low : s.clock.micros % 1000 < 1000 := Nat.mod_lt _ (by decide)
  have low' : t.clock.micros % 1000 < 1000 := Nat.mod_lt _ (by decide)
  rw [codeUnits_lt_iff]
  rcases precision s with ⟨unit, -, -, rest⟩ | ⟨unit, -, rest⟩ | ⟨unit, -, rest⟩
  · -- to the second: the other text goes on with a dot or has its `Z` there as well
    rw [textBefore_at (show max s.unit t.unit = 1000000 by rcases precision t with h | h | h <;> omega), reading_second,
      reading_second, rest]
    rcases precision t with ⟨unit', -, -, rest'⟩ | ⟨unit', -, rest'⟩ | ⟨unit', -, rest'⟩
    · rw [rest', ending_lt_ending, tied_same (by omega)]
    · rw [rest', ending_lt_cons (by decide), tied_coarser (by omega)]
    · rw [rest', ending_lt_cons (by decide), tied_coarser (by omega)]
  · rcases precision t with ⟨unit', -, -, rest'⟩ | ⟨unit', -, rest'⟩ | ⟨unit', -, rest'⟩
    · rw [textBefore_at (show max s.unit t.unit = 1000000 by omega), reading_second, reading_second, rest, rest',
        cons_lt_ending (by decide), tied_finer (by omega)]
    · rw [textBefore_at (show max s.unit t.unit = 1000 by omega), reading_milli, reading_milli,
        places_lt_or_eq high high', rest, rest', List.cons_lt_cons_iff, group_lt_iff high high', ending_lt_ending,
        tied_same (by omega)]
      simp
    · rw [textBefore_at (show max s.unit t.unit = 1000 by omega), reading_milli, reading_milli,
        places_lt_or_eq high high', rest, rest', List.cons_lt_cons_iff, group_lt_iff high high', ending_lt_group,
        tied_coarser (by omega)]
      simp
  · rcases precision t with ⟨unit', -, -, rest'⟩ | ⟨unit', -, rest'⟩ | ⟨unit', -, rest'⟩
    · rw [textBefore_at (show max s.unit t.unit = 1000000 by omega), reading_second, reading_second, rest, rest',
        cons_lt_ending (by decide), tied_finer (by omega)]
    · rw [textBefore_at (show max s.unit t.unit = 1000 by omega), reading_milli, reading_milli,
        places_lt_or_eq high high', rest, rest', List.cons_lt_cons_iff, group_lt_iff high high', group_lt_ending,
        tied_finer (by omega)]
      simp
    · rw [textBefore_at (show max s.unit t.unit = 1 by omega), reading_micro, reading_micro,
        places_lt_or_eq low low', places_lt_or_eq high high', rest, rest', List.cons_lt_cons_iff,
        group_lt_iff high high', group_lt_iff low low', ending_lt_ending, tied_same (by omega)]
      simp

theorem unit_dvd_reading (s : Stamp) : s.unit ∣ s.reading := by
  rw [Stamp.reading, Clock.reading]
  rcases precision s with ⟨unit, micros, -, -⟩ | ⟨unit, micros, -⟩ | ⟨unit, -, -⟩ <;> rw [unit] <;> omega

theorem tied_or_tied {s t : Stamp} (apart : s.unit ≠ t.unit) : Tied s t ∨ Tied t s := by
  rcases apart.lt_or_gt with finer | coarser
  · rw [tied_finer finer, tied_coarser finer]
    cases t.isUtc <;> simp
  · rw [tied_coarser coarser, tied_finer coarser]
    cases s.isUtc <;> simp

theorem same_of_text {s t : Stamp} (same : codeUnits s.text = codeUnits t.text) :
    s.reading = t.reading ∧ s.isUtc = t.isUtc := by
  have notBefore : ¬ TextBefore s t := fun before => ((codeUnits_lt_iff_textBefore s t).mpr before).ne same
  have notAfter : ¬ TextBefore t s := fun before => ((codeUnits_lt_iff_textBefore t s).mpr before).ne' same
  rw [TextBefore, not_or, not_and] at notBefore notAfter
  rw [Nat.max_comm] at notAfter
  have level : s.reading / max s.unit t.unit = t.reading / max s.unit t.unit := by omega
  have untied := notBefore.2 level
  have untied' := notAfter.2 level.symm
  have units : s.unit = t.unit := by
    by_contra apart
    exact (tied_or_tied apart).elim untied untied'
  rw [tied_same units] at untied
  rw [tied_same units.symm] at untied'
  constructor
  · rw [← units, Nat.max_self] at level
    exact (Nat.div_left_inj (unit_dvd_reading s) (units ▸ unit_dvd_reading t)).mp level
  · revert untied untied'
    cases s.isUtc <;> cases t.isUtc <;> simp

theorem moment_eq (zone : Nat → Int) (s : Stamp) :
    s.moment zone = if s.isUtc then (s.reading : Int) else s.reading - zone s.reading := by
  cases s <;> rfl

theorem moment_of_text (zone : Nat → Int) {s t : Stamp} (same : codeUnits s.text = codeUnits t.text) :
    s.moment zone = t.moment zone := by
  obtain ⟨reading, utc⟩ := same_of_text same
  rw [moment_eq, moment_eq, reading, utc]

def Stamp.Misread (zone : Nat → Int) (s t : Stamp) : Prop := TextBefore s t ∧ t.moment zone < s.moment zone

instance (zone : Nat → Int) (s t : Stamp) : Decidable (s.Misread zone t) := inferInstanceAs (Decidable (_ ∧ _))

theorem unit_le_of_dvd {s t : Stamp} (utc : s.isUtc = true) (divides : t.unit ∣ s.reading) : t.unit ≤ s.unit := by
  have small := s.clock.micros_lt
  rw [Stamp.reading, Clock.reading] at divides
  cases s with
  | wall clock => cases utc
  | utc clock =>
    simp only [Stamp.clock] at divides small
    rcases precision t with ⟨unit, -⟩ | ⟨unit, -⟩ | ⟨unit, -⟩ <;> rw [unit] at divides ⊢ <;> rw [Stamp.unit] <;>
      split <;> (try split) <;> omega

theorem misread_server_iff (zone : Nat → Int) {s t : Stamp} (left : s.isUtc = true) (right : t.isUtc = true) :
    s.Misread zone t ↔ s.unit < t.unit ∧ s.reading / t.unit = t.reading / t.unit := by
  rw [Stamp.Misread, moment_eq, moment_eq, if_pos left, if_pos right, Int.ofNat_lt, TextBefore]
  constructor
  · rintro ⟨before | ⟨level, tied⟩, later⟩
    · have order := Nat.div_le_div_right (c := max s.unit t.unit) later.le
      omega
    · rcases lt_trichotomy s.unit t.unit with finer | same | coarser
      · rw [max_eq_right finer.le] at level
        exact ⟨finer, level⟩
      · rw [tied_same same, left] at tied
        exact absurd tied.1 (by decide)
      · rw [tied_coarser coarser, left] at tied
        exact absurd tied (by decide)
  · rintro ⟨finer, level⟩
    rw [max_eq_right finer.le, tied_finer finer]
    refine ⟨Or.inr ⟨level, right⟩, lt_of_le_of_ne ?_ fun same => finer.not_ge ?_⟩
    · rw [← Nat.div_mul_cancel (unit_dvd_reading t), ← level]
      exact Nat.div_mul_le_self _ _
    · exact unit_le_of_dvd left (same ▸ unit_dvd_reading t)

end Texts
end Echo.Timeline
