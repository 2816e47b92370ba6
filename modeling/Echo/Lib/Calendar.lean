import Mathlib.Data.List.Lex
import Mathlib.Data.Nat.Digits.Defs

/-! The Gregorian calendar to the microsecond, and its ISO 8601 text: the order of the texts, digit by digit, is the
order of the readings to the second. -/
namespace Echo.Lib

section Lexical

theorem append_lt_append_iff {x y : List Nat} (same : x.length = y.length) (a b : List Nat) :
    x ++ a < y ++ b ↔ x < y ∨ x = y ∧ a < b := by
  induction x generalizing y with
  | nil =>
    cases y with
    | nil => simp
    | cons n y => cases same
  | cons m x ih =>
    cases y with
    | nil => cases same
    | cons n y =>
      simp only [List.cons_append, List.cons_lt_cons_iff, List.cons.injEq, ih (Nat.succ.inj same)]
      tauto

def codes (text : List Char) : List Nat := text.map Char.toNat

@[simp] theorem codes_append (x y : List Char) : codes (x ++ y) = codes x ++ codes y := List.map_append

@[simp] theorem codes_cons (c : Char) (x : List Char) : codes (c :: x) = c.toNat :: codes x := rfl

/-- Exactly `width` decimal digits, the highest first; higher ones are dropped. -/
def padded : Nat → Nat → List Char
  | 0, _ => []
  | width + 1, v => Nat.digitChar (v / 10 ^ width % 10) :: padded width v

theorem padded_length (width v : Nat) : (padded width v).length = width := by
  induction width with
  | zero => rfl
  | succ width ih => rw [padded, List.length_cons, ih]

theorem digitChar_toNat {d : Nat} (digit : d < 10) : (Nat.digitChar d).toNat = 48 + d := by
  have all : ∀ d < 10, (Nat.digitChar d).toNat = 48 + d := by decide
  exact all d digit

theorem padded_mod (width v : Nat) : padded width (v % 10 ^ width) = padded width v := by
  have stable : ∀ n width, n ≤ width → padded n (v % 10 ^ width) = padded n v := by
    intro n
    induction n with
    | zero => exact fun _ _ => rfl
    | succ n ih =>
      intro width within
      have digit : v % 10 ^ width / 10 ^ n % 10 = v / 10 ^ n % 10 := by
        obtain ⟨k, rfl⟩ := Nat.exists_eq_add_of_le within
        rw [show n + 1 + k = n + (k + 1) by omega, pow_add, Nat.mod_mul_right_div_self]
        exact Nat.mod_mod_of_dvd _ (Dvd.intro_left _ (pow_succ 10 k).symm)
      rw [padded, padded, digit, ih width (by omega)]
  exact stable width width le_rfl

theorem padded_add (high low v : Nat) : padded (high + low) v = padded high (v / 10 ^ low) ++ padded low v := by
  induction high with
  | zero => rw [Nat.zero_add, padded, List.nil_append]
  | succ high ih =>
    rw [Nat.succ_add, padded, padded, ih, List.cons_append, Nat.div_div_eq_div_mul, ← pow_add, Nat.add_comm low high]

theorem padded_lt {width v w : Nat} (small : w < 10 ^ width) (less : v < w) :
    codes (padded width v) < codes (padded width w) := by
  induction width generalizing v w with
  | zero => omega
  | succ width ih =>
    have positive : 0 < 10 ^ width := Nat.pow_pos (by decide)
    have top : w / 10 ^ width < 10 := by
      rw [Nat.div_lt_iff_lt_mul positive, ← Nat.pow_succ']
      exact small
    have order : v / 10 ^ width ≤ w / 10 ^ width := Nat.div_le_div_right less.le
    have top' : v / 10 ^ width < 10 := order.trans_lt top
    rw [padded, padded, codes_cons, codes_cons, Nat.mod_eq_of_lt top, Nat.mod_eq_of_lt top', digitChar_toNat top,
      digitChar_toNat top', List.cons_lt_cons_iff]
    rcases order.lt_or_eq with below | level
    · exact Or.inl (Nat.add_lt_add_left below 48)
    · refine Or.inr ⟨by rw [level], ?_⟩
      have split := Nat.div_add_mod v (10 ^ width)
      have split' := Nat.div_add_mod w (10 ^ width)
      have rest : v % 10 ^ width < w % 10 ^ width := by
        rw [level] at split
        omega
      have lower := ih (Nat.mod_lt w positive) rest
      rwa [padded_mod, padded_mod] at lower

end Lexical

section Calendar

def isLeap (year : Nat) : Bool := year % 4 = 0 ∧ (year % 100 ≠ 0 ∨ year % 400 = 0)

def daysInMonth (year month : Nat) : Nat :=
  if month = 2 then if isLeap year then 29 else 28
  else if month = 4 ∨ month = 6 ∨ month = 9 ∨ month = 11 then 30
  else 31

def daysBeforeYear (year : Nat) : Nat := year * 365 + (year + 3) / 4 + (year + 399) / 400 - (year + 99) / 100

def daysBeforeMonth (year : Nat) : Nat → Nat
  | 0 | 1 => 0
  | month + 2 => daysBeforeMonth year (month + 1) + daysInMonth year (month + 1)

structure Clock where
  year : Nat
  month : Nat
  day : Nat
  hour : Nat
  minute : Nat
  second : Nat
  micros : Nat
  year_lt : year < 10000
  month_pos : 1 ≤ month
  month_le : month ≤ 12
  day_pos : 1 ≤ day
  day_le : day ≤ daysInMonth year month
  hour_lt : hour < 24
  minute_lt : minute < 60
  second_lt : second < 60
  micros_lt : micros < 1000000

namespace Clock
variable (c d : Clock)

def days : Nat := daysBeforeYear c.year + daysBeforeMonth c.year c.month + c.day

def seconds : Nat := ((c.days * 24 + c.hour) * 60 + c.minute) * 60 + c.second

def reading : Nat := c.seconds * 1000000 + c.micros

def fields : List Nat := [c.year, c.month, c.day, c.hour, c.minute, c.second]

/-- `YYYY-MM-DDThh:mm:ss` -/
def dateTime : List Char :=
  padded 4 c.year ++ '-' :: (padded 2 c.month ++ '-' :: (padded 2 c.day ++ 'T' :: (padded 2 c.hour ++ ':' ::
    (padded 2 c.minute ++ ':' :: padded 2 c.second))))

end Clock

theorem leaps_succ (year : Nat) : (year + 4) / 4 = (year + 3) / 4 + if year % 4 = 0 then 1 else 0 := by
  split <;> omega

theorem centuries_succ (year : Nat) : (year + 100) / 100 = (year + 99) / 100 + if year % 100 = 0 then 1 else 0 := by
  split <;> omega

theorem cycles_succ (year : Nat) : (year + 400) / 400 = (year + 399) / 400 + if year % 400 = 0 then 1 else 0 := by
  split <;> omega

theorem daysBeforeYear_succ (year : Nat) :
    daysBeforeYear (year + 1) = daysBeforeYear year + if isLeap year then 366 else 365 := by
  have few : (year + 99) / 100 ≤ year := by omega
  have century : year % 100 = 0 → year % 4 = 0 := by omega
  have cycle : year % 400 = 0 → year % 100 = 0 := by omega
  simp only [daysBeforeYear, isLeap, decide_eq_true_eq, Nat.add_assoc, Nat.reduceAdd, leaps_succ, centuries_succ,
    cycles_succ]
  generalize (year + 99) / 100 = centuries at few ⊢
  generalize (year + 3) / 4 = leaps
  generalize (year + 399) / 400 = cycles
  by_cases fourth : year % 4 = 0
  · by_cases hundredth : year % 100 = 0
    · by_cases last : year % 400 = 0
      · simp only [fourth, hundredth, last, if_true, ne_eq, not_true_eq_false, false_or, and_self]
        omega
      · simp only [fourth, hundredth, last, if_true, if_false, ne_eq, not_true_eq_false, or_self, and_false]
        omega
    · have apart : ¬ year % 400 = 0 := fun last => hundredth (cycle last)
      simp only [fourth, hundredth, apart, if_true, if_false, ne_eq, not_false_eq_true, true_or, and_self]
      omega
  · have apart : ¬ year % 100 = 0 := fun hundredth => fourth (century hundredth)
    have apart' : ¬ year % 400 = 0 := fun last => apart (cycle last)
    simp only [fourth, apart, apart', if_false, false_and]
    omega

theorem daysBeforeYear_mono {year later : Nat} (before : year < later) :
    daysBeforeYear year + (if isLeap year then 366 else 365) ≤ daysBeforeYear later := by
  rw [← daysBeforeYear_succ]
  induction later with
  | zero => omega
  | succ later ih =>
    rcases Nat.lt_succ_iff_lt_or_eq.mp before with earlier | rfl
    · exact (ih earlier).trans (by rw [daysBeforeYear_succ later]; omega)
    · exact le_rfl

theorem daysBeforeMonth_succ (year : Nat) {month : Nat} (positive : 1 ≤ month) :
    daysBeforeMonth year (month + 1) = daysBeforeMonth year month + daysInMonth year month := by
  obtain ⟨month, rfl⟩ := Nat.exists_eq_add_of_le' positive
  rfl

theorem daysBeforeMonth_mono (year : Nat) {month later : Nat} (positive : 1 ≤ month) (before : month < later) :
    daysBeforeMonth year month + daysInMonth year month ≤ daysBeforeMonth year later := by
  rw [← daysBeforeMonth_succ year positive]
  induction later with
  | zero => omega
  | succ later ih =>
    rcases Nat.lt_succ_iff_lt_or_eq.mp before with earlier | rfl
    · exact (ih earlier).trans (by rw [daysBeforeMonth_succ year (by omega)]; omega)
    · exact le_rfl

theorem daysBeforeMonth_year (year : Nat) : daysBeforeMonth year 13 = if isLeap year then 366 else 365 := by
  simp only [daysBeforeMonth, daysInMonth]
  cases isLeap year <;> rfl

namespace Clock
variable {c d : Clock}

theorem day_within (c : Clock) :
    daysBeforeMonth c.year c.month + c.day ≤ if isLeap c.year then 366 else 365 := by
  rw [← daysBeforeMonth_year]
  exact (Nat.add_le_add_left c.day_le _).trans (daysBeforeMonth_mono c.year c.month_pos (Nat.lt_succ_of_le c.month_le))

theorem days_lt_of_year (before : c.year < d.year) : c.days < d.days := by
  have later := daysBeforeYear_mono before
  have within := c.day_within
  have some_day := d.day_pos
  unfold days
  omega

theorem days_lt_of_month (year : c.year = d.year) (before : c.month < d.month) : c.days < d.days := by
  have later := daysBeforeMonth_mono c.year c.month_pos before
  have within := c.day_le
  have some_day := d.day_pos
  unfold days
  rw [year] at later within ⊢
  omega

theorem seconds_lt (before : c.fields < d.fields) : c.seconds < d.seconds := by
  simp only [fields, List.cons_lt_cons_iff, List.not_lt_nil, and_false, or_false] at before
  have hour := c.hour_lt
  have minute := c.minute_lt
  have second := c.second_lt
  unfold seconds
  rcases before with year | ⟨year, month | ⟨month, day | ⟨day, rest⟩⟩⟩
  · have days := days_lt_of_year year
    omega
  · have days := days_lt_of_month year month
    omega
  · have days : c.days < d.days := by
      unfold days
      rw [year, month]
      omega
    omega
  · have days : c.days = d.days := by rw [days, days, year, month, day]
    omega

theorem field_lt {width v w : Nat} {x y : List Nat} (small : w < 10 ^ width) (separator : Nat)
    (before : v < w ∨ v = w ∧ x < y) :
    codes (padded width v) ++ separator :: x < codes (padded width w) ++ separator :: y := by
  have lengths : (codes (padded width v)).length = (codes (padded width w)).length := by simp [codes, padded_length]
  rw [append_lt_append_iff lengths]
  rcases before with less | ⟨rfl, rest⟩
  · exact Or.inl (padded_lt small less)
  · exact Or.inr ⟨rfl, List.cons_lt_cons_iff.mpr (Or.inr ⟨rfl, rest⟩)⟩

theorem dateTime_lt (before : c.fields < d.fields) : codes c.dateTime < codes d.dateTime := by
  have month := d.month_le
  have day : d.day ≤ 31 := d.day_le.trans (by unfold daysInMonth; split <;> (try split) <;> omega)
  have hour := d.hour_lt
  have minute := d.minute_lt
  have second := d.second_lt
  simp only [fields, List.cons_lt_cons_iff, List.not_lt_nil, and_false, or_false] at before
  simp only [dateTime, codes_append, codes_cons]
  refine field_lt d.year_lt _ (before.imp_right (And.imp_right fun before => ?_))
  refine field_lt (by omega) _ (before.imp_right (And.imp_right fun before => ?_))
  refine field_lt (by omega) _ (before.imp_right (And.imp_right fun before => ?_))
  refine field_lt (by omega) _ (before.imp_right (And.imp_right fun before => ?_))
  refine field_lt (by omega) _ (before.imp_right (And.imp_right fun before => ?_))
  exact padded_lt (by omega) before

theorem dateTime_length (c : Clock) : (codes c.dateTime).length = 19 := by
  simp [codes, dateTime, padded_length]

theorem of_fields_eq (same : c.fields = d.fields) : c.seconds = d.seconds ∧ c.dateTime = d.dateTime := by
  simp only [fields, List.cons.injEq, and_true] at same
  obtain ⟨year, month, day, hour, minute, second⟩ := same
  simp only [seconds, days, dateTime, year, month, day, hour, minute, second, and_self]

theorem dateTime_lt_iff : codes c.dateTime < codes d.dateTime ↔ c.seconds < d.seconds := by
  rcases lt_trichotomy c.fields d.fields with less | same | more
  · exact iff_of_true (dateTime_lt less) (seconds_lt less)
  · obtain ⟨seconds, texts⟩ := of_fields_eq same
    rw [seconds, texts]
    exact iff_of_false (lt_irrefl _) (lt_irrefl _)
  · exact iff_of_false (dateTime_lt more).not_gt (seconds_lt more).not_gt

theorem dateTime_eq_iff : codes c.dateTime = codes d.dateTime ↔ c.seconds = d.seconds := by
  rcases lt_trichotomy c.fields d.fields with less | same | more
  · exact iff_of_false (dateTime_lt less).ne (seconds_lt less).ne
  · obtain ⟨seconds, texts⟩ := of_fields_eq same
    rw [seconds, texts]
    exact iff_of_true rfl rfl
  · exact iff_of_false (dateTime_lt more).ne' (seconds_lt more).ne'

end Clock
end Calendar
end Echo.Lib
