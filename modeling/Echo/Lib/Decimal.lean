import Mathlib

/-! Numbers written in decimal, and text cut at a character. -/
namespace Echo.Lib

section Text

def trimBy (blank : Char → Bool) (text : List Char) : List Char :=
  ((text.dropWhile blank).reverse.dropWhile blank).reverse

def splitOnce (mark : Char) : List Char → Option (List Char × List Char)
  | [] => none
  | c :: text =>
    if c = mark then some ([], text) else (splitOnce mark text).map fun (first, rest) => (c :: first, rest)

theorem splitOnce_append {mark : Char} {first : List Char} (absent : mark ∉ first) (rest : List Char) :
    splitOnce mark (first ++ mark :: rest) = some (first, rest) := by
  induction first with
  | nil => simp [splitOnce]
  | cons c first ih =>
    obtain ⟨apart, absent⟩ := not_or.mp (List.mem_cons.not.mp absent)
    simp [splitOnce, Ne.symm apart, ih absent]

theorem splitOnce_eq_some {mark : Char} {text first rest : List Char} :
    splitOnce mark text = some (first, rest) ↔ text = first ++ mark :: rest ∧ mark ∉ first := by
  constructor
  · intro cut
    induction text generalizing first with
    | nil => cases cut
    | cons c text ih =>
      rw [splitOnce] at cut
      split at cut
      · next here =>
        cases cut
        exact ⟨by rw [here, List.nil_append], List.not_mem_nil⟩
      · next other =>
        obtain ⟨⟨front, back⟩, found, same⟩ := Option.map_eq_some_iff.mp cut
        cases same
        obtain ⟨rfl, absent⟩ := ih found
        exact ⟨rfl, List.mem_cons.not.mpr (not_or.mpr ⟨Ne.symm other, absent⟩)⟩
  · rintro ⟨rfl, absent⟩
    exact splitOnce_append absent rest

theorem trimBy_eq {blank : Char → Bool} {text : List Char} (first : ∀ c ∈ text.head?, blank c = false)
    (last : ∀ c ∈ text.getLast?, blank c = false) : trimBy blank text = text := by
  have kept : ∀ {text : List Char}, (∀ c ∈ text.head?, blank c = false) → text.dropWhile blank = text := by
    intro text clear
    cases text with
    | nil => rfl
    | cons c text => simp [clear c rfl]
  unfold trimBy
  rw [kept first, kept (by simpa using last), List.reverse_reverse]

end Text

section Numbers

def inI64 (n : Int) : Bool := -2 ^ 63 ≤ n && n < 2 ^ 63

def digitsValue (text : List Char) : Option Nat :=
  if text.isEmpty || !text.all Char.isDigit then none else some (Nat.ofDigitChars 10 text 0)

/-- `i64::from_str`. -/
def parseI64 (text : List Char) : Option Int :=
  let value : Option Int :=
    match text with
    | '-' :: digits => (digitsValue digits).map fun n : Nat => -(n : Int)
    | '+' :: digits => (digitsValue digits).map fun n : Nat => (n : Int)
    | digits => (digitsValue digits).map fun n : Nat => (n : Int)
  value.filter inI64

def dropPlus : List Char → List Char
  | '+' :: digits => digits
  | digits => digits

/-- `u64::from_str`. -/
def parseU64 (text : List Char) : Option UInt64 :=
  ((digitsValue (dropPlus text)).filter fun n => n < 2 ^ 64).map UInt64.ofNat

theorem parseU64_eq_some {text : List Char} {n : UInt64} :
    parseU64 text = some n ↔ digitsValue (dropPlus text) = some n.toNat := by
  have small : n.toNat < 2 ^ 64 := n.toNat_lt
  unfold parseU64
  rw [Option.map_eq_some_iff]
  constructor
  · rintro ⟨v, kept, rfl⟩
    obtain ⟨found, fits⟩ := Option.filter_eq_some_iff.mp kept
    rw [found, UInt64.toNat_ofNat_of_lt' (of_decide_eq_true fits)]
  · intro found
    exact ⟨n.toNat, Option.filter_eq_some_iff.mpr ⟨found, decide_eq_true small⟩, UInt64.ofNat_toNat⟩

theorem digitsValue_digits {text : List Char} {n : Nat} (read : digitsValue text = some n) :
    text ≠ [] ∧ ∀ c ∈ text, c.isDigit = true := by
  unfold digitsValue at read
  split at read
  · cases read
  · next proper =>
    simp only [Bool.or_eq_true, Bool.not_eq_true', List.isEmpty_iff, not_or, Bool.not_eq_false] at proper
    exact ⟨proper.1, List.all_eq_true.mp proper.2⟩

theorem dropPlus_digits {text : List Char} (plain : '+' ∉ text) : dropPlus text = text := by
  unfold dropPlus
  split
  · exact absurd List.mem_cons_self plain
  · rfl

theorem mem_signed {text : List Char} {n : Nat} (read : digitsValue (dropPlus text) = some n) {c : Char}
    (inside : c ∈ text) : c = '+' ∨ c.isDigit = true := by
  have digits := (digitsValue_digits read).2
  unfold dropPlus at digits
  split at digits
  · rcases List.mem_cons.mp inside with rfl | there
    · exact .inl rfl
    · exact .inr (digits c there)
  · exact .inr (digits c inside)

theorem parseI64_eq_some {text : List Char} {k : Int} (positive : 0 ≤ k) : parseI64 text = some k ↔
    k < 2 ^ 63 ∧ (digitsValue (dropPlus text) = some k.toNat ∨
      k = 0 ∧ ∃ digits, text = '-' :: digits ∧ digitsValue digits = some 0) := by
  have bound : inI64 k = true ↔ k < 2 ^ 63 := by
    simp only [inI64, Bool.and_eq_true, decide_eq_true_eq]
    omega
  have minus : ∀ digits, digitsValue (dropPlus ('-' :: digits)) = none := by
    intro digits
    have same : dropPlus ('-' :: digits) = '-' :: digits := rfl
    rw [same]
    exact if_pos (by simp)
  unfold parseI64
  rw [Option.filter_eq_some_iff, and_comm]
  refine and_congr bound ?_
  split
  · next digits =>
    rw [minus]
    constructor
    · intro read
      obtain ⟨v, found, same⟩ := Option.map_eq_some_iff.mp read
      obtain rfl : v = 0 := by omega
      exact .inr ⟨by omega, digits, rfl, found⟩
    · rintro (none' | ⟨rfl, _, same, found⟩)
      · cases none'
      · cases same
        rw [found]
        rfl
  · next digits =>
    have same : dropPlus ('+' :: digits) = digits := rfl
    rw [same]
    constructor
    · intro read
      obtain ⟨v, found, rfl⟩ := Option.map_eq_some_iff.mp read
      exact .inl found
    · rintro (found | ⟨-, _, same, -⟩)
      · rw [found, Option.map_some, Int.toNat_of_nonneg positive]
      · cases same
  · next notMinus notPlus =>
    have same : dropPlus text = text := by
      unfold dropPlus
      split
      · exact (notPlus _ rfl).elim
      · rfl
    rw [same]
    constructor
    · intro read
      obtain ⟨v, found, rfl⟩ := Option.map_eq_some_iff.mp read
      exact .inl found
    · rintro (found | ⟨-, _, same, -⟩)
      · rw [found, Option.map_some, Int.toNat_of_nonneg positive]
      · exact (notMinus _ same).elim

theorem mem_toDigits {n : Nat} {c : Char} (inside : c ∈ Nat.toDigits 10 n) : c.isDigit = true :=
  Nat.isDigit_of_mem_toDigits (by decide) (by decide) inside

end Numbers

end Echo.Lib
