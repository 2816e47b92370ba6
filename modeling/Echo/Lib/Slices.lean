import Mathlib
import Echo.Lib.Search

/-! Texts cut at byte offsets of their UTF-8 encoding, as `str` is: an offset inside a character is a panic, here
`none`. -/
namespace Echo.Lib
variable {text a b before middle after pattern : List Char} {n m : Nat}

def byteLength (text : List Char) : Nat := (text.map Char.utf8Size).sum

@[simp] theorem byteLength_nil : byteLength [] = 0 := rfl

@[simp] theorem byteLength_cons (c : Char) (text : List Char) : byteLength (c :: text) =
    c.utf8Size + byteLength text := by
  rw [byteLength, List.map_cons, List.sum_cons, byteLength]

@[simp] theorem byteLength_append (a b : List Char) : byteLength (a ++ b) = byteLength a + byteLength b := by
  rw [byteLength, List.map_append, List.sum_append, byteLength, byteLength]

def splitAtByte : Nat → List Char → Option (List Char × List Char)
  | 0, text => some ([], text)
  | _ + 1, [] => none
  | n + 1, c :: text =>
    if c.utf8Size ≤ n + 1 then (splitAtByte (n + 1 - c.utf8Size) text).map fun (a, b) => (c :: a, b) else none

def IsCharBoundary (text : List Char) (n : Nat) : Prop := (splitAtByte n text).isSome = true

instance (text : List Char) (n : Nat) : Decidable (IsCharBoundary text n) :=
  inferInstanceAs (Decidable ((splitAtByte n text).isSome = true))

theorem splitAtByte_eq_some : splitAtByte n text = some (a, b) ↔ text = a ++ b ∧ byteLength a = n := by
  induction text generalizing n a with
  | nil =>
    cases n with
    | zero =>
      rw [splitAtByte, Option.some.injEq, Prod.mk.injEq]
      constructor
      · rintro ⟨rfl, rfl⟩
        exact ⟨rfl, rfl⟩
      · rintro ⟨whole, -⟩
        exact ⟨(List.append_eq_nil_iff.mp whole.symm).1.symm, (List.append_eq_nil_iff.mp whole.symm).2.symm⟩
    | succ n =>
      refine iff_of_false (by rintro ⟨⟩) ?_
      rintro ⟨whole, size⟩
      rw [(List.append_eq_nil_iff.mp whole.symm).1] at size
      cases size
  | cons c text ih =>
    have positive : 0 < c.utf8Size := c.utf8Size_pos
    cases n with
    | zero =>
      rw [splitAtByte, Option.some.injEq, Prod.mk.injEq]
      constructor
      · rintro ⟨rfl, rfl⟩
        exact ⟨rfl, rfl⟩
      · rintro ⟨whole, size⟩
        cases a with
        | nil => exact ⟨rfl, whole⟩
        | cons d a =>
          have positive : 0 < d.utf8Size := d.utf8Size_pos
          rw [byteLength_cons] at size
          omega
    | succ n =>
      rw [splitAtByte]
      by_cases fits : c.utf8Size ≤ n + 1
      · rw [if_pos fits, Option.map_eq_some_iff]
        constructor
        · rintro ⟨⟨a, b⟩, found, same⟩
          cases same
          obtain ⟨rfl, size⟩ := ih.mp found
          exact ⟨rfl, by rw [byteLength_cons]; omega⟩
        · rintro ⟨whole, size⟩
          cases a with
          | nil => cases size
          | cons d a =>
            obtain ⟨rfl, rest⟩ := List.cons.inj whole
            rw [byteLength_cons] at size
            exact ⟨(a, b), ih.mpr ⟨rest, by omega⟩, rfl⟩
      · rw [if_neg fits]
        refine iff_of_false (by rintro ⟨⟩) ?_
        rintro ⟨whole, size⟩
        cases a with
        | nil => cases size
        | cons d a =>
          obtain ⟨rfl, -⟩ := List.cons.inj whole
          rw [byteLength_cons] at size
          omega

theorem splitAtByte_append (a b : List Char) : splitAtByte (byteLength a) (a ++ b) = some (a, b) :=
  splitAtByte_eq_some.mpr ⟨rfl, rfl⟩

/-- `text[a..b]`. -/
def slice (text : List Char) (first last : Nat) : Option (List Char) :=
  (splitAtByte last text).bind fun (front, _) => (splitAtByte first front).map Prod.snd

/-- `text[a..]`. -/
def sliceFrom (text : List Char) (first : Nat) : Option (List Char) := (splitAtByte first text).map Prod.snd

theorem slice_append (before middle after : List Char) :
    slice (before ++ middle ++ after) (byteLength before) (byteLength before + byteLength middle) = some middle := by
  have last := splitAtByte_append (before ++ middle) after
  rw [byteLength_append] at last
  rw [slice, last, Option.bind_some]
  dsimp only
  rw [splitAtByte_append]
  rfl

theorem sliceFrom_append (before after : List Char) : sliceFrom (before ++ after) (byteLength before) = some after := by
  rw [sliceFrom, splitAtByte_append]
  rfl

theorem splitAtByte_add (before after : List Char) (n : Nat) : splitAtByte (byteLength before + n) (before ++ after) =
    (splitAtByte n after).map fun (a, b) => (before ++ a, b) := by
  induction before with
  | nil =>
    rw [byteLength_nil, Nat.zero_add]
    exact Option.map_id'.symm
  | cons c before ih =>
    obtain ⟨size, same⟩ := Nat.exists_eq_succ_of_ne_zero (Nat.ne_of_gt c.utf8Size_pos)
    have total : byteLength (c :: before) + n = byteLength before + n + size + 1 := by
      rw [byteLength_cons]
      omega
    have fits : c.utf8Size ≤ byteLength before + n + size + 1 := by omega
    have rest : byteLength before + n + size + 1 - c.utf8Size = byteLength before + n := by omega
    rw [total, List.cons_append, splitAtByte, if_pos fits, rest, ih, Option.map_map]
    rfl

theorem slice_boundary (before after : List Char) (n : Nat) :
    slice (before ++ after) (byteLength before) (byteLength before + n) = (splitAtByte n after).map Prod.fst := by
  rw [slice, splitAtByte_add]
  cases splitAtByte n after with
  | none => rfl
  | some parts =>
    simp only [Option.map_some, Option.bind_some]
    rw [splitAtByte_append]
    rfl

theorem isCharBoundary_add {before after : List Char} {n : Nat} :
    IsCharBoundary (before ++ after) (byteLength before + n) ↔ IsCharBoundary after n := by
  rw [IsCharBoundary, splitAtByte_add, Option.isSome_map, IsCharBoundary]

theorem isCharBoundary_end (text : List Char) : IsCharBoundary text (byteLength text) := by
  have whole : splitAtByte (byteLength text) (text ++ []) = some (text, []) := splitAtByte_append text []
  rw [List.append_nil] at whole
  rw [IsCharBoundary, whole]
  rfl

def strFind (pattern text : List Char) : Option Nat := (cutAt pattern text).map fun (before, _) => byteLength before

/-- The largest boundary up to `n`. -/
def floorCharBoundary : Nat → List Char → Nat
  | _, [] => 0
  | n, c :: text => if c.utf8Size ≤ n then c.utf8Size + floorCharBoundary (n - c.utf8Size) text else 0

theorem floorCharBoundary_le (n : Nat) (text : List Char) : floorCharBoundary n text ≤ n := by
  induction text generalizing n with
  | nil => exact Nat.zero_le n
  | cons c text ih =>
    unfold floorCharBoundary
    split
    · next fits =>
      have rest := ih (n - c.utf8Size)
      omega
    · exact Nat.zero_le n

theorem floorCharBoundary_splits (n : Nat) (text : List Char) :
    ∃ a b, text = a ++ b ∧ byteLength a = floorCharBoundary n text := by
  induction text generalizing n with
  | nil => exact ⟨[], [], rfl, rfl⟩
  | cons c text ih =>
    unfold floorCharBoundary
    split
    · obtain ⟨a, b, rfl, size⟩ := ih (n - c.utf8Size)
      exact ⟨c :: a, b, rfl, by rw [byteLength_cons, size]⟩
    · exact ⟨[], c :: text, rfl, rfl⟩

end Echo.Lib
