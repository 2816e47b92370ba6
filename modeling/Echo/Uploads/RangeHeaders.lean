import Echo.Uploads.Routes

/-! The two range headers: `Range` of a download (`parse_byte_range` of `routes/media.rs`), and `Content-Range` of
an uploaded chunk. Both are read with the integers of the standard library, which let a sign through. -/
namespace Echo.Uploads
open Echo.Lib
open Echo.Server (isWhitespace)

section Downloads

def rangeUnit : List Char := "bytes=".toList

/-- What is asked of a file that is not empty, by the texts before and after the dash. -/
def rangeBounds (s e : List Char) (totalSize : UInt64) : Option (UInt64 × UInt64) :=
  let last := totalSize - 1
  let bounds : Option (UInt64 × UInt64) :=
    if s.isEmpty then
      (parseU64 e).bind fun n => if n = 0 then none else some (totalSize - min n totalSize, last)
    else
      (parseU64 s).bind fun s => if e.isEmpty then some (s, last) else (parseU64 e).map fun e => (s, min e last)
  bounds.bind fun (start, endAt) => if last < start || endAt < start then none else some (start, endAt)

def parseByteRange (header : String) (totalSize : UInt64) : Option (UInt64 × UInt64) :=
  match header.toList.dropPrefix? rangeUnit with
  | none => none
  | some spec =>
    if spec.contains ',' then none
    else
      match splitOnce '-' spec with
      | none => none
      | some (s, e) =>
        if totalSize = 0 then none else rangeBounds s e totalSize

/-- `first-last`, `first-` and `-length`. -/
inductive ByteRange where
  | closed (first last : Nat)
  | tail (first : Nat)
  | suffix (length : Nat)

namespace ByteRange

def Covers (total : Nat) : ByteRange → Nat → Prop
  | closed first last, i => i < total ∧ first ≤ i ∧ i ≤ last
  | tail first, i => i < total ∧ first ≤ i
  | suffix length, i => i < total ∧ total ≤ i + length

/-- Something is selected, from `a` to `b`. -/
def Picks (r : ByteRange) (total a b : Nat) : Prop := (∃ i, r.Covers total i) ∧ ∀ i, r.Covers total i ↔ a ≤ i ∧ i ≤ b

def Fits : ByteRange → Prop
  | closed first last => first < 2 ^ 64 ∧ last < 2 ^ 64
  | tail first => first < 2 ^ 64
  | suffix length => length < 2 ^ 64

def Spells (reads : List Char → Nat → Prop) (header : List Char) : ByteRange → Prop
  | closed first last => ∃ s e, header = rangeUnit ++ s ++ '-' :: e ∧ reads s first ∧ reads e last
  | tail first => ∃ s, header = rangeUnit ++ s ++ ['-'] ∧ reads s first
  | suffix length => ∃ e, header = rangeUnit ++ '-' :: e ∧ reads e length

end ByteRange

def Digits (text : List Char) (n : Nat) : Prop := digitsValue text = some n

def Signed (text : List Char) (n : Nat) : Prop := digitsValue (dropPlus text) = some n

instance (text : List Char) (n : Nat) : Decidable (Signed text n) :=
  inferInstanceAs (Decidable (digitsValue (dropPlus text) = some n))

section Numerals
variable {text : List Char} {n : Nat}

theorem Signed.some' (read : Signed text n) : text ≠ [] := by
  rintro rfl
  cases read

theorem Signed.absent (read : Signed text n) {c : Char} (plus : c ≠ '+') (digit : c.isDigit = false) : c ∉ text := by
  intro inside
  rcases mem_signed read inside with same | same
  · exact plus same
  · rw [digit] at same
    cases same

theorem digits_iff : Digits text n ↔ Signed text n ∧ '+' ∉ text := by
  constructor
  · intro read
    have plain : '+' ∉ text := fun inside => absurd ((digitsValue_digits read).2 _ inside) (by decide)
    refine ⟨?_, plain⟩
    unfold Signed
    rw [dropPlus_digits plain]
    exact read
  · rintro ⟨read, plain⟩
    unfold Signed at read
    rwa [dropPlus_digits plain] at read

end Numerals

section Spelling
variable {header spec s e : List Char} {r r' : ByteRange}

def readRange (s e : List Char) : Option ByteRange :=
  if s.isEmpty then (digitsValue (dropPlus e)).map .suffix
  else (digitsValue (dropPlus s)).bind fun first =>
    if e.isEmpty then some (.tail first) else (digitsValue (dropPlus e)).map (.closed first)

theorem spells_iff : ByteRange.Spells Signed header r ↔
    ∃ spec s e, header = rangeUnit ++ spec ∧ splitOnce '-' spec = some (s, e) ∧ readRange s e = some r := by
  have dash : ∀ {text n}, Signed text n → '-' ∉ text := fun read => read.absent (by decide) (by decide)
  constructor
  · cases r with
    | closed first last =>
      rintro ⟨s, e, rfl, reads, reade⟩
      refine ⟨s ++ '-' :: e, s, e, List.append_assoc .., splitOnce_append (dash reads) e, ?_⟩
      unfold readRange
      rw [if_neg (by simpa using reads.some'), reads, Option.bind_some, if_neg (by simpa using reade.some'), reade]
      rfl
    | tail first =>
      rintro ⟨s, rfl, reads⟩
      refine ⟨s ++ ['-'], s, [], List.append_assoc .., splitOnce_append (dash reads) [], ?_⟩
      unfold readRange
      rw [if_neg (by simpa using reads.some'), reads]
      rfl
    | suffix length =>
      rintro ⟨e, rfl, reade⟩
      refine ⟨'-' :: e, [], e, rfl, splitOnce_append List.not_mem_nil e, ?_⟩
      unfold readRange
      rw [if_pos List.isEmpty_nil, reade]
      rfl
  · rintro ⟨spec, s, e, rfl, cut, read⟩
    obtain ⟨rfl, -⟩ := splitOnce_eq_some.mp cut
    unfold readRange at read
    split at read
    · next none' =>
      obtain rfl := List.isEmpty_iff.mp none'
      obtain ⟨length, reade, rfl⟩ := Option.map_eq_some_iff.mp read
      exact ⟨e, rfl, reade⟩
    · obtain ⟨first, reads, chosen⟩ := Option.bind_eq_some_iff.mp read
      split at chosen
      · next none' =>
        obtain rfl := List.isEmpty_iff.mp none'
        obtain rfl := Option.some.inj chosen
        exact ⟨s, (List.append_assoc ..).symm, reads⟩
      · obtain ⟨last, reade, rfl⟩ := Option.map_eq_some_iff.mp chosen
        exact ⟨s, e, (List.append_assoc ..).symm, reads, reade⟩

theorem spells_unique (one : ByteRange.Spells Signed header r) (other : ByteRange.Spells Signed header r') : r =
    r' := by
  obtain ⟨spec, s, e, rfl, cut, read⟩ := spells_iff.mp one
  obtain ⟨spec', s', e', same, cut', read'⟩ := spells_iff.mp other
  obtain rfl := List.append_cancel_left same
  obtain ⟨rfl, rfl⟩ := Prod.mk.inj (Option.some.inj (cut.symm.trans cut'))
  exact Option.some.inj (read.symm.trans read')

theorem spells_digits : ByteRange.Spells Digits header r ↔ ByteRange.Spells Signed header r ∧ '+' ∉ header := by
  have unit : '+' ∉ rangeUnit := by decide
  have dash : '+' ≠ '-' := by decide
  cases r with
  | closed first last =>
    constructor
    · rintro ⟨s, e, rfl, reads, reade⟩
      obtain ⟨reads, plains⟩ := digits_iff.mp reads
      obtain ⟨reade, plaine⟩ := digits_iff.mp reade
      exact ⟨⟨s, e, rfl, reads, reade⟩, by simp [unit, plains, plaine]⟩
    · rintro ⟨⟨s, e, rfl, reads, reade⟩, plain⟩
      simp only [List.mem_append, List.mem_cons, not_or] at plain
      exact ⟨s, e, rfl, digits_iff.mpr ⟨reads, plain.1.2⟩, digits_iff.mpr ⟨reade, plain.2.2⟩⟩
  | tail first =>
    constructor
    · rintro ⟨s, rfl, reads⟩
      obtain ⟨reads, plains⟩ := digits_iff.mp reads
      exact ⟨⟨s, rfl, reads⟩, by simp [unit, plains]⟩
    · rintro ⟨⟨s, rfl, reads⟩, plain⟩
      simp only [List.mem_append, not_or] at plain
      exact ⟨s, rfl, digits_iff.mpr ⟨reads, plain.1.2⟩⟩
  | suffix length =>
    constructor
    · rintro ⟨e, rfl, reade⟩
      obtain ⟨reade, plaine⟩ := digits_iff.mp reade
      exact ⟨⟨e, rfl, reade⟩, by simp [unit, plaine]⟩
    · rintro ⟨⟨e, rfl, reade⟩, plain⟩
      simp only [List.mem_append, List.mem_cons, not_or] at plain
      exact ⟨e, rfl, digits_iff.mpr ⟨reade, plain.2.2⟩⟩

end Spelling

section Bounds
variable {total a b : Nat}

theorem closed_picks {first last : Nat} : (ByteRange.closed first last).Picks total a b ↔
    first ≤ last ∧ first < total ∧ a = first ∧ b = min last (total - 1) := by
  constructor
  · rintro ⟨⟨i, here⟩, all⟩
    have ats := And.intro (all first) (all (min last (total - 1)))
    have ends := And.intro (all a) (all b)
    simp only [ByteRange.Covers] at here ats ends
    omega
  · rintro ⟨order, inside, rfl, rfl⟩
    refine ⟨⟨a, inside, Nat.le_refl a, order⟩, fun i => ?_⟩
    simp only [ByteRange.Covers]
    omega

theorem tail_picks {first : Nat} : (ByteRange.tail first).Picks total a b ↔
    first < total ∧ a = first ∧ b = total - 1 := by
  constructor
  · rintro ⟨⟨i, here⟩, all⟩
    have ats := And.intro (all first) (all (total - 1))
    have ends := And.intro (all a) (all b)
    simp only [ByteRange.Covers] at here ats ends
    omega
  · rintro ⟨inside, rfl, rfl⟩
    refine ⟨⟨a, inside, Nat.le_refl a⟩, fun i => ?_⟩
    simp only [ByteRange.Covers]
    omega

theorem suffix_picks {length : Nat} : (ByteRange.suffix length).Picks total a b ↔
    0 < length ∧ 0 < total ∧ a = total - length ∧ b = total - 1 := by
  constructor
  · rintro ⟨⟨i, here⟩, all⟩
    have ats := And.intro (all (total - length)) (all (total - 1))
    have ends := And.intro (all a) (all b)
    simp only [ByteRange.Covers] at here ats ends
    omega
  · rintro ⟨some', inside, rfl, rfl⟩
    refine ⟨⟨total - 1, by omega, by omega⟩, fun i => ?_⟩
    simp only [ByteRange.Covers]
    omega

theorem picks_of_covers {r : ByteRange} {i : Nat} (covers : r.Covers total i) :
    ∃ a b, a < total ∧ b < total ∧ r.Picks total a b := by
  cases r with
  | closed first last =>
    simp only [ByteRange.Covers] at covers
    exact ⟨first, min last (total - 1), by omega, by omega, closed_picks.mpr ⟨by omega, by omega, rfl, rfl⟩⟩
  | tail first =>
    simp only [ByteRange.Covers] at covers
    exact ⟨first, total - 1, by omega, by omega, tail_picks.mpr ⟨by omega, rfl, rfl⟩⟩
  | suffix length =>
    simp only [ByteRange.Covers] at covers
    exact ⟨total - length, total - 1, by omega, by omega, suffix_picks.mpr ⟨by omega, by omega, rfl, rfl⟩⟩

end Bounds

section Parsing
variable {s e : List Char} {total a b : UInt64}

theorem toNat_min (x y : UInt64) : (min x y).toNat = min x.toNat y.toNat := by
  have unfolded : min x y = if x ≤ y then x else y := rfl
  rw [unfolded]
  by_cases below : x ≤ y
  · rw [if_pos below, Nat.min_eq_left (UInt64.le_iff_toNat_le.mp below)]
  · rw [if_neg below, Nat.min_eq_right (Nat.le_of_not_le fun less => below (UInt64.le_iff_toNat_le.mpr less))]

theorem parseU64_of_fits {text : List Char} {n : Nat} (read : digitsValue (dropPlus text) = some n)
    (fits : n < 2 ^ 64) :
    ∃ v : UInt64, parseU64 text = some v ∧ v.toNat = n := by
  have same : (UInt64.ofNat n).toNat = n := UInt64.toNat_ofNat_of_lt' fits
  exact ⟨UInt64.ofNat n, parseU64_eq_some.mpr (by rw [read, same]), same⟩

theorem last_toNat (some' : total ≠ 0) : (total - 1).toNat = total.toNat - 1 := by
  refine UInt64.toNat_sub_of_le _ _ (UInt64.le_iff_toNat_le.mpr ?_)
  have positive : total.toNat ≠ 0 := fun none' => some' (UInt64.toNat_inj.mp none')
  change 1 ≤ total.toNat
  omega

theorem checked_eq_some {last start endAt : UInt64} :
    (if last < start || endAt < start then none else some (start, endAt)) = some (a, b) ↔
      start.toNat ≤ last.toNat ∧ start.toNat ≤ endAt.toNat ∧ a.toNat = start.toNat ∧ b.toNat = endAt.toNat := by
  simp only [UInt64.toNat_inj, Bool.or_eq_true, decide_eq_true_eq, UInt64.lt_iff_toNat_lt]
  constructor
  · intro found
    split at found
    · cases found
    · cases found
      exact ⟨by omega, by omega, rfl, rfl⟩
  · rintro ⟨inside, order, rfl, rfl⟩
    exact if_neg (by omega)

theorem rangeBounds_eq_some (some' : total ≠ 0) : rangeBounds s e total = some (a, b) ↔
    ∃ r, readRange s e = some r ∧ r.Fits ∧ r.Picks total.toNat a.toNat b.toNat := by
  have last := last_toNat some'
  have positive : 0 < total.toNat := Nat.pos_of_ne_zero fun none' => some' (UInt64.toNat_inj.mp none')
  unfold rangeBounds readRange
  dsimp only
  by_cases none' : s.isEmpty = true
  · rw [if_pos none', if_pos none']
    constructor
    · intro found
      obtain ⟨bounds, chosen, checked⟩ := Option.bind_eq_some_iff.mp found
      obtain ⟨n, read, chosen⟩ := Option.bind_eq_some_iff.mp chosen
      split at chosen
      · cases chosen
      · next nonzero =>
        cases chosen
        obtain ⟨-, -, start, stop⟩ := checked_eq_some.mp checked
        dsimp only at start stop
        have clipped : (total - min n total).toNat = total.toNat - min n.toNat total.toNat := by
          rw [UInt64.toNat_sub_of_le _ _ (UInt64.le_iff_toNat_le.mpr (by rw [toNat_min]; omega)), toNat_min]
        have apart : n.toNat ≠ 0 := fun same => nonzero (UInt64.toNat_inj.mp same)
        refine ⟨.suffix n.toNat, by rw [parseU64_eq_some.mp read]; rfl, n.toNat_lt, suffix_picks.mpr ?_⟩
        omega
    · rintro ⟨r, read, fits, picks⟩
      obtain ⟨length, reade, rfl⟩ := Option.map_eq_some_iff.mp read
      obtain ⟨n, parsed, rfl⟩ := parseU64_of_fits reade fits
      obtain ⟨nonzero, -, start, stop⟩ := suffix_picks.mp picks
      have apart : n ≠ 0 := by
        rintro rfl
        exact absurd nonzero (by decide)
      have clipped : (total - min n total).toNat = total.toNat - min n.toNat total.toNat := by
        rw [UInt64.toNat_sub_of_le _ _ (UInt64.le_iff_toNat_le.mpr (by rw [toNat_min]; omega)), toNat_min]
      rw [parsed, Option.bind_some, if_neg apart, Option.bind_some]
      refine checked_eq_some.mpr ?_
      dsimp only
      omega
  · rw [if_neg none', if_neg none']
    constructor
    · intro found
      obtain ⟨bounds, chosen, checked⟩ := Option.bind_eq_some_iff.mp found
      obtain ⟨first, reads, chosen⟩ := Option.bind_eq_some_iff.mp chosen
      rw [parseU64_eq_some.mp reads, Option.bind_some]
      split at chosen
      · next open' =>
        cases chosen
        obtain ⟨inside, -, start, stop⟩ := checked_eq_some.mp checked
        dsimp only at inside start stop
        refine ⟨.tail first.toNat, if_pos open', first.toNat_lt, tail_picks.mpr ?_⟩
        omega
      · next closed =>
        obtain ⟨endAt, reade, rfl⟩ := Option.map_eq_some_iff.mp chosen
        obtain ⟨inside, order, start, stop⟩ := checked_eq_some.mp checked
        dsimp only at inside order start stop
        rw [toNat_min] at order stop
        rw [if_neg closed, parseU64_eq_some.mp reade]
        refine ⟨.closed first.toNat endAt.toNat, rfl, ⟨first.toNat_lt, endAt.toNat_lt⟩, closed_picks.mpr ?_⟩
        omega
    · rintro ⟨r, read, fits, picks⟩
      obtain ⟨first, reads, chosen⟩ := Option.bind_eq_some_iff.mp read
      split at chosen
      · next open' =>
        cases chosen
        obtain ⟨v, parsed, rfl⟩ := parseU64_of_fits reads fits
        obtain ⟨inside, start, stop⟩ := tail_picks.mp picks
        rw [parsed, Option.bind_some, if_pos open', Option.bind_some]
        refine checked_eq_some.mpr ?_
        dsimp only
        omega
      · next closed =>
        obtain ⟨endAt, reade, rfl⟩ := Option.map_eq_some_iff.mp chosen
        obtain ⟨v, parsed, rfl⟩ := parseU64_of_fits reads fits.1
        obtain ⟨w, parsed', rfl⟩ := parseU64_of_fits reade fits.2
        obtain ⟨order, inside, start, stop⟩ := closed_picks.mp picks
        rw [parsed, Option.bind_some, if_neg closed, parsed', Option.map_some, Option.bind_some]
        refine checked_eq_some.mpr ?_
        dsimp only
        rw [toNat_min]
        omega

theorem parseByteRange_eq_some {header : String} : parseByteRange header total = some (a, b) ↔
    ∃ r, ByteRange.Spells Signed header.toList r ∧ r.Fits ∧ r.Picks total.toNat a.toNat b.toNat := by
  unfold parseByteRange
  constructor
  · intro found
    split at found
    · cases found
    next spec dropped =>
    obtain ⟨unit, whole, same⟩ := List.dropPrefix?_eq_some_iff.mp dropped
    obtain rfl := eq_of_beq same
    split at found
    · cases found
    split at found
    · cases found
    next s e cut =>
    split at found
    · cases found
    next some' =>
    obtain ⟨r, read, fits, picks⟩ := (rangeBounds_eq_some some').mp found
    exact ⟨r, spells_iff.mpr ⟨spec, s, e, whole, cut, read⟩, fits, picks⟩
  · rintro ⟨r, spells, fits, picks⟩
    obtain ⟨spec, s, e, whole, cut, read⟩ := spells_iff.mp spells
    have some' : total ≠ 0 := by
      rintro rfl
      obtain ⟨⟨i, covers⟩, -⟩ := picks
      cases r with
      | closed | tail | suffix => exact absurd covers.1 (Nat.not_lt_zero i)
    have single : spec.contains ',' = false := by
      obtain ⟨rfl, -⟩ := splitOnce_eq_some.mp cut
      have comma : ∀ {text n}, Signed text n → ',' ∉ text := fun read => read.absent (by decide) (by decide)
      have halves : ',' ∉ s ∧ ',' ∉ e := by
        unfold readRange at read
        split at read
        · next none' =>
          obtain ⟨length, reade, -⟩ := Option.map_eq_some_iff.mp read
          rw [List.isEmpty_iff.mp none']
          exact ⟨List.not_mem_nil, comma reade⟩
        · obtain ⟨first, reads, chosen⟩ := Option.bind_eq_some_iff.mp read
          refine ⟨comma reads, ?_⟩
          split at chosen
          · next none' =>
            rw [List.isEmpty_iff.mp none']
            exact List.not_mem_nil
          · obtain ⟨last, reade, -⟩ := Option.map_eq_some_iff.mp chosen
            exact comma reade
      simp [halves.1, halves.2]
    have dropped : header.toList.dropPrefix? rangeUnit = some spec :=
      List.dropPrefix?_eq_some_iff.mpr ⟨rangeUnit, whole, BEq.rfl⟩
    simp only [dropped, single, cut, Bool.false_eq_true, if_false, if_neg some']
    exact (rangeBounds_eq_some some').mpr ⟨r, read, fits, picks⟩

/-- The parser agrees with the grammar unless exactly one of the two is there: a plus sign, a number beyond 64 bits. -/
theorem parseByteRange_iff (header : String) (total : UInt64) :
    (∀ a b : UInt64, parseByteRange header total = some (a, b) ↔
        ∃ r, ByteRange.Spells Digits header.toList r ∧ r.Picks total.toNat a.toNat b.toNat) ↔
      ∀ r, ByteRange.Spells Signed header.toList r → (∃ i, r.Covers total.toNat i) →
          (r.Fits ↔ '+' ∉ header.toList) := by
  constructor
  · intro agrees r spells selects
    obtain ⟨i, covers⟩ := selects
    obtain ⟨a, b, small, small', picks⟩ := picks_of_covers covers
    have bound : total.toNat < 2 ^ 64 := total.toNat_lt
    have agrees := agrees (UInt64.ofNat a) (UInt64.ofNat b)
    rw [parseByteRange_eq_some, UInt64.toNat_ofNat_of_lt' (small.trans bound),
      UInt64.toNat_ofNat_of_lt' (small'.trans bound)] at agrees
    constructor
    · intro fits
      obtain ⟨r', spells', -⟩ := agrees.mp ⟨r, spells, fits, picks⟩
      exact (spells_digits.mp spells').2
    · intro plain
      obtain ⟨r', spells', fits, -⟩ := agrees.mpr ⟨r, spells_digits.mpr ⟨spells, plain⟩, picks⟩
      rwa [spells_unique spells spells']
  · intro proper a b
    rw [parseByteRange_eq_some]
    constructor
    · rintro ⟨r, spells, fits, picks⟩
      exact ⟨r, spells_digits.mpr ⟨spells, (proper r spells picks.1).mp fits⟩, picks⟩
    · rintro ⟨r, spells, picks⟩
      obtain ⟨spells, plain⟩ := spells_digits.mp spells
      exact ⟨r, spells, (proper r spells picks.1).mpr plain, picks⟩

end Parsing

end Downloads

section Chunks

def trimmed (header : String) : List Char := trimBy isWhitespace header.toList

/-- `bytes first-last/total`, given how the first number is written and how the others are. -/
def ReadsContentRange (first others : List Char → Int → Prop) (header : String) (r : ContentRange) : Prop :=
  ∃ s e t, trimmed header = bytesUnit ++ (s ++ '-' :: e ++ '/' :: t) ∧ first s r.start ∧ others e r.endAt ∧
    others t r.total ∧ r.start ≤ r.endAt ∧ r.endAt < r.total ∧ r.total < 2 ^ 63

def PlainNumber (text : List Char) (n : Int) : Prop := 0 ≤ n ∧ Digits text n.toNat

def PlusNumber (text : List Char) (n : Int) : Prop := 0 ≤ n ∧ Signed text n.toNat

/-- A sign of either kind; with a minus sign only zero is not below zero. -/
def SignedNumber (text : List Char) (n : Int) : Prop :=
  PlusNumber text n ∨ n = 0 ∧ ∃ digits, text = '-' :: digits ∧ Digits digits 0

section Numbers
variable {text : List Char} {n : Int}

theorem parseI64_signed (positive : 0 ≤ n) : parseI64 text = some n ↔ n < 2 ^ 63 ∧ SignedNumber text n := by
  rw [parseI64_eq_some positive, SignedNumber, PlusNumber]
  exact and_congr Iff.rfl (or_congr (and_iff_right positive).symm Iff.rfl)

theorem SignedNumber.absent (signed : SignedNumber text n) {c : Char} (plus : c ≠ '+') (minus : c ≠ '-')
    (digit : c.isDigit = false) : c ∉ text := by
  rcases signed with ⟨-, signed⟩ | ⟨-, digits, rfl, zero⟩
  · exact signed.absent plus digit
  · have zeros := (digits_iff.mp zero).1
    exact List.mem_cons.not.mpr (not_or.mpr ⟨minus, zeros.absent plus digit⟩)

theorem plainNumber_iff : PlainNumber text n ↔ SignedNumber text n ∧ '+' ∉ text ∧ '-' ∉ text := by
  constructor
  · rintro ⟨positive, digits⟩
    obtain ⟨signed, plain⟩ := digits_iff.mp digits
    exact ⟨.inl ⟨positive, signed⟩, plain, signed.absent (by decide) (by decide)⟩
  · rintro ⟨⟨positive, signed⟩ | ⟨-, digits, rfl, -⟩, plus, minus⟩
    · exact ⟨positive, digits_iff.mpr ⟨signed, plus⟩⟩
    · exact absurd List.mem_cons_self minus

theorem plusNumber_iff : PlusNumber text n ↔ SignedNumber text n ∧ '-' ∉ text := by
  constructor
  · rintro ⟨positive, signed⟩
    exact ⟨.inl ⟨positive, signed⟩, signed.absent (by decide) (by decide)⟩
  · rintro ⟨plus | ⟨-, digits, rfl, -⟩, minus⟩
    · exact plus
    · exact absurd List.mem_cons_self minus

end Numbers

variable {header : String} {r : ContentRange}

theorem parseContentRange_eq_some :
    parseContentRange header = some r ↔ ReadsContentRange PlusNumber SignedNumber header r := by
  unfold parseContentRange ReadsContentRange trimmed
  constructor
  · intro found
    split at found
    · cases found
    next spec dropped =>
    obtain ⟨unit, whole, same⟩ := List.dropPrefix?_eq_some_iff.mp dropped
    obtain rfl := eq_of_beq same
    split at found
    · cases found
    next range t cut =>
    split at found
    · cases found
    next s e cut' =>
    split at found
    · next start endAt total reads reade readt =>
      split at found
      · cases found
      next proper =>
      cases found
      simp only [Bool.or_eq_true, decide_eq_true_eq] at proper
      obtain ⟨rfl, -⟩ := splitOnce_eq_some.mp cut
      obtain ⟨rfl, undashed⟩ := splitOnce_eq_some.mp cut'
      obtain ⟨-, signeds⟩ := (parseI64_signed (by omega)).mp reads
      obtain ⟨-, signede⟩ := (parseI64_signed (by omega)).mp reade
      obtain ⟨bound, signedt⟩ := (parseI64_signed (by omega)).mp readt
      have order : start ≤ endAt := by omega
      have inside : endAt < total := by omega
      exact ⟨s, e, t, whole, plusNumber_iff.mpr ⟨signeds, undashed⟩, signede, signedt, order, inside, bound⟩
    · cases found
  · rintro ⟨s, e, t, whole, plus, signede, signedt, order, inside, bound⟩
    obtain ⟨signeds, undashed⟩ := plusNumber_iff.mp plus
    have positive : 0 ≤ r.start := plus.1
    have slash : '/' ∉ s ++ '-' :: e := by
      have first := signeds.absent (c := '/') (by decide) (by decide) (by decide)
      have last := signede.absent (c := '/') (by decide) (by decide) (by decide)
      simp [first, last]
    have reads := (parseI64_signed positive).mpr ⟨by omega, signeds⟩
    have reade := (parseI64_signed (n := r.endAt) (by omega)).mpr ⟨by omega, signede⟩
    have readt := (parseI64_signed (n := r.total) (by omega)).mpr ⟨bound, signedt⟩
    have dropped : (trimBy isWhitespace header.toList).dropPrefix? bytesUnit = some (s ++ '-' :: e ++ '/' :: t) :=
      List.dropPrefix?_eq_some_iff.mpr ⟨bytesUnit, whole, BEq.rfl⟩
    have cut : splitOnce '/' (s ++ '-' :: e ++ '/' :: t) = some (s ++ '-' :: e, t) := splitOnce_append slash t
    have cut' : splitOnce '-' (s ++ '-' :: e) = some (s, e) := splitOnce_append undashed e
    have fine : ¬ (decide (r.start < 0) || decide (r.endAt < r.start) || decide (r.total ≤ 0) ||
        decide (r.total ≤ r.endAt)) = true := by
      simp only [Bool.or_eq_true, decide_eq_true_eq]
      omega
    simp only [dropped, cut, cut', reads, reade, readt, if_neg fine]

theorem parseContentRange_iff (header : String) :
    (∀ r, parseContentRange header = some r ↔ ReadsContentRange PlainNumber PlainNumber header r) ↔
      ∀ r, ReadsContentRange PlusNumber SignedNumber header r → '+' ∉ trimmed header ∧ (trimmed header).count '-' =
          1 := by
  have unit : '+' ∉ bytesUnit ∧ bytesUnit.count '-' = 0 := by decide
  constructor
  · intro agrees r read
    obtain ⟨s, e, t, whole, plains, plaine, plaint, -⟩ := (agrees r).mp (parseContentRange_eq_some.mpr read)
    obtain ⟨-, pluss, minuss⟩ := plainNumber_iff.mp plains
    obtain ⟨-, pluse, minuse⟩ := plainNumber_iff.mp plaine
    obtain ⟨-, plust, minust⟩ := plainNumber_iff.mp plaint
    rw [whole]
    constructor
    · simp [unit.1, pluss, pluse, plust]
    · simp [unit.2, List.count_eq_zero.mpr minuss, List.count_eq_zero.mpr minuse, List.count_eq_zero.mpr minust]
  · intro proper r
    rw [parseContentRange_eq_some]
    constructor
    · intro read
      obtain ⟨plus, single⟩ := proper r read
      obtain ⟨s, e, t, whole, plusn, signede, signedt, bounds⟩ := read
      obtain ⟨signeds, minuss⟩ := plusNumber_iff.mp plusn
      rw [whole] at plus single
      simp only [List.mem_append, List.mem_cons, not_or] at plus
      have dashes : e.count '-' = 0 ∧ t.count '-' = 0 := by
        simpa [List.count_append, unit.2, List.count_eq_zero.mpr minuss] using single
      refine ⟨s, e, t, whole, plainNumber_iff.mpr ⟨signeds, plus.2.1.1, minuss⟩, ?_, ?_, bounds⟩
      · exact plainNumber_iff.mpr ⟨signede, plus.2.1.2.2, List.count_eq_zero.mp dashes.1⟩
      · exact plainNumber_iff.mpr ⟨signedt, plus.2.2.2, List.count_eq_zero.mp dashes.2⟩
    · rintro ⟨s, e, t, whole, plains, plaine, plaint, bounds⟩
      obtain ⟨signeds, -, minuss⟩ := plainNumber_iff.mp plains
      exact ⟨s, e, t, whole, plusNumber_iff.mpr ⟨signeds, minuss⟩, (plainNumber_iff.mp plaine).1,
        (plainNumber_iff.mp plaint).1, bounds⟩

theorem parseContentRange_inI64 (found : parseContentRange header = some r) :
    inI64 (r.endAt - r.start + 1) = true ∧ inI64 (r.endAt + 1) = true := by
  obtain ⟨s, e, t, -, ⟨positive, -⟩, -, -, order, inside, bound⟩ := parseContentRange_eq_some.mp found
  simp only [inI64, Bool.and_eq_true, decide_eq_true_eq]
  omega

end Chunks

/-- A header of a download is read as the grammar has it unless it has a plus sign or a number beyond 64 bits, and not
both; one of a chunk unless it has a sign before a number. No sum of the caller overflows. -/
theorem range_headers (header : String) (total : UInt64) :
    ((∀ a b : UInt64, parseByteRange header total = some (a, b) ↔
          ∃ r, ByteRange.Spells Digits header.toList r ∧ r.Picks total.toNat a.toNat b.toNat) ↔
        ∀ r, ByteRange.Spells Signed header.toList r → (∃ i, r.Covers total.toNat i) →
          (r.Fits ↔ '+' ∉ header.toList)) ∧
      ((∀ r, parseContentRange header = some r ↔ ReadsContentRange PlainNumber PlainNumber header r) ↔
        ∀ r, ReadsContentRange PlusNumber SignedNumber header r →
          '+' ∉ trimmed header ∧ (trimmed header).count '-' = 1) ∧
      ∀ r, parseContentRange header = some r →
        inI64 (r.endAt - r.start + 1) = true ∧ inI64 (r.endAt + 1) = true :=
  ⟨parseByteRange_iff header total, parseContentRange_iff header, fun _ => parseContentRange_inI64⟩

section Samples

theorem closed_spelled : ByteRange.Spells Signed "bytes=2-14".toList (.closed 2 14) :=
  ⟨['2'], ['1', '4'], by decide, by decide +kernel, by decide +kernel⟩

theorem range_headers_sample :
    (parseByteRange "bytes=2-14" 10 = some (2, 9) ↔
        ∃ r, ByteRange.Spells Digits "bytes=2-14".toList r ∧ r.Picks 10 2 9) ∧
      inI64 (4 - 2 + 1) = true := by
  refine ⟨(range_headers "bytes=2-14" 10).1.mpr (fun r spells _ => ?_) 2 9, ?_⟩
  · obtain rfl := spells_unique spells closed_spelled
    exact iff_of_true ⟨by decide, by decide⟩ (by decide)
  · exact ((range_headers "bytes 2-4/10" 10).2.2 ⟨2, 4, 10⟩ (by decide +kernel)).1

/-- A plus sign. -/
theorem range_headers_lenient :
    ¬ ((∀ (header : String) (total a b : UInt64), parseByteRange header total = some (a, b) ↔
          ∃ r, ByteRange.Spells Digits header.toList r ∧ r.Picks total.toNat a.toNat b.toNat) ∧
        ∀ header r, parseContentRange header = some r ↔ ReadsContentRange PlainNumber PlainNumber header r) := by
  rintro ⟨downloads, -⟩
  obtain ⟨r, spells, -⟩ := (downloads "bytes=+0-4" 10 0 4).mp (by decide +kernel)
  exact (spells_digits.mp spells).2 (by decide)

end Samples

end Echo.Uploads
