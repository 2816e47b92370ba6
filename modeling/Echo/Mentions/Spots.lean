import Mathlib
import Echo.Mentions.Scanning

/-! What the scanners see at one `@` of a content, said of the characters around it. -/
namespace Echo.Mentions
open Echo.Lib

/-- What the capital I with a dot becomes; some of the platforms of the client keep the dot. -/
def dottedLower (keepsDot : Bool) : List Char := if keepsDot then ['i', dotAbove] else ['i']

section Neighbours
variable (isWord : Char → Bool) (dotted : List Char)

def endsWord (c : Char) : Bool :=
  if c = kelvin then true
  else if c = dottedI then dotted.getLast?.any isWord
  else isWord c

/-- The word of ASCII characters that the text starts with, in lower case. -/
def asciiToken (text : List Char) : List Char := (text.takeWhile isAsciiWord).map Char.toLower

/-- The same of the text in lower case, where two letters more are of ASCII. -/
def wideToken : List Char → List Char
  | [] => []
  | c :: text =>
    if isAsciiWord c then c.toLower :: wideToken text
    else if c = kelvin then 'k' :: wideToken text
    else if c = dottedI then 'i' :: if dotted = ['i'] then wideToken text else []
    else []

def following (text : List Char) : Option Char := (text.dropWhile isAsciiWord).head?

def foreign (neighbour : Option Char) : Prop := neighbour = some kelvin ∨ neighbour = some dottedI

end Neighbours

section Ascii

theorem ascii_forall {P : Char → Prop} (all : ∀ n < 128, P (Char.ofNat n)) {c : Char} (ascii : c.toNat < 128) :
    P c := by
  have held := all c.toNat ascii
  rwa [Char.ofNat_toNat] at held

theorem isAsciiWord_ascii {c : Char} (word : isAsciiWord c = true) : c.toNat < 128 := by
  simp only [isAsciiWord, Char.isAlphanum, Char.isAlpha, Char.isUpper, Char.isLower, Char.isDigit, Bool.or_eq_true,
    Bool.and_eq_true, decide_eq_true_eq, beq_iff_eq] at word
  rcases word with ((⟨-, high⟩ | ⟨-, high⟩) | ⟨-, high⟩) | rfl
  · exact Nat.lt_of_le_of_lt (UInt32.le_iff_toNat_le.mp high) (by decide)
  · exact Nat.lt_of_le_of_lt (UInt32.le_iff_toNat_le.mp high) (by decide)
  · exact Nat.lt_of_le_of_lt (UInt32.le_iff_toNat_le.mp high) (by decide)
  · decide

theorem isAsciiWord_wide {c : Char} (wide : 128 ≤ c.toNat) : isAsciiWord c = false := by
  cases known : isAsciiWord c with
  | false => rfl
  | true => exact absurd (isAsciiWord_ascii known) (Nat.not_lt.mpr wide)

theorem isAsciiWord_toLower {c : Char} (ascii : c.toNat < 128) : isAsciiWord c.toLower = isAsciiWord c :=
  ascii_forall (P := fun c => isAsciiWord c.toLower = isAsciiWord c) (by decide +kernel) ascii

theorem toLower_ascii {c : Char} (ascii : c.toNat < 128) : c.toLower.toNat < 128 :=
  ascii_forall (P := fun c => c.toLower.toNat < 128) (by decide +kernel) ascii

theorem toLower_at {c : Char} (ascii : c.toNat < 128) : c.toLower = '@' ↔ c = '@' :=
  ascii_forall (P := fun c => c.toLower = '@' ↔ c = '@') (by decide +kernel) ascii

end Ascii

section Steady
variable {alnum : Alphanumeric} {dotted : List Char} {isWord : Char → Bool}

structure Steady (alnum : Alphanumeric) (isWord : Char → Bool) : Prop where
  lower : ∀ c : Char, c.toNat < 128 → isWord c.toLower = isWord c
  k : isWord 'k' = true
  i : isWord 'i' = true
  same : ∀ c d : Char, 128 ≤ c.toNat → 128 ≤ d.toNat → alnum.holds d = alnum.holds c → isWord d = isWord c

theorem steady_ascii (alnum : Alphanumeric) : Steady alnum isAsciiWord where
  lower := fun _ ascii => isAsciiWord_toLower ascii
  k := by decide
  i := by decide
  same := fun _ _ wide wide' _ => by rw [isAsciiWord_wide wide, isAsciiWord_wide wide']

theorem Alphanumeric.word_ascii (alnum : Alphanumeric) {c : Char} (ascii : c.toNat < 128) :
    alnum.word c = isAsciiWord c := by
  rw [Alphanumeric.word, isAsciiWord, alnum.ascii c ascii]

theorem Alphanumeric.word_of_ascii (alnum : Alphanumeric) {c : Char} (word : isAsciiWord c = true) :
    alnum.word c = true := by
  rw [alnum.word_ascii (isAsciiWord_ascii word)]
  exact word

theorem steady_word (alnum : Alphanumeric) : Steady alnum alnum.word where
  lower := fun c ascii => by
    rw [alnum.word_ascii ascii, alnum.word_ascii (toLower_ascii ascii), isAsciiWord_toLower ascii]
  k := alnum.word_of_ascii (by decide)
  i := alnum.word_of_ascii (by decide)
  same := fun c d wide wide' alike => by
    have noted : ∀ e : Char, 128 ≤ e.toNat → (e == '_') = false := by
      intro e wide
      rw [beq_eq_false_iff_ne]
      rintro rfl
      exact absurd wide (by decide)
    rw [Alphanumeric.word, Alphanumeric.word, alike, noted c wide, noted d wide']

end Steady

section Images
variable {alnum : Alphanumeric} {dotted : List Char} {isWord : Char → Bool} {c : Char} {out : List Char}

theorem Image.ascii_eq (image : Image alnum dotted c out) (ascii : c.toNat < 128) : out = [c.toLower] := by
  cases image with
  | ascii => rfl
  | kelvin | dottedI => exact absurd ascii (by decide)
  | other wide => exact absurd ascii (Nat.not_lt.mpr wide)

theorem Image.at_only (image : Image alnum dotted c out) (absent : '@' ∉ dotted) (has : '@' ∈ out) :
    c = '@' ∧ out = ['@'] := by
  cases image with
  | ascii ascii =>
    have same : c = '@' := (toLower_at ascii).mp (List.mem_singleton.mp has).symm
    exact ⟨same, by rw [same]; rfl⟩
  | kelvin => exact absurd has (by decide)
  | dottedI => exact absurd has absent
  | other _ _ _ wide =>
    rw [← List.mem_singleton.mp has] at wide
    exact absurd wide (by decide)

theorem Image.ne_nil (image : Image alnum dotted c out) (kept : dotted ≠ []) : out ≠ [] := by
  cases image with
  | dottedI => exact kept
  | ascii | kelvin | other => exact List.cons_ne_nil _ _

theorem Image.ends (image : Image alnum dotted c out) (steady : Steady alnum isWord) :
    out.getLast?.any isWord = endsWord isWord dotted c := by
  have plain : ∀ {e : Char}, e ≠ Mentions.kelvin → e ≠ Mentions.dottedI → endsWord isWord dotted e = isWord e := by
    intro e first second
    rw [endsWord, if_neg first, if_neg second]
  cases image with
  | ascii ascii =>
    rw [plain (by rintro rfl; exact absurd ascii (by decide)) (by rintro rfl; exact absurd ascii (by decide))]
    exact steady.lower c ascii
  | kelvin => exact steady.k
  | dottedI => rfl
  | other wide first second wide' alike =>
    rw [plain first second]
    exact steady.same _ _ wide wide' alike

end Images

section Letters
variable {alnum : Alphanumeric} {dotted : List Char} {isWord : Char → Bool}
variable {letters front back : List (Char × List Char)} {word text : List Char}

theorem split_letters (only : ∀ x ∈ letters, '@' ∈ x.2 → x = ('@', ['@'])) {b t : List Char}
    (whole : letters.flatMap Prod.snd = b ++ '@' :: t) : ∃ front back, letters = front ++ ('@', ['@']) :: back ∧
      front.flatMap Prod.snd = b ∧ back.flatMap Prod.snd = t := by
  induction letters generalizing b with
  | nil => exact absurd whole.symm (by simp)
  | cons x letters ih =>
    obtain ⟨first, rest⟩ := List.forall_mem_cons.mp only
    rw [List.flatMap_cons] at whole
    have onward : ∀ m, b = x.2 ++ m → letters.flatMap Prod.snd = m ++ '@' :: t → ∃ front back,
        x :: letters = front ++ ('@', ['@']) :: back ∧ front.flatMap Prod.snd = b ∧ back.flatMap Prod.snd = t := by
      rintro m rfl later
      obtain ⟨front, back, rfl, rfl, rfl⟩ := ih rest later
      exact ⟨x :: front, back, rfl, List.flatMap_cons, rfl⟩
    rcases List.append_eq_append_iff.mp whole with ⟨m, ahead, later⟩ | ⟨m, ahead, later⟩
    · exact onward m ahead later
    · cases m with
      | nil => exact onward [] (by rw [ahead, List.append_nil, List.append_nil]) later.symm
      | cons d m =>
        obtain ⟨rfl, rfl⟩ := List.cons.inj later
        have marked := first (ahead ▸ List.mem_append_right b List.mem_cons_self)
        subst marked
        obtain ⟨rfl, rest⟩ | ⟨_, _, rest⟩ := List.cons_eq_append_iff.mp ahead
        · obtain ⟨-, rfl⟩ := List.cons.inj rest
          exact ⟨[], letters, rfl, rfl, rfl⟩
        · exact absurd rest (by simp)

theorem free_ends (images : ∀ x ∈ front, Image alnum dotted x.1 x.2) (kept : dotted ≠ [])
    (steady : Steady alnum isWord) :
    free isWord (front.flatMap Prod.snd).getLast? = free (endsWord isWord dotted) (front.map Prod.fst).getLast? := by
  rcases List.eq_nil_or_concat' front with rfl | ⟨rest, x, rfl⟩
  · rfl
  · have image := images x (List.mem_append_right _ (List.mem_singleton_self x))
    rw [List.flatMap_append, List.map_append, List.getLast?_append, List.getLast?_append, List.flatMap_singleton]
    have some' : x.2.getLast?.isSome := List.getLast?_isSome.mpr (image.ne_nil kept)
    rw [Option.or_of_isSome some', free, image.ends steady]
    rfl

theorem starts_iff (plain : ∀ c ∈ word, isWord c = true) :
    (∃ after, text = word ++ after ∧ free isWord after.head? = true) ↔ text.takeWhile isWord = word := by
  constructor
  · rintro ⟨after, rfl, clear⟩
    rw [List.takeWhile_append_of_pos plain]
    cases after with
    | nil => exact List.append_nil word
    | cons c after =>
      have stops : ¬ isWord c = true := by
        rw [Bool.not_eq_true]
        simpa only [free, List.head?_cons, Option.any_some, Bool.not_eq_true'] using clear
      rw [List.takeWhile_cons_of_neg stops, List.append_nil]
  · rintro rfl
    refine ⟨text.dropWhile isWord, List.takeWhile_append_dropWhile.symm, ?_⟩
    cases rest : text.dropWhile isWord with
    | nil => rfl
    | cons c rest =>
      have stops := List.head_dropWhile_not isWord (l := text) (by rw [rest]; exact List.cons_ne_nil _ _)
      simp only [rest, List.head_cons] at stops
      simpa only [free, List.head?_cons, Option.any_some, Bool.not_eq_true'] using stops

end Letters
end Echo.Mentions
