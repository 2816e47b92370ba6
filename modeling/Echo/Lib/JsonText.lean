import Echo.Lib.Search
import Echo.Lib.Decimal

/-! The text of a flat JSON object, written the way `serde_json` does, and the place of one marked value in it. -/
namespace Echo.Lib.Json

section Writing

def escapeOf (c : Char) : Option (List Char) :=
  if c = '"' then some ['"']
  else if c = '\\' then some ['\\']
  else if c = '\x08' then some ['b']
  else if c = '\x0c' then some ['f']
  else if c = '\n' then some ['n']
  else if c = '\r' then some ['r']
  else if c = '\t' then some ['t']
  else if c.toNat < 0x20 then some ['u', '0', '0', Nat.digitChar (c.toNat / 16), Nat.digitChar (c.toNat % 16)]
  else none

def escapeChar (c : Char) : List Char := (escapeOf c).elim [c] fun tail => '\\' :: tail

def escaped (s : List Char) : List Char := s.flatMap escapeChar
def quoted (s : List Char) : List Char := '"' :: (escaped s ++ ['"'])

def intText : Int → List Char
  | .ofNat n => Nat.toDigits 10 n
  | .negSucc n => '-' :: Nat.toDigits 10 (n + 1)

inductive Value where
  | text (s : List Char)
  | number (n : Int)
  | flag (b : Bool)

def Value.json : Value → List Char
  | text s => quoted s
  | number n => intText n
  | flag b => (if b then "true" else "false").toList

abbrev Field := List Char × Value

def Field.json (f : Field) : List Char := quoted f.1 ++ ':' :: f.2.json

def members : List Field → List Char
  | [] => []
  | [f] => f.json
  | f :: rest => f.json ++ ',' :: members rest

def object (fields : List Field) : List Char := '{' :: (members fields ++ ['}'])

end Writing

section Places
variable {before after : List Field} {key : List Char}

def upTo (before : List Field) (key : List Char) : List Char :=
  '{' :: (before.flatMap (fun f => f.json ++ [',']) ++ quoted key ++ [':'])

def onwards (after : List Field) : List Char := after.flatMap (fun f => ',' :: f.json) ++ ['}']

theorem members_cons (f : Field) (rest : List Field) :
    members (f :: rest) = f.json ++ rest.flatMap fun g => ',' :: g.json := by
  induction rest generalizing f with
  | nil => exact (List.append_nil _).symm
  | cons g rest ih =>
    rw [members, ih g, List.flatMap_cons]
    · rfl
    · exact List.cons_ne_nil g rest

theorem members_append (f : Field) (rest : List Field) :
    members (before ++ f :: rest) = before.flatMap (fun g => g.json ++ [',']) ++ members (f :: rest) := by
  induction before with
  | nil => rfl
  | cons g before ih =>
    have more : before ++ f :: rest ≠ [] := List.append_ne_nil_of_right_ne_nil before (List.cons_ne_nil f rest)
    rw [List.cons_append, members, ih, List.flatMap_cons, List.append_assoc, List.append_assoc]
    · rfl
    · exact more

theorem object_place (before after : List Field) (key : List Char) (value : Value) :
    object (before ++ (key, value) :: after) = upTo before key ++ value.json ++ onwards after := by
  rw [object, members_append, members_cons, upTo, onwards, Field.json]
  simp only [List.append_assoc, List.cons_append, List.nil_append]

end Places

section Markers
variable {mark text a b : List Char} {c : Char}

structure Marker (mark : List Char) : Prop where
  lead : mark.head? = some '_'
  bare : ∀ c ∈ mark, c.isAlphanum = true ∨ c = '-' ∨ c = '_'

def Clear (mark text : List Char) : Prop := ¬ mark <:+: text

namespace Marker

theorem starts (marker : Marker mark) : ∃ rest, mark = '_' :: rest := List.head?_eq_some_iff.mp marker.lead

theorem absent (marker : Marker mark) (other : c.isAlphanum = false) (apart : c ≠ '-' ∧ c ≠ '_') : c ∉ mark := by
  intro inside
  rcases marker.bare c inside with letter | same | same
  · rw [other] at letter
    cases letter
  · exact apart.1 same
  · exact apart.2 same

theorem not_quote (marker : Marker mark) : '"' ∉ mark := marker.absent (by decide) (by decide)

theorem clear_of_absent (marker : Marker mark) (absent : '_' ∉ text) : Clear mark text := by
  intro inside
  obtain ⟨rest, rfl⟩ := marker.starts
  exact absent (inside.subset List.mem_cons_self)

theorem clear_append (marker : Marker mark) (other : c ∉ mark) (one : Clear mark a) (two : Clear mark b) :
    Clear mark (a ++ c :: b) := by
  obtain ⟨rest, whole⟩ := marker.starts
  induction a with
  | nil =>
    intro inside
    rcases List.infix_cons_iff.mp inside with here | later
    · rw [whole] at here other
      exact other (List.mem_cons.mpr (.inl (List.cons_prefix_cons.mp here).1.symm))
    · exact two later
  | cons d a ih =>
    intro inside
    rcases List.infix_cons_iff.mp inside with here | later
    · rcases List.prefix_or_prefix_of_prefix here (List.prefix_append (d :: a) (c :: b)) with short | long
      · exact one short.isInfix
      · obtain ⟨more, rfl⟩ := long
        obtain ⟨behind, same⟩ := here
        rw [List.append_assoc] at same
        cases more with
        | nil =>
          rw [List.append_nil] at one
          exact one List.infix_rfl
        | cons e more =>
          obtain rfl := (List.cons.inj (List.append_cancel_left same)).1
          exact other (List.mem_append_right _ List.mem_cons_self)
    · exact ih (fun inside => one (List.infix_cons inside)) later

theorem clear_through {w : List Char} (marker : Marker mark) (free : '_' ∉ w) (rest : Clear mark b) :
    Clear mark (w ++ b) := by
  induction w with
  | nil => exact rest
  | cons d w ih =>
    obtain ⟨other, free⟩ := not_or.mp (List.mem_cons.not.mp free)
    intro inside
    rcases List.infix_cons_iff.mp inside with here | later
    · obtain ⟨tail, rfl⟩ := marker.starts
      exact other (List.cons_prefix_cons.mp here).1
    · exact ih free later

theorem clear_cons (marker : Marker mark) (other : c ∉ mark) (rest : Clear mark b) : Clear mark (c :: b) := by
  refine marker.clear_append (a := []) other ?_ rest
  exact marker.clear_of_absent List.not_mem_nil

theorem clear_snoc (marker : Marker mark) (other : c ∉ mark) (rest : Clear mark a) : Clear mark (a ++ [c]) :=
  marker.clear_append other rest (marker.clear_of_absent List.not_mem_nil)

theorem escapeChar_cases (c : Char) :
    escapeChar c = [c] ∨ ∃ tail, escapeChar c = '\\' :: tail ∧ '_' ∉ tail := by
  have hex : ∀ n < 16, Nat.digitChar n ≠ '_' := by decide
  unfold escapeChar escapeOf
  split
  · exact .inr ⟨_, rfl, by decide⟩
  split
  · exact .inr ⟨_, rfl, by decide⟩
  split
  · exact .inr ⟨_, rfl, by decide⟩
  split
  · exact .inr ⟨_, rfl, by decide⟩
  split
  · exact .inr ⟨_, rfl, by decide⟩
  split
  · exact .inr ⟨_, rfl, by decide⟩
  split
  · exact .inr ⟨_, rfl, by decide⟩
  split
  · next small =>
    refine .inr ⟨_, rfl, ?_⟩
    have high := hex (c.toNat / 16) (by omega)
    have low := hex (c.toNat % 16) (Nat.mod_lt _ (by decide))
    simp [Ne.symm high, Ne.symm low]
  · exact .inl rfl

theorem prefix_of_escaped (backslash : '\\' ∉ mark) (here : mark <+: escaped text) : mark <+: text := by
  induction mark generalizing text with
  | nil => exact List.nil_prefix
  | cons x mark ih =>
    obtain ⟨other, rest⟩ := not_or.mp (List.mem_cons.not.mp backslash)
    cases text with
    | nil => exact here
    | cons c text =>
      rw [escaped, List.flatMap_cons] at here
      rcases escapeChar_cases c with same | ⟨tail, same, -⟩
      · rw [same] at here
        rw [List.singleton_append] at here
        obtain ⟨rfl, later⟩ := List.cons_prefix_cons.mp here
        exact List.cons_prefix_cons.mpr ⟨rfl, ih rest later⟩
      · rw [same] at here
        exact absurd (List.cons_prefix_cons.mp here).1.symm other

theorem clear_escaped (marker : Marker mark) (clear : Clear mark text) : Clear mark (escaped text) := by
  have backslash : '\\' ∉ mark := marker.absent (by decide) (by decide)
  induction text with
  | nil => exact clear
  | cons c text ih =>
    have rest : Clear mark (escaped text) := ih fun inside => clear (List.infix_cons inside)
    intro inside
    rw [escaped, List.flatMap_cons] at inside
    rcases escapeChar_cases c with same | ⟨tail, same, free⟩
    · rw [same, List.singleton_append] at inside
      rcases List.infix_cons_iff.mp inside with here | later
      · refine clear (prefix_of_escaped backslash ?_).isInfix
        rw [escaped, List.flatMap_cons, same]
        exact here
      · exact rest later
    · rw [same, List.cons_append] at inside
      refine marker.clear_through (w := '\\' :: tail) ?_ rest inside
      exact List.not_mem_cons_of_ne_of_not_mem (by decide) free

theorem clear_quoted (marker : Marker mark) (clear : Clear mark text) : Clear mark (quoted text) :=
  marker.clear_cons marker.not_quote (marker.clear_snoc marker.not_quote (marker.clear_escaped clear))

theorem clear_number (marker : Marker mark) (n : Int) : Clear mark (intText n) := by
  have digits : ∀ k : Nat, '_' ∉ Nat.toDigits 10 k := fun k inside => absurd (mem_toDigits inside) (by decide)
  refine marker.clear_of_absent ?_
  cases n with
  | ofNat k => exact digits k
  | negSucc k => exact List.not_mem_cons_of_ne_of_not_mem (by decide) (digits (k + 1))

theorem escaped_self (marker : Marker mark) : escaped mark = mark := by
  have plain : ∀ c ∈ mark, escapeChar c = [c] := by
    intro c inside
    have visible : 0x20 ≤ c.toNat := by
      rcases marker.bare c inside with letter | rfl | rfl
      · simp only [Char.isAlphanum, Char.isAlpha, Char.isUpper, Char.isLower, Char.isDigit, Bool.or_eq_true,
          Bool.and_eq_true, decide_eq_true_eq, ge_iff_le, UInt32.le_iff_toNat_le] at letter
        simp at letter
        omega
      · decide
      · decide
    have quote : c ≠ '"' := fun same => marker.not_quote (same ▸ inside)
    have backslash : c ≠ '\\' := fun same => marker.absent (by decide) (by decide) (same ▸ inside)
    have blanks : c ≠ '\x08' ∧ c ≠ '\x0c' ∧ c ≠ '\n' ∧ c ≠ '\r' ∧ c ≠ '\t' := by
      refine ⟨?_, ?_, ?_, ?_, ?_⟩ <;> (rintro rfl; exact absurd visible (by decide))
    simp only [escapeChar, escapeOf, quote, backslash, blanks, if_false, if_neg (Nat.not_lt.mpr visible)]
    rfl
  rw [escaped, List.flatMap_congr plain]
  exact List.flatMap_singleton' mark

theorem clear_upTo (marker : Marker mark) {before : List Field} {key : List Char}
    (fields : ∀ f ∈ before, Clear mark f.1 ∧ Clear mark f.2.json) (clear : Clear mark key) :
    Clear mark (upTo before key) := by
  have colon : ':' ∉ mark := marker.absent (by decide) (by decide)
  have comma : ',' ∉ mark := marker.absent (by decide) (by decide)
  have brace : '{' ∉ mark := marker.absent (by decide) (by decide)
  refine marker.clear_cons brace (marker.clear_snoc colon ?_)
  induction before with
  | nil => exact marker.clear_quoted clear
  | cons f before ih =>
    obtain ⟨⟨name, value⟩, rest⟩ := List.forall_mem_cons.mp fields
    rw [List.flatMap_cons, List.append_assoc, List.append_assoc]
    exact marker.clear_append comma (marker.clear_append colon (marker.clear_quoted name) value) (ih rest)

theorem cut_quoted (marker : Marker mark) {front back : List Char} (clear : Clear mark front) :
    cutAt ('"' :: (mark ++ ['"'])) (front ++ ('"' :: (mark ++ ['"'])) ++ back) = some (front, back) := by
  refine cutAt_of_first fun b a whole => ?_
  by_contra shorter
  rw [List.append_assoc, List.append_assoc] at whole
  rcases List.append_eq_append_iff.mp whole with ⟨more, rfl, -⟩ | ⟨more, rfl, behind⟩
  · rw [List.length_append] at shorter
    omega
  · cases more with
    | nil =>
      rw [List.append_nil] at shorter
      exact shorter (Nat.le_refl _)
    | cons c more =>
      obtain ⟨rfl, tail⟩ := List.cons.inj behind
      have inside : more <:+: b ++ '"' :: more := ⟨b ++ ['"'], [], by simp⟩
      have split : mark ++ ('"' :: a) = more ++ ('"' :: (mark ++ ['"']) ++ back) := by
        rw [← List.singleton_append, ← List.append_assoc]
        exact tail
      rcases List.append_eq_append_iff.mp split with ⟨rest, rfl, -⟩ | ⟨rest, rfl, later⟩
      · exact clear ((List.prefix_append mark rest).isInfix.trans inside)
      · cases rest with
        | nil =>
          rw [List.append_nil] at clear
          exact clear inside
        | cons d rest =>
          obtain ⟨rfl, -⟩ := List.cons.inj later
          exact marker.not_quote (List.mem_append_right _ List.mem_cons_self)

theorem cut_object (marker : Marker mark) {before : List Field} {key : List Char} (after : List Field)
    (fields : ∀ f ∈ before, Clear mark f.1 ∧ Clear mark f.2.json) (clear : Clear mark key) :
    cutAt ('"' :: (mark ++ ['"'])) (object (before ++ (key, .text mark) :: after)) =
      some (upTo before key, onwards after) := by
  have value : (Value.text mark).json = '"' :: (mark ++ ['"']) := by
    rw [Value.json, quoted, marker.escaped_self]
  rw [object_place, value]
  exact marker.cut_quoted (marker.clear_upTo fields clear)

end Marker
end Markers
end Echo.Lib.Json
