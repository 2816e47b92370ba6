import Echo.Lib.Search

/-! `html_decode` of `routes/link_preview.rs`: one replacement after the other, the ampersand first. -/
namespace Echo.LinkPreview
open Echo.Lib

abbrev Entity := List Char × Char

def ampersand : Entity := ("&amp;".toList, '&')

def otherEntities : List Entity :=
  [("&lt;".toList, '<'), ("&gt;".toList, '>'), ("&quot;".toList, '"'), ("&#39;".toList, '\''), ("&#x27;".toList, '\'')]

def Entity.rule (e : Entity) : List Char × List Char := (e.1, [e.2])

def htmlDecode (s : List Char) : List Char := replaceEach ((ampersand :: otherEntities).map Entity.rule) s

/-- A text that stands for a value: characters as themselves where `plain` allows it, or entities. -/
inductive Spells (plain : Char → Prop) (entities : List Entity) : List Char → List Char → Prop where
  | nil : Spells plain entities [] []
  | raw {c : Char} {value text : List Char} : plain c → Spells plain entities value text →
      Spells plain entities (c :: value) (c :: text)
  | entity {e : Entity} {value text : List Char} : e ∈ entities → Spells plain entities value text →
      Spells plain entities (e.2 :: value) (e.1 ++ text)

/-- Every ampersand is escaped; the other characters that have an entity may be. -/
def Written (value text : List Char) : Prop := Spells (· ≠ '&') (ampersand :: otherEntities) value text

/-- Entities that can be told apart: they start with the ampersand and have none inside, and none starts another. -/
structure Coded (entities : List Entity) : Prop where
  lead : ∀ e ∈ entities, e.1.head? = some '&' ∧ '&' ∉ e.1.tail
  apart : ∀ e ∈ entities, ∀ f ∈ entities, e.1 <+: f.1 → e = f

theorem Coded.sub {e : Entity} {entities : List Entity} (coded : Coded (e :: entities)) : Coded entities :=
  ⟨fun f inside => coded.lead f (List.mem_cons_of_mem e inside),
    fun f inside g inside' => coded.apart f (List.mem_cons_of_mem e inside) g (List.mem_cons_of_mem e inside')⟩

section Passes
variable {plain : Char → Prop} {e f : Entity} {entities : List Entity} {value text word becomes : List Char}

theorem Coded.body (coded : Coded entities) (inside : e ∈ entities) : ∃ body, e.1 = '&' :: body ∧ '&' ∉ body := by
  obtain ⟨first, rest⟩ := coded.lead e inside
  obtain ⟨body, whole⟩ := List.head?_eq_some_iff.mp first
  rw [whole] at rest
  exact ⟨body, whole, rest⟩

theorem replace_through (coded : Coded entities) (inside : e ∈ entities) (free : '&' ∉ word) :
    replaceAll e.1 becomes (word ++ text) = word ++ replaceAll e.1 becomes text := by
  obtain ⟨body, whole, -⟩ := coded.body inside
  induction word with
  | nil => rfl
  | cons c word ih =>
    obtain ⟨first, rest⟩ := not_or.mp (List.mem_cons.not.mp free)
    have elsewhere : ¬ e.1 <+: c :: (word ++ text) := by
      rw [whole]
      intro here
      exact first (List.cons_prefix_cons.mp here).1
    rw [List.cons_append, replaceAll_miss elsewhere, ih rest]
    rfl

theorem replace_other (coded : Coded entities) (inside : e ∈ entities) (inside' : f ∈ entities) (other : e ≠ f) :
    replaceAll e.1 becomes (f.1 ++ text) = f.1 ++ replaceAll e.1 becomes text := by
  obtain ⟨body, whole, free⟩ := coded.body inside'
  have elsewhere : ¬ e.1 <+: f.1 ++ text := by
    intro here
    rcases List.prefix_or_prefix_of_prefix here (List.prefix_append f.1 text) with one | one
    · exact other (coded.apart e inside f inside' one)
    · exact other (coded.apart f inside' e inside one).symm
  rw [whole, List.cons_append] at elsewhere ⊢
  rw [replaceAll_miss elsewhere, replace_through coded inside free]
  rfl

theorem replace_entity (coded : Coded entities) (inside : e ∈ entities) :
    replaceAll e.1 becomes (e.1 ++ text) = becomes ++ replaceAll e.1 becomes text := by
  obtain ⟨body, whole, -⟩ := coded.body inside
  refine replaceAll_hit ?_ text
  rw [whole]
  exact List.cons_ne_nil '&' body

theorem spells_first (coded : Coded (e :: entities)) (spells : Spells (· ≠ '&') (e :: entities) value text) :
    Spells (fun _ => True) entities value (replaceAll e.1 [e.2] text) := by
  have first : e ∈ e :: entities := List.mem_cons_self
  induction spells with
  | nil => exact .nil
  | @raw c value text other _ ih =>
    have through : replaceAll e.1 [e.2] ([c] ++ text) = [c] ++ replaceAll e.1 [e.2] text := replace_through coded first
      (by rw [List.mem_singleton]; exact Ne.symm other)
    rw [List.singleton_append, List.singleton_append] at through
    rw [through]
    exact .raw trivial ih
  | @entity f value text inside _ ih =>
    by_cases same : e = f
    · subst same
      rw [replace_entity coded first]
      exact .raw trivial ih
    · rw [replace_other coded first inside same]
      exact .entity ((List.mem_cons.mp inside).resolve_left (Ne.symm same)) ih

theorem Spells.starts (spells : Spells plain entities (word ++ value) text) (free : ∀ f ∈ entities, f.2 ∉ word) :
    ∃ rest, text = word ++ rest ∧ Spells plain entities value rest := by
  induction word generalizing text with
  | nil => exact ⟨text, rfl, spells⟩
  | cons c word ih =>
    have free' : ∀ f ∈ entities, f.2 ∉ word := fun f inside there => free f inside (List.mem_cons_of_mem c there)
    generalize whole : c :: word ++ value = start at spells
    cases spells with
    | nil => cases whole
    | raw _ tail =>
      cases whole
      obtain ⟨rest, rfl, spells⟩ := ih tail free'
      exact ⟨rest, rfl, spells⟩
    | @entity f _ _ inside tail =>
      cases whole
      exact absurd List.mem_cons_self (free f inside)

theorem Spells.of_word (coded : Coded entities) (spells : Spells plain entities value (word ++ text))
    (free : '&' ∉ word) :
    word <+: value := by
  induction word generalizing value with
  | nil => exact List.nil_prefix
  | cons c word ih =>
    obtain ⟨first, rest⟩ := not_or.mp (List.mem_cons.not.mp free)
    generalize whole : c :: word ++ text = start at spells
    cases spells with
    | nil => cases whole
    | raw _ tail =>
      cases whole
      exact List.cons_prefix_cons.mpr ⟨rfl, ih tail rest⟩
    | @entity f _ _ inside tail =>
      obtain ⟨body, same, -⟩ := coded.body inside
      rw [same] at whole
      exact absurd (List.cons.inj whole).1.symm first

theorem spells_later (coded : Coded (e :: entities)) (apart : ∀ f ∈ e :: entities, f.2 ∉ e.1)
    (spells : Spells (fun _ => True) (e :: entities) value text) :
    Spells (fun _ => True) entities (replaceAll e.1 [e.2] value) (replaceAll e.1 [e.2] text) := by
  have first : e ∈ e :: entities := List.mem_cons_self
  obtain ⟨body, whole, free⟩ := coded.body first
  induction size : value.length using Nat.strong_induction_on generalizing value text with
  | h n ih =>
    subst size
    by_cases here : e.1 <+: value
    · obtain ⟨rest, rfl⟩ := here
      obtain ⟨rest', rfl, tail⟩ := spells.starts apart
      rw [replace_entity coded first, replace_entity coded first]
      refine .raw trivial (ih rest.length ?_ tail rfl)
      rw [List.length_append, whole, List.length_cons]
      omega
    · cases spells with
      | nil => exact .nil
      | @raw c value text _ tail =>
        have elsewhere : ¬ e.1 <+: c :: text := by
          rintro ⟨rest, start⟩
          rw [whole] at start here
          obtain ⟨rfl, rfl⟩ := List.cons.inj start
          exact here (List.cons_prefix_cons.mpr ⟨rfl, tail.of_word coded free⟩)
        rw [replaceAll_miss here, replaceAll_miss elsewhere]
        exact .raw trivial (ih value.length (Nat.lt_succ_self _) tail rfl)
      | @entity f value text inside tail =>
        rw [replaceAll_miss here]
        have rest := ih value.length (Nat.lt_succ_self _) tail rfl
        by_cases same : e = f
        · subst same
          rw [replace_entity coded first]
          exact .raw trivial rest
        · rw [replace_other coded first inside same]
          exact .entity ((List.mem_cons.mp inside).resolve_left (Ne.symm same)) rest

theorem Spells.bare (spells : Spells plain [] value text) : value = text := by
  induction spells with
  | nil => rfl
  | raw _ _ ih => rw [ih]
  | entity inside _ _ => cases inside

theorem spells_all (coded : Coded entities) (apart : ∀ e ∈ entities, ∀ f ∈ entities, f.2 ∉ e.1)
    (spells : Spells (fun _ => True) entities value text) :
    replaceEach (entities.map Entity.rule) text = replaceEach (entities.map Entity.rule) value := by
  induction entities generalizing value text with
  | nil => exact spells.bare.symm
  | cons e entities ih =>
    refine ih coded.sub (fun f inside g inside' => ?_) (spells_later coded (apart e List.mem_cons_self) spells)
    exact apart f (List.mem_cons_of_mem e inside) g (List.mem_cons_of_mem e inside')

end Passes

theorem coded_all : Coded (ampersand :: otherEntities) := by
  constructor
  · decide
  · decide

theorem htmlDecode_written {value text : List Char} (written : Written value text) :
    htmlDecode text = replaceEach (otherEntities.map Entity.rule) value := by
  have later := spells_first coded_all written
  exact spells_all coded_all.sub (by decide) later

theorem htmlDecode_iff {value text : List Char} (written : Written value text) :
    htmlDecode text = value ↔ ∀ e ∈ otherEntities, ¬ e.1 <:+: value := by
  have shorter : ∀ rule ∈ otherEntities.map Entity.rule, rule.2.length < rule.1.length := by decide
  rw [htmlDecode_written written, replaceEach_eq_self shorter, List.forall_mem_map]
  rfl

end Echo.LinkPreview
