import Mathlib.Data.List.Infix

/-! Patterns in a list: the text cut at the first occurrence, and every occurrence replaced, from the left and without
overlaps. -/
namespace Echo.Lib
variable {α : Type} [DecidableEq α] {pattern text before after becomes : List α}

def cutAt (pattern : List α) : List α → Option (List α × List α)
  | [] => if pattern.isEmpty then some ([], []) else none
  | c :: text =>
    if pattern.isPrefixOf (c :: text) then some ([], (c :: text).drop pattern.length)
    else (cutAt pattern text).map fun (before, after) => (c :: before, after)

theorem cutAt_append (pattern after : List α) : cutAt pattern (pattern ++ after) = some ([], after) := by
  cases whole : pattern ++ after with
  | nil =>
    obtain ⟨rfl, rfl⟩ := List.append_eq_nil_iff.mp whole
    rfl
  | cons c text =>
    have here : pattern.isPrefixOf (c :: text) = true := by
      rw [List.isPrefixOf_iff_prefix, ← whole]
      exact List.prefix_append pattern after
    rw [cutAt, if_pos here, ← whole, List.drop_left]

theorem cutAt_cons {c : α} (elsewhere : ¬ pattern <+: c :: text) :
    cutAt pattern (c :: text) = (cutAt pattern text).map fun (before, after) => (c :: before, after) := by
  rw [cutAt, if_neg (by rwa [List.isPrefixOf_iff_prefix])]

theorem cutAt_whole (found : cutAt pattern text = some (before, after)) : text = before ++ pattern ++ after := by
  induction text generalizing before with
  | nil =>
    unfold cutAt at found
    split at found
    · next empty =>
      cases found
      rw [List.isEmpty_iff.mp empty]
      rfl
    · cases found
  | cons c text ih =>
    by_cases here : pattern <+: c :: text
    · obtain ⟨rest, whole⟩ := here
      rw [← whole, cutAt_append] at found
      cases found
      exact whole.symm
    · rw [cutAt_cons here] at found
      obtain ⟨⟨front, back⟩, later, same⟩ := Option.map_eq_some_iff.mp found
      cases same
      rw [ih later]
      rfl

theorem cutAt_first (found : cutAt pattern text = some (before, after))
    {b a : List α} (whole : text = b ++ pattern ++ a) :
    before.length ≤ b.length := by
  induction text generalizing before b with
  | nil =>
    unfold cutAt at found
    split at found
    · cases found
      exact Nat.zero_le _
    · cases found
  | cons c text ih =>
    by_cases here : pattern <+: c :: text
    · obtain ⟨rest, start⟩ := here
      rw [← start, cutAt_append] at found
      cases found
      exact Nat.zero_le _
    · rw [cutAt_cons here] at found
      obtain ⟨⟨front, back⟩, later, same⟩ := Option.map_eq_some_iff.mp found
      cases same
      cases b with
      | nil => exact absurd ⟨a, whole.symm⟩ here
      | cons d b => exact Nat.succ_le_succ (ih later (List.cons.inj whole).2)

theorem cutAt_of_first (first : ∀ b a, before ++ pattern ++ after = b ++ pattern ++ a → before.length ≤ b.length) :
    cutAt pattern (before ++ pattern ++ after) = some (before, after) := by
  induction before with
  | nil => exact cutAt_append pattern after
  | cons c before ih =>
    have elsewhere : ¬ pattern <+: c :: (before ++ pattern ++ after) := by
      rintro ⟨rest, start⟩
      exact absurd (first [] rest start.symm) (Nat.not_succ_le_zero _)
    have later : cutAt pattern (before ++ pattern ++ after) = some (before, after) := by
      refine ih fun b a whole => ?_
      exact Nat.le_of_succ_le_succ (first (c :: b) a (congrArg (List.cons c) whole))
    rw [List.cons_append, List.cons_append, cutAt_cons elsewhere, later]
    rfl

theorem cutAt_singleton {c : α} (absent : c ∉ before) : cutAt [c] (before ++ c :: after) = some (before, after) := by
  induction before with
  | nil => exact cutAt_append [c] after
  | cons d before ih =>
    obtain ⟨other, rest⟩ := not_or.mp (List.mem_cons.not.mp absent)
    have elsewhere : ¬ [c] <+: d :: (before ++ c :: after) := fun here => other (List.cons_prefix_cons.mp here).1
    rw [List.cons_append, cutAt_cons elsewhere, ih rest]
    rfl

theorem cutAt_eq_none : cutAt pattern text = none ↔ ¬ pattern <:+: text := by
  constructor
  · rintro missing ⟨b, a, whole⟩
    induction text generalizing b with
    | nil =>
      rw [List.append_eq_nil_iff, List.append_eq_nil_iff] at whole
      rw [whole.1.2] at missing
      cases missing
    | cons c text ih =>
      by_cases here : pattern <+: c :: text
      · obtain ⟨rest, start⟩ := here
        rw [← start, cutAt_append] at missing
        cases missing
      · rw [cutAt_cons here, Option.map_eq_none_iff] at missing
        cases b with
        | nil => exact here ⟨a, whole⟩
        | cons d b => exact ih missing b (List.cons.inj whole).2
  · intro absent
    cases found : cutAt pattern text with
    | none => rfl
    | some parts => exact absurd ⟨parts.1, parts.2, (cutAt_whole found).symm⟩ absent

section Replacing

/-- `left` more characters belong to the occurrence that has just been replaced. -/
def replaceFrom (pattern becomes : List α) : Nat → List α → List α
  | _, [] => []
  | left + 1, _ :: text => replaceFrom pattern becomes left text
  | 0, c :: text =>
    if pattern.isPrefixOf (c :: text) then becomes ++ replaceFrom pattern becomes (pattern.length - 1) text
    else c :: replaceFrom pattern becomes 0 text

def replaceAll (pattern becomes text : List α) : List α := replaceFrom pattern becomes 0 text

theorem replaceFrom_eq (left : Nat) : replaceFrom pattern becomes left text =
    replaceAll pattern becomes (text.drop left) := by
  induction text generalizing left with
  | nil =>
    cases left with
    | zero => rfl
    | succ left => rfl
  | cons c text ih =>
    cases left with
    | zero => rfl
    | succ left => exact ih left

theorem replaceAll_hit (some' : pattern ≠ []) (text : List α) :
    replaceAll pattern becomes (pattern ++ text) = becomes ++ replaceAll pattern becomes text := by
  obtain ⟨c, rest, rfl⟩ := List.exists_cons_of_ne_nil some'
  have here : (c :: rest).isPrefixOf (c :: (rest ++ text)) = true := by
    rw [List.isPrefixOf_iff_prefix]
    exact List.prefix_append (c :: rest) text
  rw [List.cons_append, replaceAll, replaceFrom, if_pos here, replaceFrom_eq]
  exact congrArg (fun tail => becomes ++ replaceAll (c :: rest) becomes tail) List.drop_left

theorem replaceAll_miss {c : α} (elsewhere : ¬ pattern <+: c :: text) :
    replaceAll pattern becomes (c :: text) = c :: replaceAll pattern becomes text := by
  rw [replaceAll, replaceFrom, if_neg (by rwa [List.isPrefixOf_iff_prefix])]
  rfl

theorem replaceAll_absent (absent : ¬ pattern <:+: text) : replaceAll pattern becomes text = text := by
  induction text with
  | nil => rfl
  | cons c text ih =>
    have elsewhere : ¬ pattern <+: c :: text := fun here => absent here.isInfix
    have later : ¬ pattern <:+: text := fun inside => absent (List.infix_cons inside)
    rw [replaceAll_miss elsewhere, ih later]

theorem replaceAll_length_le (shorter : becomes.length < pattern.length) (text : List α) :
    (replaceAll pattern becomes text).length ≤ text.length := by
  have some' : pattern ≠ [] := by
    rintro rfl
    exact absurd shorter (Nat.not_lt_zero _)
  induction size : text.length using Nat.strong_induction_on generalizing text with
  | h n ih =>
    subst size
    cases text with
    | nil => exact Nat.le_refl 0
    | cons c text =>
      by_cases here : pattern <+: c :: text
      · obtain ⟨rest, whole⟩ := here
        have longer : rest.length < (c :: text).length := by
          rw [← whole, List.length_append]
          omega
        rw [← whole, replaceAll_hit some', List.length_append, List.length_append]
        have tail := ih rest.length longer rest rfl
        omega
      · rw [replaceAll_miss here]
        exact Nat.succ_le_succ (ih text.length (Nat.lt_succ_self _) text rfl)

theorem replaceAll_length_lt (shorter : becomes.length < pattern.length) (inside : pattern <:+: text) :
    (replaceAll pattern becomes text).length < text.length := by
  have some' : pattern ≠ [] := by
    rintro rfl
    exact absurd shorter (Nat.not_lt_zero _)
  induction text with
  | nil => exact absurd (List.infix_nil.mp inside) some'
  | cons c text ih =>
    by_cases here : pattern <+: c :: text
    · obtain ⟨rest, whole⟩ := here
      rw [← whole, replaceAll_hit some', List.length_append, List.length_append]
      have tail := replaceAll_length_le shorter rest
      omega
    · rw [replaceAll_miss here]
      exact Nat.succ_lt_succ (ih ((List.infix_cons_iff.mp inside).resolve_left here))

def replaceEach (rules : List (List α × List α)) (text : List α) : List α :=
  rules.foldl (fun text rule => replaceAll rule.1 rule.2 text) text

theorem replaceEach_length_le {rules : List (List α × List α)} (shorter : ∀ rule ∈ rules, rule.2.length < rule.1.length)
    (text : List α) : (replaceEach rules text).length ≤ text.length := by
  induction rules generalizing text with
  | nil => exact Nat.le_refl _
  | cons rule rules ih =>
    have first := replaceAll_length_le (shorter rule List.mem_cons_self) text
    exact Nat.le_trans (ih (fun rule inside => shorter rule (List.mem_cons_of_mem _ inside)) _) first

theorem replaceEach_eq_self {rules : List (List α × List α)} (shorter : ∀ rule ∈ rules, rule.2.length < rule.1.length) :
    replaceEach rules text = text ↔ ∀ rule ∈ rules, ¬ rule.1 <:+: text := by
  induction rules with
  | nil => exact iff_of_true rfl fun rule inside => absurd inside List.not_mem_nil
  | cons rule rules ih =>
    have shorter' : ∀ rule ∈ rules, rule.2.length < rule.1.length :=
      fun rule inside => shorter rule (List.mem_cons_of_mem _ inside)
    have step : replaceEach (rule :: rules) text = replaceEach rules (replaceAll rule.1 rule.2 text) := rfl
    rw [List.forall_mem_cons, step]
    constructor
    · intro same
      have absent : ¬ rule.1 <:+: text := by
        intro inside
        have fewer := replaceAll_length_lt (shorter rule List.mem_cons_self) inside
        have rest := replaceEach_length_le shorter' (replaceAll rule.1 rule.2 text)
        rw [same] at rest
        omega
      rw [replaceAll_absent absent] at same
      exact ⟨absent, (ih shorter').mp same⟩
    · rintro ⟨absent, others⟩
      rw [replaceAll_absent absent]
      exact (ih shorter').mpr others

end Replacing
end Echo.Lib
