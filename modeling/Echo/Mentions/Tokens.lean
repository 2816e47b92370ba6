import Echo.Mentions.Spots

/-! The scanners told at the `@`s of the content as it was written, before lower case. -/
namespace Echo.Mentions
open Echo.Lib

section Lowered
variable {alnum : Alphanumeric} {dotted : List Char} {isWord : Char → Bool} (L : Lowering alnum dotted)
variable {text before rest word : List Char}

theorem Lowering.lower_ascii (ascii : ∀ c ∈ text, c.toNat < 128) : L.lower text = text.map Char.toLower := by
  have each : ∀ letters : List (Char × List Char), (∀ x ∈ letters, x.2 = [x.1.toLower]) →
      letters.flatMap Prod.snd = (letters.map Prod.fst).map Char.toLower := by
    intro letters images
    induction letters with
    | nil => rfl
    | cons x letters ih =>
      obtain ⟨first, images⟩ := List.forall_mem_cons.mp images
      rw [List.flatMap_cons, first, ih images]
      rfl
  rw [Lowering.lower, each, L.spells]
  intro x here
  refine (L.image text x here).ascii_eq (ascii x.1 ?_)
  rw [← L.spells text]
  exact List.mem_map_of_mem here

theorem Lowering.place : text = before ++ '@' :: rest ↔ ∃ front back,
    L.letters text = front ++ ('@', ['@']) :: back ∧ front.map Prod.fst = before ∧ back.map Prod.fst = rest := by
  constructor
  · intro whole
    have spelled := L.spells text
    rw [whole] at spelled
    obtain ⟨front, tail, parts, rfl, later⟩ := List.map_eq_append_iff.mp spelled
    obtain ⟨x, back, rfl, same, rfl⟩ := List.map_eq_cons_iff.mp later
    rw [← whole] at parts
    have image := L.image text x (parts ▸ List.mem_append_right front List.mem_cons_self)
    have becomes : x.2 = ['@'] := by
      rw [image.ascii_eq (same ▸ by decide), same]
      rfl
    have marked : x = ('@', ['@']) := Prod.ext same becomes
    exact ⟨front, back, marked ▸ parts, rfl, rfl⟩
  · rintro ⟨front, back, parts, rfl, rfl⟩
    rw [← L.spells text, parts, List.map_append, List.map_cons]

theorem Lowering.standalone_iff (absent : '@' ∉ word) (clear : '@' ∉ dotted) (kept : dotted ≠ [])
    (steady : Steady alnum isWord) : standalone isWord ('@' :: word) (L.lower text) = true ↔
      ∃ front back, L.letters text = front ++ ('@', ['@']) :: back ∧
        free (endsWord isWord dotted) (front.map Prod.fst).getLast? = true ∧
        ∃ after, back.flatMap Prod.snd = word ++ after ∧ free isWord after.head? = true := by
  have only : ∀ x ∈ L.letters text, '@' ∈ x.2 → x = ('@', ['@']) := by
    intro x here has
    obtain ⟨first, second⟩ := (L.image text x here).at_only clear has
    exact Prod.ext first second
  have edge : ∀ front back, L.letters text = front ++ ('@', ['@']) :: back →
      free isWord (front.flatMap Prod.snd).getLast? = free (endsWord isWord dotted) (front.map Prod.fst).getLast? := by
    intro front back parts
    exact free_ends (fun x here => L.image text x (parts ▸ List.mem_append_left _ here)) kept steady
  rw [Mentions.standalone_iff absent]
  constructor
  · rintro ⟨b, after, whole, left, right⟩
    obtain ⟨front, back, parts, rfl, rest⟩ := split_letters only whole
    exact ⟨front, back, parts, edge front back parts ▸ left, after, rest, right⟩
  · rintro ⟨front, back, parts, left, after, rest, right⟩
    refine ⟨front.flatMap Prod.snd, after, ?_, edge front back parts ▸ left, right⟩
    rw [Lowering.lower, parts, List.flatMap_append, List.flatMap_cons, rest]
    rfl

end Lowered

section Tokens
variable {alnum : Alphanumeric} {back : List (Char × List Char)} {word text : List Char} {keepsDot : Bool}

theorem takeWhile_wide (images : ∀ x ∈ back, Image alnum (dottedLower keepsDot) x.1 x.2) :
    (back.flatMap Prod.snd).takeWhile isAsciiWord = wideToken (dottedLower keepsDot) (back.map Prod.fst) := by
  induction back with
  | nil => rfl
  | cons x back ih =>
    obtain ⟨image, images⟩ := List.forall_mem_cons.mp images
    have onward := ih images
    obtain ⟨c, out⟩ := x
    rw [List.flatMap_cons, List.map_cons, wideToken]
    dsimp only at image ⊢
    cases image with
    | ascii ascii =>
      by_cases word : isAsciiWord c = true
      · rw [if_pos word, ← onward]
        exact List.takeWhile_cons_of_pos (isAsciiWord_toLower ascii ▸ word)
      · rw [if_neg word, if_neg (by rintro rfl; exact absurd ascii (by decide)),
          if_neg (by rintro rfl; exact absurd ascii (by decide))]
        exact List.takeWhile_cons_of_neg (isAsciiWord_toLower ascii ▸ word)
    | kelvin =>
      rw [← onward]
      rfl
    | dottedI =>
      rw [if_neg (by decide), if_neg (by decide), if_pos rfl]
      cases keepsDot with
      | false =>
        rw [← onward]
        rfl
      | true => rfl
    | other wide first second wide' =>
      rw [if_neg (Bool.eq_false_iff.mp (isAsciiWord_wide wide)), if_neg first, if_neg second]
      exact List.takeWhile_cons_of_neg (Bool.eq_false_iff.mp (isAsciiWord_wide wide'))

def Plain (word : List Char) : Prop := ∀ c ∈ word, isAsciiWord c = true ∧ c ≠ 'k' ∧ c ≠ 'i'

theorem takeWhile_plain (plain : Plain word) (images : ∀ x ∈ back, Image alnum (dottedLower true) x.1 x.2) :
    (back.flatMap Prod.snd).takeWhile alnum.word = word ↔
      asciiToken (back.map Prod.fst) = word ∧ free alnum.word (following (back.map Prod.fst)) = true := by
  induction back generalizing word with
  | nil => exact ⟨fun same => ⟨same, rfl⟩, And.left⟩
  | cons x back ih =>
    obtain ⟨image, later⟩ := List.forall_mem_cons.mp images
    obtain ⟨c, out⟩ := x
    rw [List.flatMap_cons, List.map_cons]
    dsimp only at image ⊢
    have strange : ∀ {d tail}, alnum.word d = true → d ∉ word → isAsciiWord c = false → alnum.word c = true →
        ((d :: tail).takeWhile alnum.word = word ↔ asciiToken (c :: back.map Prod.fst) = word ∧
          free alnum.word (following (c :: back.map Prod.fst)) = true) := by
      intro d tail goes unlike stops wordy
      refine iff_of_false ?_ ?_
      · intro same
        rw [List.takeWhile_cons_of_pos goes] at same
        exact unlike (same ▸ List.mem_cons_self)
      · rintro ⟨-, clear⟩
        rw [following, List.dropWhile_cons_of_neg (Bool.eq_false_iff.mp stops), List.head?_cons, free, Option.any_some,
          wordy] at clear
        exact Bool.false_ne_true clear
    have ends : ∀ {d tail}, alnum.word d = false → isAsciiWord c = false → alnum.word c = false →
        ((d :: tail).takeWhile alnum.word = word ↔ asciiToken (c :: back.map Prod.fst) = word ∧
          free alnum.word (following (c :: back.map Prod.fst)) = true) := by
      intro d tail halts stops quiet
      rw [List.takeWhile_cons_of_neg (Bool.eq_false_iff.mp halts), asciiToken,
        List.takeWhile_cons_of_neg (Bool.eq_false_iff.mp stops), following,
        List.dropWhile_cons_of_neg (Bool.eq_false_iff.mp stops), List.head?_cons, free, Option.any_some, quiet]
      exact ⟨fun same => ⟨same, rfl⟩, And.left⟩
    cases image with
    | ascii ascii =>
      have lowered : alnum.word c.toLower = isAsciiWord c := by
        rw [alnum.word_ascii (toLower_ascii ascii), isAsciiWord_toLower ascii]
      cases known : isAsciiWord c with
      | false => exact ends (lowered.trans known) known ((alnum.word_ascii ascii).trans known)
      | true =>
        rw [List.singleton_append, List.takeWhile_cons_of_pos (lowered.trans known), asciiToken,
          List.takeWhile_cons_of_pos known, following, List.dropWhile_cons_of_pos known, List.map_cons]
        cases word with
        | nil => exact iff_of_false (List.cons_ne_nil _ _) (fun both => List.cons_ne_nil _ _ both.1)
        | cons d word =>
          rw [List.cons_eq_cons, List.cons_eq_cons, ih (List.forall_mem_cons.mp plain).2 later, and_assoc]
          rfl
    | kelvin =>
      exact strange (steady_word alnum).k (fun here => (plain _ here).2.1 rfl) (by decide)
        (Bool.or_eq_true_iff.mpr (Or.inl alnum.kelvin))
    | dottedI =>
      exact strange (steady_word alnum).i (fun here => (plain _ here).2.2 rfl) (by decide)
        (Bool.or_eq_true_iff.mpr (Or.inl alnum.dottedI))
    | @other _ d wide first second wide' alike =>
      have same := (steady_word alnum).same c d wide wide' alike
      cases known : alnum.word c with
      | false => exact ends (same.trans known) (isAsciiWord_wide wide) known
      | true =>
        refine strange (same.trans known) ?_ (isAsciiWord_wide wide) known
        intro here
        exact Bool.false_ne_true ((isAsciiWord_wide wide').symm.trans (plain d here).1)

end Tokens

section Seen
variable {alnum : Alphanumeric} {keepsDot : Bool} {content keyword name : List Char}

theorem at_dottedLower (keepsDot : Bool) : '@' ∉ dottedLower keepsDot ∧ dottedLower keepsDot ≠ [] := by
  cases keepsDot with
  | true | false => decide

theorem not_at_of_word (plain : ∀ c ∈ keyword, isAsciiWord c = true) : '@' ∉ keyword.map Char.toLower := by
  intro here
  obtain ⟨c, inside, same⟩ := List.mem_map.mp here
  have word := plain c inside
  rw [(toLower_at (isAsciiWord_ascii word)).mp same] at word
  exact absurd word (by decide)

theorem containsKeyword_iff (dart : Lowering alnum (dottedLower keepsDot)) (some' : keyword ≠ [])
    (plain : ∀ c ∈ keyword, isAsciiWord c = true) : containsKeyword dart content keyword = true ↔
      ∃ before rest, content = before ++ '@' :: rest ∧
        free (endsWord isAsciiWord (dottedLower keepsDot)) before.getLast? = true ∧
        wideToken (dottedLower keepsDot) rest = keyword.map Char.toLower := by
  have lowered : ∀ c ∈ keyword.map Char.toLower, isAsciiWord c = true := by
    intro c here
    obtain ⟨d, inside, rfl⟩ := List.mem_map.mp here
    exact (isAsciiWord_toLower (isAsciiWord_ascii (plain d inside))).trans (plain d inside)
  have token : ∀ front back, dart.letters content = front ++ ('@', ['@']) :: back →
      ((∃ after, back.flatMap Prod.snd = keyword.map Char.toLower ++ after ∧ free isAsciiWord after.head? = true) ↔
        wideToken (dottedLower keepsDot) (back.map Prod.fst) = keyword.map Char.toLower) := by
    intro front back parts
    rw [starts_iff lowered, takeWhile_wide]
    exact fun x here => dart.image content x (parts ▸ List.mem_append_right _ (List.mem_cons_of_mem _ here))
  rw [containsKeyword, if_neg (by rwa [List.isEmpty_iff]),
      dart.lower_ascii (fun c here => isAsciiWord_ascii (plain c here)),
    dart.standalone_iff (not_at_of_word plain) (at_dottedLower keepsDot).1 (at_dottedLower keepsDot).2
        (steady_ascii alnum)]
  constructor
  · rintro ⟨front, back, parts, left, starts⟩
    exact ⟨_, _, dart.place.mpr ⟨front, back, parts, rfl, rfl⟩, left, (token front back parts).mp starts⟩
  · rintro ⟨before, rest, whole, left, starts⟩
    obtain ⟨front, back, parts, rfl, rfl⟩ := dart.place.mp whole
    exact ⟨front, back, parts, left, (token front back parts).mpr starts⟩

theorem isStandaloneKeyword_iff (rust : Lowering alnum (dottedLower true)) (some' : keyword ≠ [])
    (plain : Plain keyword)
    (low : keyword.map Char.toLower = keyword) : isStandaloneKeyword rust content keyword = true ↔
      ∃ before rest, content = before ++ '@' :: rest ∧
        free (endsWord alnum.word (dottedLower true)) before.getLast? = true ∧
        asciiToken rest = keyword ∧ free alnum.word (following rest) = true := by
  have wordy : ∀ c ∈ keyword, alnum.word c = true := fun c here => alnum.word_of_ascii (plain c here).1
  have token : ∀ front back, rust.letters content = front ++ ('@', ['@']) :: back →
      ((∃ after, back.flatMap Prod.snd = keyword ++ after ∧ free alnum.word after.head? = true) ↔
        asciiToken (back.map Prod.fst) = keyword ∧ free alnum.word (following (back.map Prod.fst)) = true) := by
    intro front back parts
    rw [starts_iff wordy, takeWhile_plain plain]
    exact fun x here => rust.image content x (parts ▸ List.mem_append_right _ (List.mem_cons_of_mem _ here))
  have absent := not_at_of_word fun c here => (plain c here).1
  rw [low] at absent
  rw [isStandaloneKeyword, if_neg (by rwa [List.isEmpty_iff])]
  by_cases marked : content.contains '@' = true
  · rw [if_neg (by rw [marked]; decide), rust.lower_ascii (fun c here => isAsciiWord_ascii (plain c here).1), low,
      rust.standalone_iff absent (at_dottedLower true).1 (at_dottedLower true).2 (steady_word alnum)]
    constructor
    · rintro ⟨front, back, parts, left, starts⟩
      exact ⟨_, _, rust.place.mpr ⟨front, back, parts, rfl, rfl⟩, left, (token front back parts).mp starts⟩
    · rintro ⟨before, rest, whole, left, starts⟩
      obtain ⟨front, back, parts, rfl, rfl⟩ := rust.place.mp whole
      exact ⟨front, back, parts, left, (token front back parts).mpr starts⟩
  · rw [if_pos (by rw [Bool.eq_false_iff.mpr marked]; rfl)]
    refine iff_of_false Bool.false_ne_true ?_
    rintro ⟨before, rest, rfl, -⟩
    exact marked (List.contains_iff_mem.mpr (List.mem_append_right _ List.mem_cons_self))

theorem mem_pushUniqueNonBroadcast (rust : Lowering alnum (dottedLower true))
    {token : List Char} {out : List (List Char)}
    (plain : ∀ c ∈ token, isAsciiWord c = true) : name ∈ pushUniqueNonBroadcast rust token out ↔
      name ∈ out ∨ token.map Char.toLower = name ∧ name ≠ everyone ∧ name ≠ here := by
  rw [pushUniqueNonBroadcast, rust.lower_ascii fun c inside => isAsciiWord_ascii (plain c inside)]
  split
  · next fresh =>
    rw [List.mem_append, List.mem_singleton, eq_comm (a := name)]
    exact or_congr_right ⟨fun same => ⟨same, same ▸ fresh.1, same ▸ fresh.2.1⟩, And.left⟩
  · next stale =>
    refine (or_iff_left_of_imp ?_).symm
    rintro ⟨rfl, first, second⟩
    by_contra missing
    exact stale ⟨first, second, missing⟩

theorem getLast?_cons_or {c : Char} {before : List Char} {last : Option Char} :
    (c :: before).getLast?.or last = before.getLast?.or (some c) := by
  rw [List.getLast?_cons]
  cases before.getLast? with
  | none | some => rfl

theorem mem_extractFrom (rust : Lowering alnum (dottedLower true)) {fuel : Nat} {last : Option Char} {text : List Char}
    {out : List (List Char)} (enough : text.length ≤ fuel) (some' : name ≠ []) (named : name ≠ everyone ∧ name ≠ here) :
    name ∈ extractFrom rust fuel last text out ↔ name ∈ out ∨ ∃ before rest, text = before ++ '@' :: rest ∧
      free alnum.word (before.getLast?.or last) = true ∧ asciiToken rest = name := by
  have nowhere : ∀ {last : Option Char} {out : List (List Char)}, name ∈ out ↔ name ∈ out ∨ ∃ before rest,
      [] = before ++ '@' :: rest ∧ free alnum.word (before.getLast?.or last) = true ∧ asciiToken rest = name := by
    intro last out
    refine (or_iff_left_of_imp ?_).symm
    rintro ⟨before, rest, whole, -⟩
    exact absurd whole.symm (by simp)
  induction fuel generalizing last text out with
  | zero =>
    rw [List.length_eq_zero_iff.mp (Nat.le_zero.mp enough)]
    exact nowhere
  | succ fuel ih =>
    cases text with
    | nil => exact nowhere
    | cons c text =>
      rw [extractFrom]
      have shorter : text.length ≤ fuel := Nat.le_of_succ_le_succ enough
      split
      · next skipped =>
        refine (ih shorter).trans (or_congr_right ?_)
        refine ⟨?_, ?_⟩
        · rintro ⟨before, rest, rfl, left, same⟩
          exact ⟨c :: before, rest, rfl, getLast?_cons_or ▸ left, same⟩
        · rintro ⟨before, rest, whole, left, same⟩
          cases before with
          | nil =>
            obtain ⟨rfl, -⟩ := List.cons.inj whole
            rw [List.getLast?_nil, Option.none_or] at left
            rw [left] at skipped
            exact absurd skipped (by decide)
          | cons d before =>
            obtain ⟨rfl, rfl⟩ := List.cons.inj whole
            exact ⟨before, rest, rfl, getLast?_cons_or ▸ left, same⟩
      · next starts =>
        obtain ⟨rfl, clear⟩ : c = '@' ∧ free alnum.word last = true := by
          simpa only [ne_eq, Bool.not_eq_true', Bool.or_eq_true, decide_eq_true_eq, not_or, not_not, Bool.not_eq_false]
            using starts
        have plain : ∀ d ∈ text.takeWhile isAsciiWord, isAsciiWord d = true := fun d here =>
          (List.all_eq_true.mp List.all_takeWhile) d here
        have pushed : name ∈ (if (text.takeWhile isAsciiWord).isEmpty then out
            else pushUniqueNonBroadcast rust (text.takeWhile isAsciiWord) out) ↔ name ∈ out ∨ asciiToken text =
                name := by
          split
          · next empty =>
            refine (or_iff_left_of_imp fun same => absurd same.symm ?_).symm
            rw [asciiToken, List.isEmpty_iff.mp empty]
            exact some'
          · rw [mem_pushUniqueNonBroadcast rust plain, and_iff_left named]
            rfl
        have fits : (text.dropWhile isAsciiWord).length ≤ fuel := (List.dropWhile_sublist _).length_le.trans shorter
        have parts : text.takeWhile isAsciiWord ++ text.dropWhile isAsciiWord = text := List.takeWhile_append_dropWhile
        have beyond : ∀ m : List Char, ('@' :: (text.takeWhile isAsciiWord ++ m)).getLast?.or last =
            m.getLast?.or ((text.takeWhile isAsciiWord).getLast?.or (some '@')) := by
          intro m
          rw [getLast?_cons_or, List.getLast?_append, Option.or_assoc]
        refine (ih fits).trans ?_
        rw [pushed, or_assoc]
        refine or_congr_right ⟨?_, ?_⟩
        · rintro (same | ⟨before, rest, later, left, same⟩)
          · exact ⟨[], text, rfl, clear, same⟩
          · refine ⟨'@' :: (text.takeWhile isAsciiWord ++ before), rest, ?_, (beyond before).symm ▸ left, same⟩
            rw [List.cons_append, List.append_assoc, ← later, parts]
        · rintro ⟨before, rest, whole, left, same⟩
          cases before with
          | nil =>
            obtain ⟨-, rfl⟩ := List.cons.inj whole
            exact Or.inl same
          | cons d before =>
            obtain ⟨rfl, later⟩ := List.cons.inj whole
            have absent : '@' ∉ text.takeWhile isAsciiWord := fun here => absurd (plain '@' here) (by decide)
            obtain ⟨m, rfl, rest'⟩ := parted absent (parts.trans later)
            exact Or.inr ⟨m, rest, rest', beyond m ▸ left, same⟩

theorem extractFrom_names (rust : Lowering alnum (dottedLower true))
    {fuel : Nat} {last : Option Char} {text : List Char}
    {out : List (List Char)} (named : ∀ n ∈ out, n ≠ everyone ∧ n ≠ here) :
    ∀ n ∈ extractFrom rust fuel last text out, n ≠ everyone ∧ n ≠ here := by
  induction fuel generalizing last text out with
  | zero => exact named
  | succ fuel ih =>
    cases text with
    | nil => exact named
    | cons c text =>
      rw [extractFrom]
      split
      · exact ih named
      · refine ih ?_
        split
        · exact named
        · intro n inside
          rcases (mem_pushUniqueNonBroadcast rust fun d here => List.all_eq_true.mp List.all_takeWhile d here).mp inside
            with old | ⟨-, fresh⟩
          · exact named n old
          · exact fresh

end Seen
end Echo.Mentions
