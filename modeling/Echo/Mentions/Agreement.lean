import Echo.Mentions.Tokens

/-! Where the badge of the client and the rows of the server agree: both as a question about the `@`s of a content. -/
namespace Echo.Mentions
open Echo.Lib

section Spots
variable {alnum : Alphanumeric} {keepsDot : Bool} {content username name : List Char}

def broadcast : List (List Char) := [everyone, here]

/-- Somewhere in the content, at an `@`, with what is before it and after it. -/
def Somewhere (content : List Char) (seen : List Char → List Char → Prop) : Prop :=
  ∃ before rest, content = before ++ '@' :: rest ∧ seen before rest

def ClientSees (keepsDot : Bool) (name before rest : List Char) : Prop :=
  free (endsWord isAsciiWord (dottedLower keepsDot)) before.getLast? = true ∧
    (wideToken (dottedLower keepsDot) rest = name ∨ wideToken (dottedLower keepsDot) rest ∈ broadcast)

def ServerSees (alnum : Alphanumeric) (name before rest : List Char) : Prop :=
  (name ∉ broadcast ∧ free alnum.word before.getLast? = true ∧ asciiToken rest = name) ∨
    free (endsWord alnum.word (dottedLower true)) before.getLast? = true ∧ asciiToken rest ∈ broadcast ∧
      free alnum.word (following rest) = true

theorem broadcast_plain {word : List Char} (known : word ∈ broadcast) :
    Plain word ∧ word.map Char.toLower = word ∧ word ≠ [] := by
  have plain : ∀ word : List Char, word.all (fun c => isAsciiWord c && c != 'k' && c != 'i') = true → Plain word := by
    intro word all c inside
    simpa [and_assoc] using List.all_eq_true.mp all c inside
  rcases List.mem_cons.mp known with rfl | known
  · exact ⟨plain _ (by decide), by decide, by decide⟩
  · rw [List.mem_singleton.mp known]
    exact ⟨plain _ (by decide), by decide, by decide⟩

theorem validUsername_plain (valid : validUsername username = true) :
    (∀ c ∈ username, isAsciiWord c = true) ∧ username ≠ [] := by
  rw [validUsername, Bool.and_eq_true, Bool.and_eq_true, decide_eq_true_eq] at valid
  refine ⟨List.all_eq_true.mp valid.2, ?_⟩
  rintro rfl
  exact absurd valid.1.1 (by decide)

theorem containsMention_iff (dart : Lowering alnum (dottedLower keepsDot)) (valid : validUsername username = true) :
    containsMention dart content (some username) = true ↔
      Somewhere content (ClientSees keepsDot (username.map Char.toLower)) := by
  obtain ⟨plain, some'⟩ := validUsername_plain valid
  have keyword : ∀ word ∈ broadcast, containsKeyword dart content word = true ↔
      Somewhere content fun before rest => free (endsWord isAsciiWord (dottedLower keepsDot)) before.getLast? = true ∧
        wideToken (dottedLower keepsDot) rest = word := by
    intro word known
    obtain ⟨plain, low, some'⟩ := broadcast_plain known
    rw [containsKeyword_iff dart some' fun c here => (plain c here).1, low]
    rfl
  have whole : Somewhere content (ClientSees keepsDot (username.map Char.toLower)) ↔
      containsKeyword dart content everyone = true ∨ containsKeyword dart content here = true ∨
        containsKeyword dart content username = true := by
    rw [keyword everyone (by decide), keyword here (by decide), containsKeyword_iff dart some' plain]
    constructor
    · rintro ⟨before, rest, parts, left, name | known⟩
      · exact Or.inr (Or.inr ⟨before, rest, parts, left, name⟩)
      · rcases List.mem_cons.mp known with same | known
        · exact Or.inl ⟨before, rest, parts, left, same⟩
        · exact Or.inr (Or.inl ⟨before, rest, parts, left, List.mem_singleton.mp known⟩)
    · rintro (⟨before, rest, parts, left, same⟩ | ⟨before, rest, parts, left, same⟩ | ⟨before, rest, parts, left, same⟩)
      · exact ⟨before, rest, parts, left, Or.inr (same ▸ List.mem_cons_self)⟩
      · exact ⟨before, rest, parts, left, Or.inr (same ▸ List.mem_cons_of_mem _ List.mem_cons_self)⟩
      · exact ⟨before, rest, parts, left, Or.inl same⟩
  rw [containsMention]
  split
  · next empty =>
    refine iff_of_false Bool.false_ne_true ?_
    rintro ⟨before, rest, parts, -⟩
    rw [List.isEmpty_iff.mp empty] at parts
    exact absurd parts.symm (by simp)
  · rw [whole]
    split
    · next found => exact iff_of_true rfl (Or.inl found)
    · next first =>
      split
      · next found => exact iff_of_true rfl (Or.inr (Or.inl found))
      · next second =>
        rw [if_neg (by rwa [List.isEmpty_iff]), or_iff_right first, or_iff_right second]

theorem persistsMention_iff (rust : Lowering alnum (dottedLower true)) (valid : validUsername username = true) :
    persistsMention rust content username = true ↔
        Somewhere content (ServerSees alnum (username.map Char.toLower)) := by
  obtain ⟨-, some'⟩ := validUsername_plain valid
  have keyword : ∀ word ∈ broadcast, isStandaloneKeyword rust content word = true ↔ Somewhere content fun before rest =>
      free (endsWord alnum.word (dottedLower true)) before.getLast? = true ∧ asciiToken rest = word ∧
        free alnum.word (following rest) = true := by
    intro word known
    obtain ⟨plain, low, some'⟩ := broadcast_plain known
    exact isStandaloneKeyword_iff rust some' plain low
  have names : username.map Char.toLower ∈ extractAtUsernames rust content ↔ Somewhere content fun before rest =>
      username.map Char.toLower ∉ broadcast ∧ free alnum.word before.getLast? = true ∧
        asciiToken rest = username.map Char.toLower := by
    rw [extractAtUsernames]
    split
    · next unmarked =>
      refine iff_of_false List.not_mem_nil ?_
      rintro ⟨before, rest, rfl, -⟩
      rw [List.contains_iff_mem.mpr (List.mem_append_right _ List.mem_cons_self)] at unmarked
      exact absurd unmarked (by decide)
    · by_cases known : username.map Char.toLower ∈ broadcast
      · refine iff_of_false ?_ (fun seen => ?_)
        · intro inside
          have named := extractFrom_names rust (fun n stale => absurd stale List.not_mem_nil) _ inside
          rcases List.mem_cons.mp known with same | last
          · exact named.1 same
          · exact named.2 (List.mem_singleton.mp last)
        · obtain ⟨_, _, _, fresh, _⟩ := seen
          exact fresh known
      · have named : username.map Char.toLower ≠ everyone ∧ username.map Char.toLower ≠ here :=
          ⟨fun same => known (same ▸ List.mem_cons_self),
            fun same => known (same ▸ List.mem_cons_of_mem _ List.mem_cons_self)⟩
        refine (mem_extractFrom rust (Nat.le_refl _) (fun none' => some' (List.map_eq_nil_iff.mp none')) named).trans ?_
        rw [or_iff_right List.not_mem_nil]
        simp only [Option.or_none, Somewhere, known, not_false_eq_true, true_and]
  rw [persistsMention, Bool.or_eq_true, Bool.or_eq_true, decide_eq_true_eq, names, keyword everyone (by decide),
    keyword here (by decide)]
  constructor
  · rintro ((⟨before, rest, parts, seen⟩ | ⟨before, rest, parts, left, same, right⟩) |
      ⟨before, rest, parts, left, same, right⟩)
    · exact ⟨before, rest, parts, Or.inl seen⟩
    · exact ⟨before, rest, parts, Or.inr ⟨left, same ▸ List.mem_cons_self, right⟩⟩
    · exact ⟨before, rest, parts, Or.inr ⟨left, same ▸ List.mem_cons_of_mem _ List.mem_cons_self, right⟩⟩
  · rintro ⟨before, rest, parts, seen | ⟨left, known, right⟩⟩
    · exact Or.inl (Or.inl ⟨before, rest, parts, seen⟩)
    · rcases List.mem_cons.mp known with same | known
      · exact Or.inl (Or.inr ⟨before, rest, parts, left, same, right⟩)
      · exact Or.inr ⟨before, rest, parts, left, List.mem_singleton.mp known, right⟩

def Clean (alnum : Alphanumeric) (keepsDot : Bool) (name before rest : List Char) : Prop :=
  (free alnum.word before.getLast? = true ∧ name ∉ broadcast ∧ asciiToken rest = name ∧ ¬ foreign (following rest)) ∨
    free (endsWord alnum.word (dottedLower true)) before.getLast? = true ∧
      free (endsWord isAsciiWord (dottedLower keepsDot)) before.getLast? = true ∧
      asciiToken rest ∈ broadcast ∧ free alnum.word (following rest) = true

/-- A letter beyond ASCII before the name or in it, or on one of the sides of a keyword. -/
def ClientOnly (alnum : Alphanumeric) (keepsDot : Bool) (name before rest : List Char) : Prop :=
  free (endsWord isAsciiWord (dottedLower keepsDot)) before.getLast? = true ∧
    ((name ∉ broadcast ∧ wideToken (dottedLower keepsDot) rest = name ∧
        (free alnum.word before.getLast? = false ∨ asciiToken rest ≠ name)) ∨
      asciiToken rest ∈ broadcast ∧ ¬ foreign (following rest) ∧
        (free (endsWord alnum.word (dottedLower true)) before.getLast? = false ∨
          free alnum.word (following rest) = false))

/-- One of the two letters with an ASCII letter for lower case, after the name or before a keyword. -/
def ServerOnly (alnum : Alphanumeric) (keepsDot : Bool) (name before rest : List Char) : Prop :=
  (free alnum.word before.getLast? = true ∧ name ∉ broadcast ∧ asciiToken rest = name ∧ foreign (following rest)) ∨
    free (endsWord alnum.word (dottedLower true)) before.getLast? = true ∧
      free (endsWord isAsciiWord (dottedLower keepsDot)) before.getLast? = false ∧
      asciiToken rest ∈ broadcast ∧ free alnum.word (following rest) = true

variable {before rest : List Char} (dotted : List Char)

theorem wideToken_same (known : ¬ foreign (following rest)) : wideToken dotted rest = asciiToken rest := by
  induction rest with
  | nil => rfl
  | cons c rest ih =>
    by_cases word : isAsciiWord c = true
    · rw [following, List.dropWhile_cons_of_pos word] at known
      rw [wideToken, if_pos word, ih known, asciiToken, asciiToken, List.takeWhile_cons_of_pos word, List.map_cons]
    · rw [following, List.dropWhile_cons_of_neg word, List.head?_cons, foreign, Option.some.injEq,
        Option.some.injEq, not_or] at known
      rw [wideToken, if_neg word, if_neg known.1, if_neg known.2, asciiToken, List.takeWhile_cons_of_neg word]
      rfl

theorem wideToken_longer (strange : foreign (following rest)) :
    ∃ d tail, (d = 'k' ∨ d = 'i') ∧ wideToken dotted rest = asciiToken rest ++ d :: tail := by
  induction rest with
  | nil => rcases strange with none' | none' <;> cases none'
  | cons c rest ih =>
    by_cases word : isAsciiWord c = true
    · rw [following, List.dropWhile_cons_of_pos word] at strange
      obtain ⟨d, tail, which, longer⟩ := ih strange
      refine ⟨d, tail, which, ?_⟩
      rw [wideToken, if_pos word, longer, asciiToken, asciiToken, List.takeWhile_cons_of_pos word, List.map_cons]
      rfl
    · rw [following, List.dropWhile_cons_of_neg word, List.head?_cons, foreign, Option.some.injEq,
        Option.some.injEq] at strange
      rw [asciiToken, List.takeWhile_cons_of_neg word, wideToken, if_neg word]
      rcases strange with rfl | rfl
      · exact ⟨'k', _, Or.inl rfl, rfl⟩
      · exact ⟨'i', _, Or.inr rfl, rfl⟩

theorem wideToken_ne (strange : foreign (following rest)) : wideToken dotted rest ≠ asciiToken rest := by
  obtain ⟨d, tail, -, longer⟩ := wideToken_longer dotted strange
  rw [longer]
  intro same
  exact List.cons_ne_nil _ _ (List.append_right_eq_self.mp same)

theorem not_foreign_of_broadcast (known : wideToken dotted rest ∈ broadcast) : ¬ foreign (following rest) := by
  intro strange
  obtain ⟨d, tail, which, longer⟩ := wideToken_longer dotted strange
  have plain := (broadcast_plain known).1 d (longer ▸ List.mem_append_right _ List.mem_cons_self)
  rcases which with rfl | rfl
  · exact plain.2.1 rfl
  · exact plain.2.2 rfl

theorem not_foreign_of_free (clear : free alnum.word (following rest) = true) : ¬ foreign (following rest) := by
  rintro (same | same)
  · rw [same, free, Option.any_some, Alphanumeric.word, alnum.kelvin] at clear
    exact absurd clear (by decide)
  · rw [same, free, Option.any_some, Alphanumeric.word, alnum.dottedI] at clear
    exact absurd clear (by decide)

theorem clientLeft_of_free {neighbour : Option Char} (clear : free alnum.word neighbour = true) :
    free (endsWord isAsciiWord dotted) neighbour = true := by
  cases neighbour with
  | none => rfl
  | some c =>
    rw [free, Option.any_some, Bool.not_eq_true'] at clear ⊢
    have first : c ≠ kelvin := by
      rintro rfl
      rw [Alphanumeric.word, alnum.kelvin] at clear
      exact absurd clear (by decide)
    have second : c ≠ dottedI := by
      rintro rfl
      rw [Alphanumeric.word, alnum.dottedI] at clear
      exact absurd clear (by decide)
    rw [endsWord, if_neg first, if_neg second]
    cases known : isAsciiWord c with
    | false => rfl
    | true =>
      rw [alnum.word_of_ascii known] at clear
      cases clear

theorem clean_iff : Clean alnum keepsDot name before rest ↔
    ClientSees keepsDot name before rest ∧ ServerSees alnum name before rest := by
  constructor
  · rintro (⟨left, fresh, same, known⟩ | ⟨left, left', same, right⟩)
    · exact ⟨⟨clientLeft_of_free _ left, Or.inl ((wideToken_same _ known).trans same)⟩, Or.inl ⟨fresh, left, same⟩⟩
    · refine ⟨⟨left', Or.inr ?_⟩, Or.inr ⟨left, same, right⟩⟩
      rwa [wideToken_same _ (not_foreign_of_free right)]
  · rintro ⟨⟨left', token⟩, ⟨fresh, left, same⟩ | ⟨left, same, right⟩⟩
    · refine Or.inl ⟨left, fresh, same, fun strange => ?_⟩
      rcases token with whole | known
      · exact wideToken_ne _ strange (whole.trans same.symm)
      · exact not_foreign_of_broadcast _ known strange
    · exact Or.inr ⟨left, left', same, right⟩

theorem clientOnly_iff : ClientOnly alnum keepsDot name before rest ↔
    ClientSees keepsDot name before rest ∧ ¬ ServerSees alnum name before rest := by
  constructor
  · rintro ⟨left', ⟨fresh, token, odd⟩ | ⟨same, known, odd⟩⟩
    · refine ⟨⟨left', Or.inl token⟩, ?_⟩
      rintro (⟨-, left, same⟩ | ⟨-, same, right⟩)
      · rcases odd with odd | odd
        · exact absurd (odd.symm.trans left) Bool.false_ne_true
        · exact odd same
      · rw [← wideToken_same (dottedLower keepsDot) (not_foreign_of_free right), token] at same
        exact fresh same
    · refine ⟨⟨left', Or.inr ?_⟩, ?_⟩
      · rwa [wideToken_same _ known]
      · rintro (⟨fresh, -, token⟩ | ⟨left, -, right⟩)
        · exact fresh (token ▸ same)
        · rcases odd with odd | odd
          · exact absurd (odd.symm.trans left) Bool.false_ne_true
          · exact absurd (odd.symm.trans right) Bool.false_ne_true
  · rintro ⟨⟨left', token⟩, unseen⟩
    by_cases known : wideToken (dottedLower keepsDot) rest ∈ broadcast
    · have plain := not_foreign_of_broadcast _ known
      rw [wideToken_same _ plain] at known
      refine ⟨left', Or.inr ⟨known, plain, ?_⟩⟩
      by_contra! both
      rw [ne_eq, ne_eq, Bool.not_eq_false, Bool.not_eq_false] at both
      exact unseen (Or.inr ⟨both.1, known, both.2⟩)
    · have named := token.resolve_right known
      refine ⟨left', Or.inl ⟨named ▸ known, named, ?_⟩⟩
      by_contra! both
      rw [ne_eq, Bool.not_eq_false] at both
      exact unseen (Or.inl ⟨named ▸ known, both.1, both.2⟩)

theorem serverOnly_iff : ServerOnly alnum keepsDot name before rest ↔
    ServerSees alnum name before rest ∧ ¬ ClientSees keepsDot name before rest := by
  constructor
  · rintro (⟨left, fresh, same, strange⟩ | ⟨left, left', same, right⟩)
    · refine ⟨Or.inl ⟨fresh, left, same⟩, ?_⟩
      rintro ⟨-, token | known⟩
      · exact wideToken_ne _ strange (token.trans same.symm)
      · exact not_foreign_of_broadcast _ known strange
    · refine ⟨Or.inr ⟨left, same, right⟩, ?_⟩
      rintro ⟨clear, -⟩
      exact absurd (left'.symm.trans clear) Bool.false_ne_true
  · rintro ⟨⟨fresh, left, same⟩ | ⟨left, same, right⟩, unseen⟩
    · refine Or.inl ⟨left, fresh, same, ?_⟩
      by_contra known
      exact unseen ⟨clientLeft_of_free _ left, Or.inl ((wideToken_same _ known).trans same)⟩
    · refine Or.inr ⟨left, ?_, same, right⟩
      by_contra clear
      rw [Bool.not_eq_false] at clear
      refine unseen ⟨clear, Or.inr ?_⟩
      rwa [wideToken_same _ (not_foreign_of_free right)]

/-- Two answers about some spot agree when some spot has both, or when the odd spots of one kind go with the other's. -/
theorem somewhere_agree {sees seen : List Char → List Char → Prop} :
    (Somewhere content sees ↔ Somewhere content seen) ↔
      Somewhere content (fun before rest => sees before rest ∧ seen before rest) ∨
        (Somewhere content (fun before rest => sees before rest ∧ ¬ seen before rest) ↔
          Somewhere content (fun before rest => seen before rest ∧ ¬ sees before rest)) := by
  have one : Somewhere content sees ↔ Somewhere content (fun before rest => sees before rest ∧ seen before rest) ∨
      Somewhere content (fun before rest => sees before rest ∧ ¬ seen before rest) := by
    constructor
    · rintro ⟨before, rest, parts, here⟩
      by_cases there : seen before rest
      · exact Or.inl ⟨before, rest, parts, here, there⟩
      · exact Or.inr ⟨before, rest, parts, here, there⟩
    · rintro (⟨before, rest, parts, here, -⟩ | ⟨before, rest, parts, here, -⟩)
      · exact ⟨before, rest, parts, here⟩
      · exact ⟨before, rest, parts, here⟩
  have other : Somewhere content seen ↔ Somewhere content (fun before rest => sees before rest ∧ seen before rest) ∨
      Somewhere content (fun before rest => seen before rest ∧ ¬ sees before rest) := by
    constructor
    · rintro ⟨before, rest, parts, there⟩
      by_cases here : sees before rest
      · exact Or.inl ⟨before, rest, parts, here, there⟩
      · exact Or.inr ⟨before, rest, parts, there, here⟩
    · rintro (⟨before, rest, parts, -, there⟩ | ⟨before, rest, parts, there, -⟩)
      · exact ⟨before, rest, parts, there⟩
      · exact ⟨before, rest, parts, there⟩
  rw [one, other]
  by_cases both : Somewhere content fun before rest => sees before rest ∧ seen before rest
  · exact iff_of_true (iff_of_true (Or.inl both) (Or.inl both)) (Or.inl both)
  · rw [or_iff_right both, or_iff_right both, or_iff_right both]

/-- The badge and the rows agree on a content just when both see some mention in it, or when it has mentions that only
the one sees if and only if it has some that only the other does. -/
theorem badge_agrees (dart : Lowering alnum (dottedLower keepsDot)) (rust : Lowering alnum (dottedLower true))
    (valid : validUsername username = true) :
    containsMention dart content (some username) = persistsMention rust content username ↔
      Somewhere content (Clean alnum keepsDot (username.map Char.toLower)) ∨
        (Somewhere content (ClientOnly alnum keepsDot (username.map Char.toLower)) ↔
          Somewhere content (ServerOnly alnum keepsDot (username.map Char.toLower))) := by
  rw [Bool.eq_iff_iff, containsMention_iff dart valid, persistsMention_iff rust valid, somewhere_agree]
  simp only [Somewhere, clean_iff, clientOnly_iff, serverOnly_iff]

end Spots

section Latin

def latin : Alphanumeric where
  holds := fun c => c.isAlphanum || c == kelvin || c == dottedI || c == 'é'
  ascii := fun c ascii => by
    have other : ∀ d : Char, 128 ≤ d.toNat → (c == d) = false := by
      intro d wide
      rw [beq_eq_false_iff_ne]
      rintro rfl
      exact absurd ascii (Nat.not_lt.mpr wide)
    rw [other kelvin (by decide), other dottedI (by decide), other 'é' (by decide), Bool.or_false, Bool.or_false,
      Bool.or_false]
  kelvin := by decide
  dottedI := by decide
  dotAbove := by decide

theorem toLower_wide {c : Char} (wide : 128 ≤ c.toNat) : c.toLower = c := by
  rw [Char.toLower, dif_neg]
  rintro ⟨-, high⟩
  exact absurd (UInt32.le_iff_toNat_le.mp high) (Nat.not_le.mpr (Nat.lt_of_lt_of_le (by decide) wide))

def latinLower (dotted : List Char) : Lowering latin dotted where
  letters := fun text => text.map fun c =>
    (c, if c = kelvin then ['k'] else if c = dottedI then dotted else [c.toLower])
  spells := fun text => by
    rw [List.map_map]
    exact List.map_id text
  image := fun text l inside => by
    obtain ⟨c, -, rfl⟩ := List.mem_map.mp inside
    dsimp only
    split
    · next same => exact same ▸ Image.kelvin
    · next first =>
      split
      · next same => exact same ▸ Image.dottedI
      · next second =>
        rcases Nat.lt_or_ge c.toNat 128 with ascii | wide
        · exact Image.ascii ascii
        · rw [toLower_wide wide]
          exact Image.other wide first second wide rfl

theorem badge_agrees_bob : containsMention (latinLower (dottedLower false)) "@Bob!".toList (some "bob".toList) =
    persistsMention (latinLower (dottedLower true)) "@Bob!".toList "bob".toList := by
  refine (badge_agrees _ _ (by decide)).mpr (Or.inl ⟨[], "Bob!".toList, rfl, Or.inl ⟨rfl, by decide, by decide, ?_⟩⟩)
  unfold foreign
  decide

/-- An accented letter before the `@`, and the Kelvin sign after the name. -/
theorem badge_apart : validUsername "bob".toList = true ∧
    (containsMention (latinLower (dottedLower false)) "é@bob".toList (some "bob".toList) = true ∧
      persistsMention (latinLower (dottedLower true)) "é@bob".toList "bob".toList = false) ∧
    containsMention (latinLower (dottedLower false)) "@bob\u212a".toList (some "bob".toList) = false ∧
      persistsMention (latinLower (dottedLower true)) "@bob\u212a".toList "bob".toList = true := by
  decide +kernel

end Latin
end Echo.Mentions
