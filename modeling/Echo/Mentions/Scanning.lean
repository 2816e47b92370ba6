import Echo.Lib.Search

/-! The scanners for mentions: `db/mentions.rs` on the server and `utils/mention_detection.dart` in the client. The
    tables
of Unicode are parameters. -/
namespace Echo.Mentions
open Echo.Lib

section Characters

/-- The Kelvin sign and the capital I with a dot: the two letters beyond ASCII with an ASCII letter for lower case. -/
def kelvin : Char := '\u212a'
def dottedI : Char := '\u0130'
def dotAbove : Char := '\u0307'

/-- `[A-Za-z0-9_]` -/
def isAsciiWord (c : Char) : Bool := c.isAlphanum || c == '_'

/-- `char::is_alphanumeric` -/
structure Alphanumeric where
  holds : Char → Bool
  ascii : ∀ c : Char, c.toNat < 128 → holds c = c.isAlphanum
  kelvin : holds kelvin = true
  dottedI : holds dottedI = true
  dotAbove : holds dotAbove = false

def Alphanumeric.word (alnum : Alphanumeric) (c : Char) : Bool := alnum.holds c || c == '_'

/-- What a character may become in lower case; `dotted` is what the capital I with a dot becomes. -/
inductive Image (alnum : Alphanumeric) (dotted : List Char) : Char → List Char → Prop where
  | ascii {c : Char} : c.toNat < 128 → Image alnum dotted c [c.toLower]
  | kelvin : Image alnum dotted kelvin ['k']
  | dottedI : Image alnum dotted dottedI dotted
  | other {c d : Char} : 128 ≤ c.toNat → c ≠ Mentions.kelvin → c ≠ Mentions.dottedI → 128 ≤ d.toNat →
      alnum.holds d = alnum.holds c → Image alnum dotted c [d]

/-- A mapping to lower case: each character of a text with what becomes of it there. -/
structure Lowering (alnum : Alphanumeric) (dotted : List Char) where
  letters : List Char → List (Char × List Char)
  spells : ∀ text, (letters text).map Prod.fst = text
  image : ∀ text, ∀ l ∈ letters text, Image alnum dotted l.1 l.2

def Lowering.lower {alnum : Alphanumeric} {dotted : List Char} (L : Lowering alnum dotted) (text : List Char) :
    List Char := (L.letters text).flatMap Prod.snd

end Characters

section Search
variable (isWord : Char → Bool)

def free (neighbour : Option Char) : Bool := !neighbour.any isWord

/-- The search from where it has got to, with the character before that. -/
def scan (target : List Char) : Nat → Option Char → List Char → Bool
  | 0, _, _ => false
  | fuel + 1, last, text =>
    match cutAt target text with
    | none => false
    | some (before, after) =>
      if free isWord (before.getLast?.or last) && free isWord after.head? then true
      else scan target fuel target.getLast? after

def standalone (target text : List Char) : Bool := scan isWord target (text.length + 1) none text

end Search

def everyone : List Char := "everyone".toList
def here : List Char := "here".toList

section Server
variable {alnum : Alphanumeric} {dotted : List Char} (rust : Lowering alnum dotted)

def isStandaloneKeyword (content keyword : List Char) : Bool :=
  if keyword.isEmpty then false
  else if !content.contains '@' then false
  else standalone alnum.word ('@' :: rust.lower keyword) (rust.lower content)

def pushUniqueNonBroadcast (token : List Char) (out : List (List Char)) : List (List Char) :=
  let lower := rust.lower token
  if lower ≠ everyone ∧ lower ≠ here ∧ lower ∉ out then out ++ [lower] else out

/-- The walk over the rest of the content, with the character before it. -/
def extractFrom : Nat → Option Char → List Char → List (List Char) → List (List Char)
  | 0, _, _, out => out
  | _ + 1, _, [], out => out
  | fuel + 1, last, c :: rest, out =>
    if c ≠ '@' || !free alnum.word last then extractFrom fuel (some c) rest out
    else
      let token := rest.takeWhile isAsciiWord
      let out := if token.isEmpty then out else pushUniqueNonBroadcast rust token out
      extractFrom fuel (token.getLast?.or (some '@')) (rest.dropWhile isAsciiWord) out

def extractAtUsernames (content : List Char) : List (List Char) :=
  if !content.contains '@' then [] else extractFrom rust content.length none content []

/-- Whether there will be a row for a member other than the sender; `LOWER` of the database sees ASCII only here. -/
def persistsMention (content username : List Char) : Bool :=
  decide (username.map Char.toLower ∈ extractAtUsernames rust content) ||
    isStandaloneKeyword rust content everyone || isStandaloneKeyword rust content here

/-- `validate_username` of `routes/auth.rs` -/
def validUsername (username : List Char) : Bool :=
  decide (3 ≤ username.length) && decide (username.length ≤ 32) && username.all isAsciiWord

end Server

section Client
variable {alnum : Alphanumeric} {dotted : List Char} (dart : Lowering alnum dotted)

def containsKeyword (content keyword : List Char) : Bool :=
  if keyword.isEmpty then false else standalone isAsciiWord ('@' :: dart.lower keyword) (dart.lower content)

def containsMention (content : List Char) (myUsername : Option (List Char)) : Bool :=
  if content.isEmpty then false
  else if containsKeyword dart content everyone then true
  else if containsKeyword dart content here then true
  else
    match myUsername with
    | none => false
    | some username => if username.isEmpty then false else containsKeyword dart content username

end Client

section Occurrences
variable {isWord : Char → Bool} {word text : List Char}

theorem parted {c : Char} (absent : c ∉ word) {a x rest : List Char} (same : word ++ a = x ++ c :: rest) :
    ∃ m, x = word ++ m ∧ a = m ++ c :: rest := by
  rcases List.append_eq_append_iff.mp same with ⟨m, front, back⟩ | ⟨m, front, back⟩
  · exact ⟨m, front, back⟩
  · cases m with
    | nil =>
      refine ⟨[], ?_, back.symm⟩
      rw [front, List.append_nil, List.append_nil]
    | cons d m =>
      obtain ⟨rfl, -⟩ := List.cons.inj back
      exact absurd (front ▸ List.mem_append_right x List.mem_cons_self) absent

theorem scan_iff (absent : '@' ∉ word) {fuel : Nat} {last : Option Char} (enough : text.length < fuel) :
    scan isWord ('@' :: word) fuel last text = true ↔ ∃ before after, text = before ++ '@' :: word ++ after ∧
      free isWord (before.getLast?.or last) = true ∧ free isWord after.head? = true := by
  induction fuel generalizing last text with
  | zero => exact absurd enough (Nat.not_lt_zero _)
  | succ fuel ih =>
    rw [scan]
    cases found : cutAt ('@' :: word) text with
    | none =>
      refine iff_of_false Bool.false_ne_true ?_
      rintro ⟨before, after, whole, -⟩
      exact cutAt_eq_none.mp found ⟨before, after, whole.symm⟩
    | some parts =>
      obtain ⟨b, a⟩ := parts
      have cut := cutAt_whole found
      dsimp only
      have shorter : a.length < fuel := by
        rw [cut, List.length_append, List.length_append, List.length_cons] at enough
        omega
      have beyond : ∀ m : List Char, (b ++ '@' :: word ++ m).getLast?.or last =
          m.getLast?.or ('@' :: word).getLast? := by
        intro m
        rw [List.getLast?_append, List.getLast?_append, Option.or_assoc, Option.or_assoc]
        refine congrArg (m.getLast?.or ·) (Option.or_of_isSome ?_)
        rw [List.getLast?_cons]
        rfl
      by_cases stands : (free isWord (b.getLast?.or last) && free isWord a.head?) = true
      · rw [if_pos stands]
        obtain ⟨left, right⟩ := Bool.and_eq_true_iff.mp stands
        exact iff_of_true rfl ⟨b, a, cut, left, right⟩
      · rw [if_neg stands, ih shorter]
        constructor
        · rintro ⟨m, after, rfl, left, right⟩
          refine ⟨b ++ '@' :: word ++ m, after, ?_, (beyond m).symm ▸ left, right⟩
          rw [cut]
          simp only [List.append_assoc]
        · rintro ⟨before, after, whole, left, right⟩
          have first := cutAt_first found whole
          obtain ⟨x, rfl, tail⟩ : ∃ x, before = b ++ x ∧ '@' :: word ++ a = x ++ '@' :: word ++ after := by
            rw [cut, List.append_assoc, List.append_assoc] at whole
            rcases List.append_eq_append_iff.mp whole with ⟨x, front, back⟩ | ⟨x, front, back⟩
            · exact ⟨x, front, by rw [back, List.append_assoc]⟩
            · have none' : x = [] := by
                rw [front, List.length_append] at first
                exact List.length_eq_zero_iff.mp (by omega)
              subst none'
              rw [List.append_nil] at front
              exact ⟨[], by rw [front, List.append_nil], by rw [List.nil_append] at back ⊢; exact back.symm⟩
          cases x with
          | nil =>
            have same : after = a := (List.append_cancel_left tail).symm
            subst same
            rw [List.append_nil] at left
            exact absurd (Bool.and_eq_true_iff.mpr ⟨left, right⟩) stands
          | cons d x =>
            obtain ⟨rfl, shorn⟩ : '@' = d ∧ word ++ a = x ++ '@' :: word ++ after := List.cons.inj tail
            rw [List.append_assoc] at shorn
            have split : word ++ a = x ++ '@' :: (word ++ after) := shorn
            obtain ⟨m, rfl, rfl⟩ := parted absent split
            have before : b ++ '@' :: (word ++ m) = b ++ '@' :: word ++ m := by
              simp only [List.append_assoc, List.cons_append]
            rw [before, beyond] at left
            exact ⟨m, after, by simp only [List.append_assoc, List.cons_append], left, right⟩

theorem standalone_iff (absent : '@' ∉ word) : standalone isWord ('@' :: word) text = true ↔
    ∃ before after, text = before ++ '@' :: (word ++ after) ∧ free isWord before.getLast? = true ∧
      free isWord after.head? = true := by
  rw [standalone, scan_iff absent (Nat.lt_succ_self _)]
  simp only [Option.or_none, List.append_assoc, List.cons_append]

end Occurrences
end Echo.Mentions
