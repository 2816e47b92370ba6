import Echo.Lib.Decimal
import Echo.Lib.Slices
import Echo.LinkPreview.Entities
import Echo.Server.Validate

/-! What a preview takes from a page (`extract_og_content`, `extract_meta_content`, `extract_tag_content` of
`routes/link_preview.rs`). A `str` is the list of its characters, and `none` outside is a panic. -/
namespace Echo.LinkPreview
open Echo.Lib
open Echo.Server (isWhitespace)

def maxHtmlBytes : Nat := 262144

def capHtml (html : List Char) : Option (List Char) :=
  if maxHtmlBytes < byteLength html then slice html 0 (floorCharBoundary maxHtmlBytes html) else some html

def ogPattern (property : List Char) : List Char := "property=\"".toList ++ property ++ ['"']
def metaPattern (name : List Char) : List Char := "name=\"".toList ++ name ++ ['"']
def contentAttr : List Char := "content=\"".toList

/-- The first `content="..."` of the window. -/
def contentNear (near : List Char) : Option (Option (List Char)) :=
  match strFind contentAttr near with
  | none => some none
  | some found =>
    let contentStart := found + 9
    (sliceFrom near contentStart).bind fun rest =>
      match strFind ['"'] rest with
      | none => some none
      | some contentEnd =>
        (slice near contentStart (contentStart + contentEnd)).bind fun value =>
          some (if value.isEmpty then none else some (htmlDecode value))

def extractContent (html pattern : List Char) : Option (Option (List Char)) :=
  match strFind pattern html with
  | none => some none
  | some pos => (slice html pos (min (pos + 200) (byteLength html))).bind contentNear

def extractOgContent (html property : List Char) : Option (Option (List Char)) :=
    extractContent html (ogPattern property)
def extractMetaContent (html name : List Char) : Option (Option (List Char)) := extractContent html (metaPattern name)

def openTag (tag : List Char) : List Char := '<' :: tag
def closeTag (tag : List Char) : List Char := "</".toList ++ tag ++ ['>']

def extractTagContent (html tag : List Char) : Option (Option (List Char)) :=
  match strFind (openTag tag) html with
  | none => some none
  | some start =>
    (sliceFrom html start).bind fun opened =>
      match strFind ['>'] opened with
      | none => some none
      | some found =>
        let afterOpen := found + start + 1
        (sliceFrom html afterOpen).bind fun inner =>
          match strFind (closeTag tag) inner with
          | none => some none
          | some found =>
            let last := found + afterOpen
            (slice html afterOpen last).bind fun raw =>
              let value := trimBy isWhitespace raw
              some (if value.isEmpty then none else some (htmlDecode value))

section Values
variable {html near pattern tag text before after : List Char}

def decoded (text : List Char) : Option (List Char) := if text.isEmpty then none else some (htmlDecode text)

def contentOf (near : List Char) : Option (List Char) :=
  (cutAt contentAttr near).bind fun (_, rest) => (cutAt ['"'] rest).bind fun (value, _) => decoded value

def tagOf (html tag : List Char) : Option (List Char) :=
  (cutAt (openTag tag) html).bind fun (_, after) => (cutAt ['>'] (openTag tag ++ after)).bind fun (_, inner) =>
    (cutAt (closeTag tag) inner).bind fun (raw, _) => decoded (trimBy isWhitespace raw)

theorem contentNear_eq (near : List Char) : contentNear near = some (contentOf near) := by
  unfold contentNear contentOf strFind
  cases found : cutAt contentAttr near with
  | none => rfl
  | some parts =>
    obtain ⟨lead, rest⟩ := parts
    have whole := cutAt_whole found
    have start : byteLength (lead ++ contentAttr) = byteLength lead + 9 := byteLength_append lead contentAttr
    have cut : sliceFrom near (byteLength lead + 9) = some rest := by
      rw [← start, whole]
      exact sliceFrom_append _ rest
    simp only [Option.map_some, cut, Option.bind_some]
    cases quote : cutAt ['"'] rest with
    | none => rfl
    | some parts =>
      obtain ⟨value, tail⟩ := parts
      have taken : slice near (byteLength lead + 9) (byteLength lead + 9 + byteLength value) = some value := by
        rw [← start, whole, cutAt_whole quote, List.append_assoc value, ← List.append_assoc _ value]
        exact slice_append _ value _
      simp only [Option.map_some, taken, Option.bind_some]
      rfl

theorem extractTagContent_eq (html tag : List Char) : extractTagContent html tag = some (tagOf html tag) := by
  unfold extractTagContent tagOf strFind
  cases found : cutAt (openTag tag) html with
  | none => rfl
  | some parts =>
    obtain ⟨before, after⟩ := parts
    have whole := cutAt_whole found
    rw [List.append_assoc] at whole
    have opened : sliceFrom html (byteLength before) = some (openTag tag ++ after) := by
      rw [whole]
      exact sliceFrom_append before _
    simp only [Option.map_some, opened, Option.bind_some]
    cases shut : cutAt ['>'] (openTag tag ++ after) with
    | none => rfl
    | some parts =>
      obtain ⟨attributes, inner⟩ := parts
      have whole' : html = before ++ attributes ++ ['>'] ++ inner := by
        rw [whole, cutAt_whole shut]
        simp only [List.append_assoc]
      have start : byteLength (before ++ attributes ++ ['>']) = byteLength attributes + byteLength before + 1 := by
        rw [byteLength_append, byteLength_append, Nat.add_comm (byteLength before)]
        rfl
      have cut : sliceFrom html (byteLength attributes + byteLength before + 1) = some inner := by
        rw [← start, whole']
        exact sliceFrom_append _ inner
      simp only [Option.map_some, cut, Option.bind_some]
      cases closed : cutAt (closeTag tag) inner with
      | none => rfl
      | some parts =>
        obtain ⟨raw, tail⟩ := parts
        have taken : slice html (byteLength attributes + byteLength before + 1)
            (byteLength raw + (byteLength attributes + byteLength before + 1)) = some raw := by
          rw [← start, Nat.add_comm (byteLength raw), whole', cutAt_whole closed, List.append_assoc raw,
            ← List.append_assoc _ raw]
          exact slice_append _ raw _
        simp only [Option.map_some, taken, Option.bind_some]
        rfl

/-- The window of 200 bytes from the pattern does not end inside a character. -/
def WindowFits (html pattern : List Char) : Prop :=
  ∀ pos, strFind pattern html = some pos → pos + 200 < byteLength html → IsCharBoundary html (pos + 200)

theorem extractContent_found (found : cutAt pattern html = some (before, after)) :
    extractContent html pattern = ((splitAtByte (min 200 (byteLength (pattern ++ after))) (pattern ++ after)).map
      fun parts => contentOf parts.1) := by
  have whole := cutAt_whole found
  rw [List.append_assoc] at whole
  have size : byteLength html = byteLength before + byteLength (pattern ++ after) := by rw [whole, byteLength_append]
  have last : min (byteLength before + 200) (byteLength html) =
      byteLength before + min 200 (byteLength (pattern ++ after)) := by omega
  unfold extractContent strFind
  simp only [found, Option.map_some, last]
  rw [whole, slice_boundary]
  cases splitAtByte (min 200 (byteLength (pattern ++ after))) (pattern ++ after) with
  | none => rfl
  | some parts => exact contentNear_eq parts.1

theorem extractContent_safe : extractContent html pattern ≠ none ↔ WindowFits html pattern := by
  cases found : cutAt pattern html with
  | none =>
    unfold extractContent WindowFits strFind
    simp only [found]
    exact iff_of_true (Option.some_ne_none none) fun pos impossible => by cases impossible
  | some parts =>
    obtain ⟨before, after⟩ := parts
    have whole := cutAt_whole found
    rw [List.append_assoc] at whole
    have size : byteLength html = byteLength before + byteLength (pattern ++ after) := by rw [whole, byteLength_append]
    have boundary : IsCharBoundary html (byteLength before + 200) ↔ IsCharBoundary (pattern ++ after) 200 := by
      rw [whole]
      exact isCharBoundary_add
    rw [extractContent_found found, Ne, Option.map_eq_none_iff, ← Ne, ← Option.isSome_iff_ne_none]
    change IsCharBoundary (pattern ++ after) _ ↔ _
    constructor
    · intro fits pos first longer
      unfold strFind at first
      rw [found] at first
      obtain rfl := Option.some.inj first
      dsimp only at longer ⊢
      rw [Nat.min_eq_left (by omega)] at fits
      exact boundary.mpr fits
    · intro fits
      by_cases longer : 200 < byteLength (pattern ++ after)
      · rw [Nat.min_eq_left (Nat.le_of_lt longer)]
        refine boundary.mp (fits _ ?_ (by omega))
        unfold strFind
        rw [found]
        rfl
      · rw [Nat.min_eq_right (Nat.le_of_not_lt longer)]
        exact isCharBoundary_end _

theorem capHtml_safe (html : List Char) :
    ∃ capped rest, capHtml html = some capped ∧ html = capped ++ rest ∧ byteLength capped ≤ maxHtmlBytes := by
  unfold capHtml
  by_cases longer : maxHtmlBytes < byteLength html
  · obtain ⟨capped, rest, whole, size⟩ := floorCharBoundary_splits maxHtmlBytes html
    have taken := slice_append [] capped rest
    rw [List.nil_append, byteLength_nil, Nat.zero_add, size, ← whole] at taken
    rw [if_pos longer]
    exact ⟨capped, rest, taken, whole, size.trans_le (floorCharBoundary_le maxHtmlBytes html)⟩
  · rw [if_neg longer]
    exact ⟨html, [], rfl, (List.append_nil html).symm, Nat.le_of_not_lt longer⟩

end Values

section Pages

/-- The window at the first pattern of the page has the text as its first `content`. -/
def AttributeText (html pattern text : List Char) : Prop :=
  ∃ before near after lead rest, html = before ++ near ++ after ∧ strFind pattern html = some (byteLength before) ∧
    byteLength near = min 200 (byteLength (near ++ after)) ∧
    cutAt contentAttr near = some (lead, text ++ '"' :: rest) ∧ '"' ∉ text

/-- What the first such element of the page has before its end, without the blanks around it. -/
def TagText (html tag text : List Char) : Prop :=
  ∃ before attributes inner raw rest, html = before ++ attributes ++ '>' :: inner ∧ '>' ∉ attributes ∧
    strFind (openTag tag) html = some (byteLength before) ∧ cutAt (closeTag tag) inner = some (raw, rest) ∧
    text = trimBy isWhitespace raw

variable {html pattern tag text value : List Char}

theorem strFind_first {before rest : List Char} (found : strFind pattern (before ++ rest) = some (byteLength before)) :
    ∃ after, rest = pattern ++ after ∧ cutAt pattern (before ++ rest) = some (before, after) := by
  obtain ⟨⟨front, after⟩, cut, size⟩ := Option.map_eq_some_iff.mp found
  have split := splitAtByte_append before rest
  rw [← size] at split
  have whole := cutAt_whole cut
  rw [List.append_assoc] at whole
  rw [splitAtByte_eq_some.mpr ⟨whole, rfl⟩] at split
  cases split
  exact ⟨after, rfl, cut⟩

theorem attributeText_decoded (holds : AttributeText html pattern text) :
    extractContent html pattern = some (decoded text) := by
  obtain ⟨before, near, after, lead, rest, rfl, found, size, first, closed⟩ := holds
  rw [List.append_assoc] at found ⊢
  obtain ⟨behind, whole, cut⟩ := strFind_first found
  rw [extractContent_found cut, ← whole, ← size, splitAtByte_append, Option.map_some]
  simp only [contentOf, first, Option.bind_some, cutAt_singleton closed]

theorem tagText_decoded (element : TagText html tag text) : extractTagContent html tag = some (decoded text) := by
  obtain ⟨before, attributes, inner, raw, rest, rfl, unclosed, found, closed, rfl⟩ := element
  rw [List.append_assoc] at found ⊢
  obtain ⟨behind, whole, cut⟩ := strFind_first found
  rw [extractTagContent_eq]
  simp only [tagOf, cut, Option.bind_some, ← whole, cutAt_singleton unclosed, closed]

def shown (value : List Char) : Option (List Char) := if value.isEmpty then none else some value

def Settled (value : List Char) : Prop := ∀ e ∈ otherEntities, ¬ e.1 <:+: value

theorem written_nil (written : Written value text) : text = [] ↔ value = [] := by
  cases written with
  | nil => exact iff_of_true rfl rfl
  | raw _ _ => exact iff_of_false (List.cons_ne_nil _ _) (List.cons_ne_nil _ _)
  | entity inside _ =>
    obtain ⟨body, whole, -⟩ := coded_all.body inside
    rw [whole]
    exact iff_of_false (List.cons_ne_nil _ _) (List.cons_ne_nil _ _)

theorem decoded_iff (written : Written value text) : some (decoded text) = some (shown value) ↔ Settled value := by
  unfold decoded shown
  simp only [List.isEmpty_iff, written_nil written, Option.some.injEq]
  by_cases empty : value = []
  · subst empty
    refine iff_of_true rfl fun e inside there => ?_
    obtain ⟨body, whole, -⟩ := coded_all.sub.body inside
    rw [whole] at there
    exact List.cons_ne_nil _ _ (List.infix_nil.mp there)
  · rw [if_neg empty, if_neg empty, Option.some.injEq]
    exact htmlDecode_iff written

/-- A panic needs a character across the end of the window; a value comes back unless it has text that looks like one of
the later entities, which is decoded a second time. -/
theorem extraction_faithful (html name : List Char) :
    ((extractOgContent html name ≠ none ↔ WindowFits html (ogPattern name)) ∧
        (extractMetaContent html name ≠ none ↔ WindowFits html (metaPattern name)) ∧
        extractTagContent html name ≠ none) ∧
      (∃ capped rest, capHtml html = some capped ∧ html = capped ++ rest ∧ byteLength capped ≤ maxHtmlBytes) ∧
      ∀ value text, Written value text → (htmlDecode text = value ↔ Settled value) ∧
        (AttributeText html (ogPattern name) text →
          (extractOgContent html name = some (shown value) ↔ Settled value)) ∧
        (AttributeText html (metaPattern name) text →
          (extractMetaContent html name = some (shown value) ↔ Settled value)) ∧
        (TagText html name text → (extractTagContent html name = some (shown value) ↔ Settled value)) := by
  refine ⟨⟨extractContent_safe, extractContent_safe, ?_⟩, capHtml_safe html, ?_⟩
  · rw [extractTagContent_eq]
    exact Option.some_ne_none _
  · intro value text written
    refine ⟨htmlDecode_iff written, fun holds => ?_, fun holds => ?_, fun element => ?_⟩
    · rw [extractOgContent, attributeText_decoded holds]
      exact decoded_iff written
    · rw [extractMetaContent, attributeText_decoded holds]
      exact decoded_iff written
    · rw [tagText_decoded element]
      exact decoded_iff written

end Pages

section Samples

def title : List Char := "og:title".toList

def straddling : List Char := ogPattern title ++ List.replicate 180 'a' ++ "é".toList

/-- Shown on a page, the text of an entity: `<` comes back. -/
def entityText : List Char := "&amp;lt;".toList

theorem entityText_written : Written "&lt;".toList entityText :=
  .entity (e := ampersand) List.mem_cons_self
    (.raw (by decide) (.raw (by decide) (.raw (by decide) .nil)))

theorem extraction_faithful_breaks :
    ¬ (∀ html name : List Char, extractOgContent html name ≠ none ∧ extractMetaContent html name ≠ none ∧
        extractTagContent html name ≠ none) ∧
      ¬ ∀ value text, Written value text → htmlDecode text = value := by
  constructor
  · intro safe
    exact (safe straddling title).1 (by decide +kernel)
  · intro faithful
    exact absurd (faithful _ _ entityText_written) (by decide +kernel)

def page : List Char := ogPattern title ++ " content=\"A &amp; B\"/>".toList

theorem written_sample : Written "A & B".toList "A &amp; B".toList :=
  .raw (by decide) (.raw (by decide) (.entity (e := ampersand) List.mem_cons_self
    (.raw (by decide) (.raw (by decide) .nil))))

theorem extraction_faithful_sample : extractOgContent page title = some (some "A & B".toList) := by
  obtain ⟨-, -, values⟩ := extraction_faithful page title
  have settled : Settled "A & B".toList := by
    intro e inside
    revert e
    decide +kernel
  refine ((values _ _ written_sample).2.1 ?_).mpr settled
  exact ⟨[], page, [], ogPattern title ++ [' '], "/>".toList, by decide +kernel, by decide +kernel, by decide +kernel,
    by decide +kernel, by decide +kernel⟩

end Samples
end Echo.LinkPreview
