import Echo.Canvas.Lounge

/-! The two arrays of `channel_canvas`, statement by statement. `append_stroke` and `add_image` read how many
elements there are in one statement and store in another; all that any participant does may come between. -/
namespace Echo.Canvas
open Echo.Lib

variable {ν δ : Type} {n : Numbers ν δ}

inductive Column
  | drawingData | imagesData
  deriving DecidableEq

def CanvasRow.column (row : CanvasRow ν) : Column → List (Json ν)
  | .drawingData => row.drawingData
  | .imagesData => row.imagesData

def CanvasRow.setColumn (row : CanvasRow ν) (column : Column) (items : List (Json ν)) : CanvasRow ν :=
  match column with
  | .drawingData => { row with drawingData := items }
  | .imagesData => { row with imagesData := items }

@[simp] theorem CanvasRow.column_setColumn (row : CanvasRow ν) (column : Column) (items : List (Json ν)) :
    (row.setColumn column items).column column = items := by
  cases column <;> rfl

theorem CanvasRow.column_setColumn_of_ne (row : CanvasRow ν) {column other : Column} (items : List (Json ν))
    (apart : other ≠ column) : (row.setColumn column items).column other = row.column other := by
  cases column <;> cases other <;> first | rfl | exact (apart rfl).elim

/-- The row, and the appends that have found room but are not stored yet. -/
structure Storage (ν : Type) where
  row : Option (CanvasRow ν) := none
  counted : List (Column × Json ν) := []

namespace Storage

inductive Statement (ν : Type)
  -- the two statements of `append_stroke` and `add_image`, and an append that ends between them
  | count (column : Column) (item : Json ν)
  | upsert (i : Nat)
  | abandon (i : Nat)
  | clearDrawing
  | clearAll
  | updateImage (updated : Json ν)
  | removeImage (imageId : String)

def held (s : Storage ν) : CanvasRow ν := s.row.getD {}

variable (n)

def stored (s : Storage ν) (column : Column) (item : Json ν) : CanvasRow ν :=
  s.held.setColumn column (appended n (s.held.column column) item)

def step (s : Storage ν) : Statement ν → Storage ν
  | .count column item =>
    if cap ≤ (s.held.column column).length then s else { s with counted := s.counted ++ [(column, item)] }
  | .upsert i =>
    match s.counted[i]? with
    | none => s
    | some (column, item) => { row := some (s.stored n column item), counted := s.counted.eraseIdx i }
  | .abandon i => { s with counted := s.counted.eraseIdx i }
  | .clearDrawing => { s with row := some { s.held with drawingData := [] } }
  | .clearAll => { s with row := Echo.Canvas.clearAll s.row true }
  | .updateImage updated => { s with row := Echo.Canvas.updateImage n s.row true updated }
  | .removeImage imageId => { s with row := Echo.Canvas.removeImage n s.row true imageId }

def run (s : Storage ν) (statements : List (Statement ν)) : Storage ν := statements.foldl (step n) s

theorem step_append (row : Option (CanvasRow ν)) (column : Column) (item : Json ν) :
    (run n ⟨row, []⟩ [.count column item, .upsert 0]).row =
      ((match column with
        | .drawingData => appendStroke n row true item
        | .imagesData => addImage n row true item).getD row) := by
  cases column with
  | drawingData =>
    by_cases full : cap ≤ (row.getD {}).drawingData.length
    · simp [run, step, held, appendStroke, CanvasRow.column, full]
    · simp [run, step, held, stored, appendStroke, CanvasRow.column, CanvasRow.setColumn, full]
  | imagesData =>
    by_cases full : cap ≤ (row.getD {}).imagesData.length
    · simp [run, step, held, addImage, CanvasRow.column, full]
    · simp [run, step, held, stored, addImage, CanvasRow.column, CanvasRow.setColumn, full]

end Storage

section Items
variable {items : List (Json ν)} {item updated : Json ν} {x : String}

def others (n : Numbers ν δ) (x : String) (items : List (Json ν)) : List (Json ν) :=
  items.filter fun j => j.idText n ≠ some x

theorem sameId_iff {j : Json ν} : j.sameId n item = true ↔ ∃ x, j.idText n = some x ∧ item.idText n = some x := by
  unfold Json.sameId
  cases j.idText n with
  | none => simp
  | some s =>
    cases item.idText n with
    | none => simp
    | some t =>
      rw [beq_iff_eq]
      exact ⟨fun same => ⟨s, rfl, congrArg some same.symm⟩, fun ⟨_, left, right⟩ => Option.some.inj (left.trans right.symm)⟩

theorem appended_same (same : ∃ j ∈ items, j.sameId n item = true) : appended n items item = items :=
  if_pos (List.any_eq_true.mpr same)

theorem appended_new (new : ¬ ∃ j ∈ items, j.sameId n item = true) : appended n items item = items ++ [item] :=
  if_neg fun any => new (List.any_eq_true.mp any)

theorem appended_distinct (distinct : (items.filterMap (Json.idText n)).Nodup) :
    ((appended n items item).filterMap (Json.idText n)).Nodup := by
  by_cases same : ∃ j ∈ items, j.sameId n item = true
  · rw [appended_same same]
    exact distinct
  · rw [appended_new same, List.filterMap_append]
    cases named : item.idText n with
    | none => simpa [named] using distinct
    | some x =>
      have fresh : x ∉ items.filterMap (Json.idText n) := by
        intro there
        obtain ⟨j, inside, has⟩ := List.mem_filterMap.mp there
        exact same ⟨j, inside, sameId_iff.mpr ⟨x, has, named⟩⟩
      simpa [named] using distinct.append (List.nodup_singleton x) (List.disjoint_singleton.mpr fresh)

def exchanged (n : Numbers ν δ) (updated img : Json ν) : Json ν := if img.sameId n updated then updated else img

theorem idText_exchanged (img : Json ν) : (exchanged n updated img).idText n = img.idText n := by
  unfold exchanged
  split
  · rename_i same
    obtain ⟨x, has, named⟩ := sameId_iff.mp same
    rw [has, named]
  · rfl

theorem others_exchanged (named : updated.idText n = some x) :
    others n x (items.map (exchanged n updated)) = others n x items := by
  induction items with
  | nil => rfl
  | cons img rest ih =>
    have kept : img.idText n ≠ some x → exchanged n updated img = img := by
      intro other
      refine if_neg fun same => ?_
      obtain ⟨y, has, named'⟩ := sameId_iff.mp same
      exact other (has.trans (named'.symm.trans named))
    simp only [others] at ih ⊢
    rw [List.map_cons, List.filter_cons, List.filter_cons, idText_exchanged, ih]
    by_cases other : img.idText n = some x
    · simp [other]
    · simp [other, kept other]

theorem differs_iff {img : Json ν} : differs n img x = true ↔ ∃ y, img.idText n = some y ∧ y ≠ x := by
  unfold differs
  cases img.idText n <;> simp

theorem removed_exact_iff :
    (items.filter fun img => differs n img x) = others n x items ↔ ∀ img ∈ items, (img.idText n).isSome := by
  constructor
  · intro exact' img inside
    by_contra unnamed
    have none : img.idText n = none := Option.not_isSome_iff_eq_none.mp unnamed
    have kept : img ∈ others n x items := List.mem_filter.mpr ⟨inside, by simp [none]⟩
    rw [← exact'] at kept
    obtain ⟨y, has, -⟩ := differs_iff.mp (List.mem_filter.mp kept).2
    rw [none] at has
    cases has
  · intro named
    refine List.filter_congr fun img inside => ?_
    obtain ⟨y, has⟩ := Option.isSome_iff_exists.mp (named img inside)
    rw [Bool.eq_iff_iff]
    simp [differs, has]

end Items

section Bounds

structure CanvasRow.Bounded (n : Numbers ν δ) (row : CanvasRow ν) : Prop where
  short : ∀ column, (row.column column).length ≤ cap
  distinct : ∀ column, ((row.column column).filterMap (Json.idText n)).Nodup

namespace Storage
variable {s : Storage ν}

/-- An append is stored while there is room or its id is there, and what is there has an id when an image is
removed. -/
def Fits (n : Numbers ν δ) (s : Storage ν) : Statement ν → Prop
  | .upsert i => ∀ call ∈ s.counted[i]?, (s.held.column call.1).length < cap ∨
      ∃ j ∈ s.held.column call.1, j.sameId n call.2 = true
  | .removeImage _ => ∀ img ∈ s.held.imagesData, (img.idText n).isSome
  | _ => True

instance (n : Numbers ν δ) (s : Storage ν) (statement : Statement ν) : Decidable (Fits n s statement) :=
  match statement with
  | .upsert i => inferInstanceAs (Decidable (∀ call ∈ s.counted[i]?, _))
  | .removeImage _ => inferInstanceAs (Decidable (∀ img ∈ s.held.imagesData, _))
  | .count .. | .abandon _ | .clearDrawing | .clearAll | .updateImage _ => isTrue trivial

def Exact (n : Numbers ν δ) (s : Storage ν) : Statement ν → Prop
  | .upsert i => ∀ call ∈ s.counted[i]?, (∃ j ∈ s.held.column call.1, j.sameId n call.2 = true) →
      (s.step n (.upsert i)).row = s.row
  | .updateImage updated => (updated.idText n = none → (s.step n (.updateImage updated)).row = s.row) ∧
      ∀ x, updated.idText n = some x →
        others n x (s.step n (.updateImage updated)).held.imagesData = others n x s.held.imagesData
  | .removeImage x => (s.step n (.removeImage x)).held.imagesData = others n x s.held.imagesData
  | _ => True

theorem bounded_empty : CanvasRow.Bounded n {} :=
  ⟨fun column => by cases column <;> exact Nat.zero_le _, fun column => by cases column <;> exact List.nodup_nil⟩

theorem bounded_setColumn {row : CanvasRow ν} (column : Column) (bounded : row.Bounded n) {items : List (Json ν)}
    (short : items.length ≤ cap) (distinct : (items.filterMap (Json.idText n)).Nodup) :
    (row.setColumn column items).Bounded n := by
  constructor <;> intro other <;> by_cases same : other = column
  · rw [same, CanvasRow.column_setColumn]
    exact short
  · rw [CanvasRow.column_setColumn_of_ne row items same]
    exact bounded.short other
  · rw [same, CanvasRow.column_setColumn]
    exact distinct
  · rw [CanvasRow.column_setColumn_of_ne row items same]
    exact bounded.distinct other

theorem stored_bounded_iff (bounded : s.held.Bounded n) (column : Column) (item : Json ν) :
    (s.stored n column item).Bounded n ↔
      (s.held.column column).length < cap ∨ ∃ j ∈ s.held.column column, j.sameId n item = true := by
  constructor
  · intro after
    by_contra full
    obtain ⟨long, new⟩ := not_or.mp full
    have short := after.short column
    rw [stored, CanvasRow.column_setColumn, appended_new new, List.length_append, List.length_singleton] at short
    omega
  · intro room
    refine bounded_setColumn column bounded ?_ (appended_distinct (bounded.distinct column))
    by_cases same : ∃ j ∈ s.held.column column, j.sameId n item = true
    · rw [appended_same same]
      exact bounded.short column
    · rw [appended_new same, List.length_append, List.length_singleton]
      have := room.resolve_right same
      omega

theorem held_updated (updated : Json ν) :
    (s.step n (.updateImage updated)).held = { s.held with imagesData := s.held.imagesData.map (exchanged n updated) } := by
  rcases s with ⟨_ | row, counted⟩ <;> rfl

theorem held_removed (x : String) :
    (s.step n (.removeImage x)).held =
      { s.held with imagesData := s.held.imagesData.filter fun img => differs n img x } := by
  rcases s with ⟨_ | row, counted⟩ <;> rfl

theorem updated_bounded (bounded : s.held.Bounded n) (updated : Json ν) :
    (s.step n (.updateImage updated)).held.Bounded n := by
  rw [held_updated]
  refine bounded_setColumn .imagesData bounded ?_ ?_
  · rw [List.length_map]
    exact bounded.short .imagesData
  · have same : Json.idText n ∘ exchanged n updated = Json.idText n := funext idText_exchanged
    rw [List.filterMap_map, same]
    exact bounded.distinct .imagesData

theorem removed_bounded (bounded : s.held.Bounded n) (x : String) : (s.step n (.removeImage x)).held.Bounded n := by
  rw [held_removed]
  refine bounded_setColumn .imagesData bounded ?_ ?_
  · exact Nat.le_trans (List.length_filter_le _ _) (bounded.short .imagesData)
  · exact (bounded.distinct .imagesData).sublist (List.filter_sublist.filterMap _)

theorem updated_exact (updated : Json ν) : Exact n s (.updateImage updated) := by
  constructor
  · intro unnamed
    have same : ∀ img : Json ν, exchanged n updated img = img := by
      intro img
      refine if_neg fun same => ?_
      obtain ⟨x, -, named⟩ := sameId_iff.mp same
      rw [unnamed] at named
      cases named
    rcases s with ⟨_ | row, counted⟩
    · rfl
    · have map : row.imagesData.map (exchanged n updated) = row.imagesData :=
        (List.map_congr_left fun img _ => same img).trans (List.map_id _)
      change some { row with imagesData := row.imagesData.map (exchanged n updated) } = some row
      rw [map]
  · intro x named
    rw [held_updated]
    exact others_exchanged named

theorem upserted_exact (i : Nat) : Exact n s (.upsert i) := by
  rintro ⟨column, item⟩ here same
  have there : ∃ row, s.row = some row := by
    cases found : s.row with
    | some row => exact ⟨row, rfl⟩
    | none =>
      obtain ⟨j, inside, -⟩ := same
      rw [held, found] at inside
      cases column <;> cases inside
  obtain ⟨row, found⟩ := there
  have heldRow : s.held = row := by rw [held, found]; rfl
  simp only [step, Option.mem_def.mp here, stored, appended_same same]
  rw [heldRow, found]
  cases column <;> rfl

theorem fits_iff (bounded : s.held.Bounded n) (statement : Statement ν) :
    Fits n s statement ↔ Exact n s statement ∧ (s.step n statement).held.Bounded n := by
  cases statement with
  | count column item =>
    refine iff_of_true trivial ⟨trivial, ?_⟩
    simp only [step]
    split <;> exact bounded
  | abandon i => exact iff_of_true trivial ⟨trivial, bounded⟩
  | clearDrawing =>
    exact iff_of_true trivial
      ⟨trivial, bounded_setColumn .drawingData bounded (Nat.zero_le _) List.nodup_nil⟩
  | clearAll => exact iff_of_true trivial ⟨trivial, bounded_empty⟩
  | updateImage updated => exact iff_of_true trivial ⟨updated_exact updated, updated_bounded bounded updated⟩
  | upsert i =>
    refine ⟨fun fits => ⟨upserted_exact i, ?_⟩, fun after call here => ?_⟩
    · cases here : s.counted[i]? with
      | none =>
        simp only [step, here]
        exact bounded
      | some call =>
        simp only [step, here]
        exact (stored_bounded_iff bounded call.1 call.2).mpr (fits call here)
    · have row := after.2
      simp only [step, Option.mem_def.mp here] at row
      exact (stored_bounded_iff bounded call.1 call.2).mp row
  | removeImage x =>
    have removal : Exact n s (.removeImage x) ↔ ∀ img ∈ s.held.imagesData, (img.idText n).isSome := by
      rw [Exact, held_removed]
      exact removed_exact_iff
    exact ⟨fun fits => ⟨removal.mpr fits, removed_bounded bounded x⟩, fun after => removal.mp after.1⟩

/-- In a run of statements that fit, whoever makes them, both arrays stay within their bounds with one element an
id; from there the next statement keeps to that and to what it may touch exactly if it fits. -/
theorem canvas_store_bounded {start : Storage ν} (bounded : start.held.Bounded n) {statements : List (Statement ν)}
    (fits : Along (step n) (Fits n) start statements) :
    (start.run n statements).held.Bounded n ∧ ∀ statement, Fits n (start.run n statements) statement ↔
      Exact n (start.run n statements) statement ∧ ((start.run n statements).step n statement).held.Bounded n := by
  have after : (start.run n statements).held.Bounded n :=
    fits.keeps (fun s statement bounded fine => ((fits_iff bounded statement).mp fine).2) bounded
  exact ⟨after, fits_iff after⟩

def bare : Numbers Unit Unit where
  toDouble := id
  ofDouble := id
  toDouble_ofDouble _ := rfl
  atMostOne _ := false
  timesLegacyScale := id
  text _ := ""

def named (id : String) : Json Unit := .obj [("id", .str id)]

/-- Two participants add a picture each and one of them twice; it is moved and taken away. -/
def shared : List (Statement Unit) :=
  [.count .imagesData (named "a"), .count .imagesData (named "b"), .upsert 1, .count .imagesData (named "b"), .upsert 0,
    .upsert 0, .updateImage (named "b"), .removeImage "b"]

theorem canvas_store_bounded_shared :
    (run bare {} shared).held.imagesData.map (Json.idText bare) = [some "a"] ∧ (run bare {} shared).held.Bounded bare :=
  ⟨by decide +kernel, (canvas_store_bounded bounded_empty (by decide +kernel : Along (step bare) (Fits bare) {} shared)).1⟩

def nearlyFull : Storage Unit := { row := some { drawingData := List.replicate 1999 (.obj []) } }

theorem nearlyFull_bounded : nearlyFull.held.Bounded bare := by
  constructor <;> intro column <;> cases column <;> decide +kernel

def overrun : List (Statement Unit) :=
  [.count .drawingData (named "a"), .count .drawingData (named "b"), .upsert 0, .upsert 0]

def mixed : Storage Unit := { row := some { imagesData := [.obj [], named "a"] } }

theorem canvas_store_overrun :
    (¬ ∀ (start : Storage Unit) statements, start.held.Bounded bare → (run bare start statements).held.Bounded bare) ∧
      ¬ ∀ (s : Storage Unit) statement, s.held.Bounded bare → Exact bare s statement := by
  refine ⟨fun claim => ?_, fun claim => ?_⟩
  · have short := (claim nearlyFull overrun nearlyFull_bounded).short .drawingData
    exact absurd short (by decide +kernel)
  · have bounded : mixed.held.Bounded bare := by
      constructor <;> intro column <;> cases column <;> decide +kernel
    have exact' : (mixed.step bare (.removeImage "a")).held.imagesData.length =
        (others bare "a" mixed.held.imagesData).length := congrArg List.length (claim mixed (.removeImage "a") bounded)
    exact absurd exact' (by decide +kernel)

end Storage
end Bounds
end Echo.Canvas
