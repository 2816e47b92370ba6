import Echo.Canvas.Lounge

/-! The row, the watching and the drawing participant after the same events. The row keeps the first copy of
an id where a client keeps the last one, and takes what a client drops. -/
namespace Echo.Canvas
open Echo.Lib (Along)

variable {ν δ : Type} {n : Numbers ν δ}

section Items
variable {α : Type} [Identified α] {items : List α} {a b : α} {i : String}

omit [Identified α] in
theorem capped_short (short : items.length ≤ cap) : capped items = items := if_pos short

theorem without_fresh (fresh : i ∉ ids items) : without i items = items := by
  apply List.filter_eq_self.mpr
  intro item inside
  exact decide_eq_true fun same => fresh (same ▸ List.mem_map_of_mem inside)

theorem mem_without {item : α} (inside : item ∈ without i items) : item ∈ items ∧ Identified.id item ≠ i := by
  obtain ⟨held, other⟩ := List.mem_filter.mp inside
  exact ⟨held, of_decide_eq_true other⟩

theorem without_last (distinct : (ids items).Nodup) (last : items.getLast? = some a) :
    without (Identified.id a) items ++ [a] = items := by
  obtain ⟨before, rfl⟩ := List.getLast?_eq_some_iff.mp last
  rw [ids, List.map_append, List.nodup_append] at distinct
  have fresh : Identified.id a ∉ ids before := fun inside =>
    distinct.2.2 _ inside _ (List.mem_singleton.mpr rfl) rfl
  have rest : without (Identified.id a) [a] = [] := by simp [without]
  unfold without at fresh rest ⊢
  rw [List.filter_append, rest, List.append_nil]
  exact congrArg (· ++ [a]) (without_fresh fresh)

theorem ids_replaced : ids (replaced a items) = ids items := by
  induction items with
  | nil => rfl
  | cons held rest ih =>
    unfold replaced
    split
    · next same => simp [ids, same]
    · rw [ids, List.map_cons, ids, List.map_cons]
      exact congrArg _ ih

theorem replaced_eq_map (distinct : (ids items).Nodup) :
    replaced a items = items.map fun x => if Identified.id x = Identified.id a then a else x := by
  induction items with
  | nil => rfl
  | cons held rest ih =>
    rw [ids, List.map_cons, List.nodup_cons] at distinct
    rw [replaced, List.map_cons]
    split
    · next same =>
      have others : rest.map (fun x => if Identified.id x = Identified.id a then a else x) = rest := by
        refine (List.map_congr_left fun x inside => ?_).trans (List.map_id rest)
        refine if_neg fun again => distinct.1 ?_
        rw [same, ← again]
        exact List.mem_map_of_mem inside
      rw [others]
    · rw [ih distinct.2]

theorem replaced_absent (absent : Identified.id a ∉ ids items) : replaced a items = items := by
  induction items with
  | nil => rfl
  | cons held rest ih =>
    rw [ids, List.map_cons, List.mem_cons, not_or] at absent
    rw [replaced, if_neg (Ne.symm absent.1), ih absent.2]

theorem replaced_replaced (same : Identified.id a = Identified.id b) : replaced b (replaced a items) = replaced b items := by
  induction items with
  | nil => rfl
  | cons held rest ih =>
    by_cases here : Identified.id held = Identified.id a
    · rw [replaced, if_pos here, replaced, if_pos same, replaced, if_pos (here.trans same)]
    · rw [replaced, if_neg here, replaced, if_neg (same ▸ here), replaced, if_neg (same ▸ here), ih]

end Items

section Rows
variable {α : Type} [Identified α] {parse : Json ν → Option α}
  {held : List (Json ν)} {items : List α} {p : Json ν} {a : α} {i : String}

variable {j : Json ν}

omit [Identified α] in
theorem mapM_cons_iff :
    (j :: held).mapM parse = some items ↔ ∃ x rest, parse j = some x ∧ held.mapM parse = some rest ∧ items = x :: rest := by
  rw [List.mapM_cons]
  constructor
  · intro read
    obtain ⟨x, first, read⟩ := Option.bind_eq_some_iff.mp read
    obtain ⟨rest, others, read⟩ := Option.bind_eq_some_iff.mp read
    exact ⟨x, rest, first, others, (Option.some.inj read).symm⟩
  · rintro ⟨x, rest, first, others, rfl⟩
    rw [first, others]
    rfl

omit [Identified α] in
theorem length_mapM (read : held.mapM parse = some items) : items.length = held.length := by
  induction held generalizing items with
  | nil =>
    cases read
    rfl
  | cons j held ih =>
    obtain ⟨x, rest, -, others, rfl⟩ := mapM_cons_iff.mp read
    rw [List.length_cons, List.length_cons, ih others]

theorem idText_mapM (named : ∀ {j x}, parse j = some x → j.idText n = some (Identified.id x))
    (read : held.mapM parse = some items) : held.map (Json.idText n) = (ids items).map some := by
  induction held generalizing items with
  | nil =>
    cases read
    rfl
  | cons j held ih =>
    obtain ⟨x, rest, first, others, rfl⟩ := mapM_cons_iff.mp read
    rw [List.map_cons, named first, ih others]
    rfl

theorem sameId_of_idText {s t : String} (left : j.idText n = some s) (right : p.idText n = some t) :
    j.sameId n p = (s == t) := by
  unfold Json.sameId
  rw [left, right]

theorem sameId_none (none : p.idText n = none) : j.sameId n p = false := by
  unfold Json.sameId
  rw [none]
  cases j.idText n <;> rfl

theorem any_sameId (named : ∀ {j x}, parse j = some x → j.idText n = some (Identified.id x))
    (read : held.mapM parse = some items) (own : p.idText n = some i) :
    (held.any fun s => s.sameId n p) = true ↔ i ∈ ids items := by
  induction held generalizing items with
  | nil =>
    cases read
    simp
  | cons j held ih =>
    obtain ⟨x, rest, first, others, rfl⟩ := mapM_cons_iff.mp read
    rw [List.any_cons, Bool.or_eq_true, ih others, sameId_of_idText (named first) own, beq_iff_eq]
    exact (or_congr_left eq_comm).trans List.mem_cons.symm

theorem appended_held (named : ∀ {j x}, parse j = some x → j.idText n = some (Identified.id x))
    (read : held.mapM parse = some items) (own : p.idText n = some i) (repeated : i ∈ ids items) :
    appended n held p = held :=
  if_pos ((any_sameId named read own).mpr repeated)

theorem appended_fresh (named : ∀ {j x}, parse j = some x → j.idText n = some (Identified.id x))
    (read : held.mapM parse = some items) (new : parse p = some a) (fresh : Identified.id a ∉ ids items) :
    (appended n held p).mapM parse = some (items ++ [a]) := by
  unfold appended
  rw [if_neg fun there => fresh ((any_sameId named read (named new)).mp there), List.mapM_append, read]
  simp [new]

theorem mapM_updated (named : ∀ {j x}, parse j = some x → j.idText n = some (Identified.id x))
    (read : held.mapM parse = some items) (new : parse p = some a) :
    (held.map fun img => if img.sameId n p then p else img).mapM parse =
      some (items.map fun x => if Identified.id x = Identified.id a then a else x) := by
  induction held generalizing items with
  | nil =>
    cases read
    rfl
  | cons j held ih =>
    obtain ⟨x, rest, first, others, rfl⟩ := mapM_cons_iff.mp read
    rw [List.map_cons, List.map_cons, mapM_cons_iff]
    refine ⟨_, _, ?_, ih others, rfl⟩
    rw [sameId_of_idText (named first) (named new)]
    by_cases same : Identified.id x = Identified.id a
    · rw [if_pos same, if_pos (beq_iff_eq.mpr same)]
      exact new
    · rw [if_neg same, if_neg fun equal => same (beq_iff_eq.mp equal)]
      exact first

theorem map_unmatched (named : ∀ {j x}, parse j = some x → j.idText n = some (Identified.id x))
    (read : held.mapM parse = some items) (unmatched : ∀ t ∈ p.idText n, t ∉ ids items) :
    (held.map fun img => if img.sameId n p then p else img) = held := by
  refine (List.map_congr_left fun j inside => ?_).trans (List.map_id held)
  refine if_neg fun same => ?_
  cases own : p.idText n with
  | none =>
    rw [sameId_none own] at same
    cases same
  | some t => exact unmatched t own ((any_sameId named read own).mp (List.any_eq_true.mpr ⟨j, inside, same⟩))

theorem mapM_differs (named : ∀ {j x}, parse j = some x → j.idText n = some (Identified.id x))
    (read : held.mapM parse = some items) :
    (held.filter fun img => differs n img i).mapM parse = some (without i items) := by
  induction held generalizing items with
  | nil =>
    cases read
    rfl
  | cons j held ih =>
    obtain ⟨x, rest, first, others, rfl⟩ := mapM_cons_iff.mp read
    have text : differs n j i = (Identified.id x != i) := by
      unfold differs
      rw [named first]
    unfold without at ih ⊢
    by_cases same : Identified.id x = i
    · rw [List.filter_cons_of_neg (by simp [text, same]), List.filter_cons_of_neg (by simp [same])]
      exact ih others
    · rw [List.filter_cons_of_pos (by simp [text, same]), List.filter_cons_of_pos (by simp [same])]
      exact mapM_cons_iff.mpr ⟨x, _, first, ih others, rfl⟩

end Rows

section Taken
variable {row row' : Option (CanvasRow ν)} {board : CanvasState δ} {sent : Sent ν}

/-- A client that attaches reads this board, and the ids on it are distinct. -/
structure Agrees (n : Numbers ν δ) (row : Option (CanvasRow ν)) (board : CanvasState δ) : Prop where
  strokes : (row.getD {}).drawingData.mapM (CanvasStroke.fromJson n) = some board.strokes
  images : (row.getD {}).imagesData.mapM (CanvasImage.fromJson n) = some board.images
  distinctStrokes : (ids board.strokes).Nodup
  distinctImages : (ids board.images).Nodup

theorem Agrees.fetched (agrees : Agrees n row board) : fetchCanvas n row = some board := by
  unfold fetchCanvas
  dsimp only
  rw [agrees.strokes, agrees.images]
  rfl

def HasRoom (board : CanvasState δ) (sent : Sent ν) : Prop :=
  match sent.kind with
  | .stroke => board.strokes.length < cap
  | .imageAdd => board.images.length < cap
  | .imageRemove => (sent.payload.field "id").asString.isSome = true
  | .clear | .imageMove => True

/-- An item that a client can read is new or the last one again; one that it cannot read repeats an id. -/
def AddsAlike {α : Type} [Identified α] [DecidableEq α] (n : Numbers ν δ) (items : List α) (read : Option α)
    (payload : Json ν) : Prop :=
  match read with
  | some item => Identified.id item ∉ ids items ∨ items.getLast? = some item
  | none => ∃ id ∈ payload.idText n, id ∈ ids items

def Alike [DecidableEq δ] (n : Numbers ν δ) (board : CanvasState δ) (sent : Sent ν) : Prop :=
  match sent.kind with
  | .stroke =>
    partialId sent.fromUserId ∉ ids board.strokes ∧
      AddsAlike n board.strokes (CanvasStroke.fromJson n sent.payload) sent.payload
  | .clear => isReadable sent.payload = true
  | .imageAdd => AddsAlike n board.images (CanvasImage.fromJson n sent.payload) sent.payload
  | .imageMove =>
    (CanvasImage.fromJson n sent.payload).isSome = true ∨ ∀ id ∈ sent.payload.idText n, id ∉ ids board.images
  | .imageRemove => True

instance (board : CanvasState δ) (sent : Sent ν) : Decidable (HasRoom board sent) :=
  match sent with
  | ⟨_, .stroke, _⟩ => inferInstanceAs (Decidable (board.strokes.length < cap))
  | ⟨_, .imageAdd, _⟩ => inferInstanceAs (Decidable (board.images.length < cap))
  | ⟨_, .imageRemove, payload⟩ => inferInstanceAs (Decidable ((payload.field "id").asString.isSome = true))
  | ⟨_, .clear, _⟩ | ⟨_, .imageMove, _⟩ => isTrue trivial

instance {α : Type} [Identified α] [DecidableEq α] (items : List α) (read : Option α) (payload : Json ν) :
    Decidable (AddsAlike n items read payload) :=
  match read with
  | some item => inferInstanceAs (Decidable (Identified.id item ∉ ids items ∨ items.getLast? = some item))
  | none => inferInstanceAs (Decidable (∃ id ∈ payload.idText n, id ∈ ids items))

instance [DecidableEq δ] (board : CanvasState δ) (sent : Sent ν) : Decidable (Alike n board sent) :=
  match sent with
  | ⟨from', .stroke, payload⟩ =>
    inferInstanceAs (Decidable (partialId from' ∉ ids board.strokes ∧
      AddsAlike n board.strokes (CanvasStroke.fromJson n payload) payload))
  | ⟨_, .clear, payload⟩ => inferInstanceAs (Decidable (isReadable payload = true))
  | ⟨_, .imageAdd, payload⟩ =>
    inferInstanceAs (Decidable (AddsAlike n board.images (CanvasImage.fromJson n payload) payload))
  | ⟨_, .imageMove, payload⟩ =>
    inferInstanceAs (Decidable ((CanvasImage.fromJson n payload).isSome = true ∨
      ∀ id ∈ payload.idText n, id ∉ ids board.images))
  | ⟨_, .imageRemove, _⟩ => isTrue trivial

variable {payload : Json ν} {from' : String}

theorem readable_of_stroke {stroke : CanvasStroke δ}
    (read : CanvasStroke.fromJson n payload = some stroke) : isReadable payload = true := by
  cases payload with
  | obj | null => rfl
  | _ => cases read

theorem readable_of_image {image : CanvasImage δ}
    (read : CanvasImage.fromJson n payload = some image) : isReadable payload = true := by
  cases payload with
  | obj | null => rfl
  | _ => cases read

theorem readable_of_id {id : String} (read : (payload.field "id").asString = some id) :
    isReadable payload = true := by
  cases payload with
  | obj | null => rfl
  | _ => cases read

theorem adds_alike {α : Type} [Identified α] [DecidableEq α] {parse : Json ν → Option α}
    (named : ∀ {j x}, parse j = some x → j.idText n = some (Identified.id x)) {held : List (Json ν)} {items : List α}
    (read : held.mapM parse = some items) (distinct : (ids items).Nodup) (room : items.length < cap)
    {item : α} (new : parse payload = some item)
    (alike : Identified.id item ∉ ids items ∨ items.getLast? = some item) :
    (appended n held payload).mapM parse = some (capped (without (Identified.id item) items ++ [item])) ∧
      (ids (capped (without (Identified.id item) items ++ [item]))).Nodup := by
  rcases alike with fresh | last
  · have short : (items ++ [item]).length ≤ cap := by
      rw [List.length_append, List.length_singleton]
      exact room
    rw [without_fresh fresh, capped_short short]
    refine ⟨appended_fresh named read new fresh, ?_⟩
    rw [ids, List.map_append, List.nodup_append]
    refine ⟨distinct, List.nodup_singleton _, fun id inside other single => ?_⟩
    rw [List.mem_singleton.mp single]
    rintro rfl
    exact fresh inside
  · have repeated : Identified.id item ∈ ids items := List.mem_map_of_mem (List.mem_of_getLast? last)
    rw [without_last distinct last, capped_short (Nat.le_of_lt room), appended_held named read (named new) repeated]
    exact ⟨read, distinct⟩

variable [DecidableEq δ]

theorem Agrees.stroke (agrees : Agrees n row board) {from' : String} {payload : Json ν}
    (room : board.strokes.length < cap) (apart : partialId from' ∉ ids board.strokes)
    (alike : AddsAlike n board.strokes (CanvasStroke.fromJson n payload) payload) :
    ∃ row', appendStroke n row true payload = some row' ∧
      Agrees n row' (handleCanvasEvent n board from' .stroke payload) := by
  have length := length_mapM agrees.strokes
  have taken : appendStroke n row true payload =
      some (some { row.getD {} with drawingData := appended n (row.getD {}).drawingData payload }) := by
    unfold appendStroke
    rw [Bool.not_true, if_neg Bool.false_ne_true]
    exact if_neg (by omega)
  refine ⟨_, taken, ?_⟩
  unfold handleCanvasEvent
  unfold AddsAlike at alike
  cases read : CanvasStroke.fromJson n payload with
  | some stroke =>
    rw [read] at alike
    obtain ⟨same, distinct⟩ := adds_alike CanvasStroke.idText_fromJson agrees.strokes agrees.distinctStrokes room read alike
    rw [if_pos (readable_of_stroke read)]
    dsimp only
    rw [without_fresh apart]
    exact ⟨same, agrees.images, distinct, agrees.distinctImages⟩
  | none =>
    rw [read] at alike
    obtain ⟨id, own, repeated⟩ := alike
    have kept := appended_held CanvasStroke.idText_fromJson agrees.strokes own repeated
    have same : (if isReadable payload = true then board else board) = board := ite_self _
    dsimp only
    rw [same]
    exact ⟨(congrArg (List.mapM _) kept).trans agrees.strokes, agrees.images, agrees.distinctStrokes, agrees.distinctImages⟩

theorem Agrees.imageAdd (agrees : Agrees n row board)
    (room : board.images.length < cap)
    (alike : AddsAlike n board.images (CanvasImage.fromJson n payload) payload) :
    ∃ row', addImage n row true payload = some row' ∧
      Agrees n row' (handleCanvasEvent n board from' .imageAdd payload) := by
  have length := length_mapM agrees.images
  have taken : addImage n row true payload =
      some (some { row.getD {} with imagesData := appended n (row.getD {}).imagesData payload }) := by
    unfold addImage
    rw [Bool.not_true, if_neg Bool.false_ne_true]
    exact if_neg (by omega)
  refine ⟨_, taken, ?_⟩
  unfold handleCanvasEvent
  unfold AddsAlike at alike
  cases read : CanvasImage.fromJson n payload with
  | some image =>
    rw [read] at alike
    obtain ⟨same, distinct⟩ := adds_alike CanvasImage.idText_fromJson agrees.images agrees.distinctImages room read alike
    rw [if_pos (readable_of_image read)]
    exact ⟨agrees.strokes, same, agrees.distinctStrokes, distinct⟩
  | none =>
    rw [read] at alike
    obtain ⟨id, own, repeated⟩ := alike
    have kept := appended_held CanvasImage.idText_fromJson agrees.images own repeated
    have same : (if isReadable payload = true then board else board) = board := ite_self _
    dsimp only
    rw [same]
    exact ⟨agrees.strokes, (congrArg (List.mapM _) kept).trans agrees.images, agrees.distinctStrokes,
      agrees.distinctImages⟩

omit [DecidableEq δ] in
theorem Agrees.imageMove (agrees : Agrees n row board)
    (alike : (CanvasImage.fromJson n payload).isSome = true ∨ ∀ id ∈ payload.idText n, id ∉ ids board.images) :
    Agrees n (updateImage n row true payload) (handleCanvasEvent n board from' .imageMove payload) := by
  have imagesData : ((updateImage n row true payload).getD {}).imagesData =
      (row.getD {}).imagesData.map fun img => if img.sameId n payload then payload else img := by
    cases row <;> rfl
  have drawingData : ((updateImage n row true payload).getD {}).drawingData = (row.getD {}).drawingData := by
    cases row <;> rfl
  unfold handleCanvasEvent
  cases read : CanvasImage.fromJson n payload with
  | some image =>
    rw [if_pos (readable_of_image read)]
    refine ⟨drawingData ▸ agrees.strokes, ?_, agrees.distinctStrokes, ?_⟩
    · rw [imagesData, mapM_updated CanvasImage.idText_fromJson agrees.images read,
        ← replaced_eq_map agrees.distinctImages]
    · change (ids (replaced image board.images)).Nodup
      rw [ids_replaced]
      exact agrees.distinctImages
  | none =>
    rw [read] at alike
    have unmatched := alike.resolve_left Bool.false_ne_true
    have same : (if isReadable payload = true then board else board) = board := ite_self _
    dsimp only
    rw [same]
    refine ⟨drawingData ▸ agrees.strokes, ?_, agrees.distinctStrokes, agrees.distinctImages⟩
    rw [imagesData, map_unmatched CanvasImage.idText_fromJson agrees.images unmatched]
    exact agrees.images

omit [DecidableEq δ] in
theorem Agrees.imageRemove (agrees : Agrees n row board) {id : String}
    (named : (payload.field "id").asString = some id) :
    Agrees n (removeImage n row true id) (handleCanvasEvent n board from' .imageRemove payload) := by
  have imagesData : ((removeImage n row true id).getD {}).imagesData =
      (row.getD {}).imagesData.filter fun img => differs n img id := by
    cases row <;> rfl
  have drawingData : ((removeImage n row true id).getD {}).drawingData = (row.getD {}).drawingData := by
    cases row <;> rfl
  unfold handleCanvasEvent
  rw [if_pos (readable_of_id named), named]
  refine ⟨drawingData ▸ agrees.strokes, ?_, agrees.distinctStrokes, ?_⟩
  · rw [imagesData]
    exact mapM_differs CanvasImage.idText_fromJson agrees.images
  · exact agrees.distinctImages.sublist (List.filter_sublist.map _)

theorem Agrees.taken (agrees : Agrees n row board) (room : HasRoom board sent) (alike : Alike n board sent) :
    ∃ row', persistCanvasState n row true sent.kind sent.payload = some row' ∧ Agrees n row' (handled n board sent) := by
  obtain ⟨from', kind, payload⟩ := sent
  cases kind with
  | stroke => exact agrees.stroke room alike.1 alike.2
  | clear =>
    refine ⟨_, rfl, ?_⟩
    have emptied : handled n board ⟨from', .clear, payload⟩ = {} := if_pos alike
    rw [emptied]
    exact ⟨rfl, rfl, List.nodup_nil, List.nodup_nil⟩
  | imageAdd => exact agrees.imageAdd room alike
  | imageMove => exact ⟨_, rfl, agrees.imageMove alike⟩
  | imageRemove =>
    obtain ⟨id, named⟩ := Option.isSome_iff_exists.mp room
    exact ⟨_, congrArg (Option.map _) named, agrees.imageRemove named⟩

omit [DecidableEq δ] in
theorem Agrees.refused (agrees : Agrees n row board) (full : ¬ HasRoom board sent) :
    persistCanvasState n row true sent.kind sent.payload = none := by
  obtain ⟨from', kind, payload⟩ := sent
  cases kind with
  | stroke =>
    have length := length_mapM agrees.strokes
    have most : cap ≤ board.strokes.length := Nat.le_of_not_lt full
    unfold persistCanvasState appendStroke
    dsimp only
    rw [Bool.not_true, if_neg Bool.false_ne_true]
    exact if_pos (by omega)
  | clear | imageMove => exact absurd trivial full
  | imageAdd =>
    have length := length_mapM agrees.images
    have most : cap ≤ board.images.length := Nat.le_of_not_lt full
    unfold persistCanvasState addImage
    dsimp only
    rw [Bool.not_true, if_neg Bool.false_ne_true]
    exact if_pos (by omega)
  | imageRemove =>
    have unnamed : (payload.field "id").asString = none := Option.not_isSome_iff_eq_none.mp full
    exact congrArg (Option.map _) unnamed

end Taken
end Echo.Canvas
