import Echo.Canvas.Convergence
import Echo.Lib.Replay

/-! Canvas events that a client takes twice. As long as no list is cut at its cap, an event comes down to one edit of
the strokes and one of the images, and of two equal edits only the later one counts. -/
namespace Echo.Canvas
open Echo.Lib (Along Absorbing)

section Edits
variable {α : Type} [Identified α]

/-- Items go and others, whose ids go too, come to the end; or the first item with the id is replaced. -/
inductive Edit (α : Type) [Identified α]
  | cut (gone : String → Bool) (more : List α) (own : ∀ item ∈ more, gone (Identified.id item) = true)
  | swap (item : α)

def staying (gone : String → Bool) (items : List α) : List α := items.filter fun item => !gone (Identified.id item)

namespace Edit

def apply (items : List α) : Edit α → List α
  | cut gone more _ => staying gone items ++ more
  | swap item => replaced item items

def keep : Edit α := cut (fun _ => false) [] fun _ inside => by cases inside

def clear : Edit α := cut (fun _ => true) [] fun _ inside => by cases inside

def drop (id : String) : Edit α := cut (· == id) [] fun _ inside => by cases inside

/-- The item comes to the end; what has its id goes, and so does a placeholder. -/
def put (item : α) (placeholder : Option String) : Edit α :=
  cut (fun id => id == Identified.id item || some id == placeholder) [item] fun other inside => by
    rw [List.mem_singleton.mp inside]
    simp

end Edit

variable {gone other : String → Bool} {item a b : α} {items more : List α}

theorem staying_append : staying gone (items ++ more) = staying gone items ++ staying gone more := List.filter_append ..

theorem staying_left : staying gone (staying other (staying gone items)) = staying gone (staying other items) := by
  unfold staying
  rw [List.filter_filter, List.filter_filter, List.filter_filter]
  refine List.filter_congr fun item _ => ?_
  cases gone (Identified.id item) <;> simp

theorem staying_idem : staying gone (staying gone items) = staying gone items := by
  unfold staying
  rw [List.filter_filter]
  exact List.filter_congr fun item _ => Bool.and_self _

theorem staying_own (own : ∀ item ∈ more, gone (Identified.id item) = true) : staying gone more = [] := by
  refine List.filter_eq_nil_iff.mpr fun item inside => ?_
  rw [own item inside]
  exact Bool.false_ne_true

theorem staying_sublist : staying gone items ⊆ items := fun _ inside => (List.mem_filter.mp inside).1

theorem staying_replaced : staying gone (replaced item items) =
    if gone (Identified.id item) then staying gone items else replaced item (staying gone items) := by
  induction items with
  | nil => cases gone (Identified.id item) <;> rfl
  | cons held rest ih =>
    by_cases same : Identified.id held = Identified.id item
    · rw [replaced, if_pos same]
      cases hit : gone (Identified.id item) <;> simp [staying, hit, same, replaced]
    · rw [replaced, if_neg same]
      unfold staying at ih ⊢
      cases here : gone (Identified.id held) <;> cases hit : gone (Identified.id item) <;>
        simp [ih, here, hit, replaced, same]

theorem replaced_append : replaced item (items ++ more) =
    if Identified.id item ∈ ids items then replaced item items ++ more else items ++ replaced item more := by
  induction items with
  | nil => rfl
  | cons held rest ih =>
    rw [List.cons_append, replaced, replaced, ih]
    by_cases same : Identified.id held = Identified.id item
    · simp [same]
    · by_cases later : Identified.id item ∈ ids rest
      · simp [same, later]
      · have absent : Identified.id item ∉ ids (held :: rest) := by
          rw [ids, List.map_cons, List.mem_cons, not_or]
          exact ⟨Ne.symm same, later⟩
        rw [if_neg same, if_neg later, if_neg absent]
        rfl

theorem replaced_comm (different : Identified.id a ≠ Identified.id b) :
    replaced a (replaced b items) = replaced b (replaced a items) := by
  induction items with
  | nil => rfl
  | cons held rest ih =>
    by_cases first : Identified.id held = Identified.id a
    · have second : Identified.id held ≠ Identified.id b := first ▸ different
      simp [replaced, first, different]
    · by_cases second : Identified.id held = Identified.id b
      · simp [replaced, second, different.symm]
      · simp [replaced, first, second, ih]

theorem replaced_between : replaced a (replaced b (replaced a items)) = replaced a (replaced b items) := by
  by_cases same : Identified.id a = Identified.id b
  · rw [replaced_replaced same]
  · rw [replaced_comm same, replaced_replaced rfl, replaced_comm same]

theorem swap_cut (item : α) (gone : String → Bool) (items more : List α) :
    replaced item (staying gone (replaced item items) ++ more) = replaced item (staying gone items ++ more) := by
  rw [staying_replaced]
  split
  · rfl
  · rw [replaced_append, replaced_append, ids_replaced]
    split
    · rw [replaced_replaced rfl]
    · next absent => rw [replaced_absent absent]

theorem cut_swap (item : α) (own : ∀ item ∈ more, gone (Identified.id item) = true) :
    staying gone (replaced item (staying gone items ++ more)) = staying gone (replaced item items) := by
  rw [staying_replaced, staying_replaced, staying_append, staying_idem, staying_own own, List.append_nil]

theorem Edit.absorbing : Absorbing (Edit.apply : List α → Edit α → List α) where
  again items edit := by
    cases edit with
    | cut gone more own =>
      change staying gone (staying gone items ++ more) ++ more = staying gone items ++ more
      rw [staying_append, staying_idem, staying_own own, List.append_nil]
    | swap item => exact replaced_replaced rfl
  later items edit between := by
    cases edit with
    | cut gone more own =>
      cases between with
      | cut other others _ =>
        change staying gone (staying other (staying gone items ++ more) ++ others) ++ more =
          staying gone (staying other items ++ others) ++ more
        have none : staying gone (staying other more) = [] :=
          staying_own fun item inside => own item (staying_sublist inside)
        rw [staying_append, staying_append, staying_append, staying_left, none, List.append_nil, staying_append]
      | swap item => exact congrArg (· ++ more) (cut_swap item own)
    | swap item =>
      cases between with
      | cut gone more _ => exact swap_cut item gone items more
      | swap other => exact replaced_between

end Edits

section Boards
variable {ν δ : Type} (n : Numbers ν δ)

def edits (sent : Sent ν) : Edit (CanvasStroke δ) × Edit (CanvasImage δ) :=
  if isReadable sent.payload then
    match sent.kind with
    | .stroke =>
      match CanvasStroke.fromJson n sent.payload with
      | some stroke => (.put stroke (some (partialId sent.fromUserId)), .keep)
      | none => (.keep, .keep)
    | .clear => (.clear, .clear)
    | .imageAdd =>
      match CanvasImage.fromJson n sent.payload with
      | some image => (.keep, .put image none)
      | none => (.keep, .keep)
    | .imageMove =>
      match CanvasImage.fromJson n sent.payload with
      | some image => (.keep, .swap image)
      | none => (.keep, .keep)
    | .imageRemove =>
      match (sent.payload.field "id").asString with
      | some id => (.keep, .drop id)
      | none => (.keep, .keep)
  else (.keep, .keep)

def edited (board : CanvasState δ) (sent : Sent ν) : CanvasState δ where
  strokes := (edits n sent).1.apply board.strokes
  images := (edits n sent).2.apply board.images

theorem edited_absorbing : Absorbing (edited n : CanvasState δ → Sent ν → CanvasState δ) where
  again _ _ := congrArg₂ CanvasState.mk (Edit.absorbing.again ..) (Edit.absorbing.again ..)
  later _ _ _ := congrArg₂ CanvasState.mk (Edit.absorbing.later ..) (Edit.absorbing.later ..)

variable {n} {board : CanvasState δ} {sent : Sent ν}

section Capped
variable {α : Type} [Identified α] {items : List α} {item : α}

theorem apply_keep : Edit.keep.apply items = items := by simp [Edit.keep, Edit.apply, staying]

theorem apply_clear : (Edit.clear.apply items : List α) = [] := by simp [Edit.clear, Edit.apply, staying]

theorem apply_drop {id : String} : (Edit.drop id).apply items = without id items := by
  change staying (· == id) items ++ [] = without id items
  rw [List.append_nil]
  refine List.filter_congr fun item _ => ?_
  by_cases same : Identified.id item = id <;> simp [same]

theorem apply_put {placeholder : Option String} (room : items.length < cap) :
    (Edit.put item placeholder).apply items =
      capped (without (Identified.id item) (placeholder.elim items fun id => without id items) ++ [item]) := by
  have rest : staying (fun id => id == Identified.id item || some id == placeholder) items =
      without (Identified.id item) (placeholder.elim items fun id => without id items) := by
    cases placeholder with
    | none =>
      refine List.filter_congr fun other _ => ?_
      by_cases same : Identified.id other = Identified.id item <;> simp [same]
    | some id =>
      unfold without staying
      rw [Option.elim_some, List.filter_filter]
      refine List.filter_congr fun other _ => ?_
      by_cases same : Identified.id other = Identified.id item <;>
        by_cases named : Identified.id other = id <;> simp [same, named]
  have short : (staying (fun id => id == Identified.id item || some id == placeholder) items).length ≤ items.length :=
    List.length_filter_le ..
  rw [← rest, capped_short]
  · rfl
  · rw [List.length_append, List.length_singleton]
    omega

end Capped

theorem handled_edited (room : HasRoom board sent) : handled n board sent = edited n board sent := by
  obtain ⟨fromUserId, kind, payload⟩ := sent
  unfold handled handleCanvasEvent edited edits
  dsimp only
  split
  · cases kind with
    | stroke =>
      dsimp only
      cases CanvasStroke.fromJson n payload with
      | none => exact congrArg₂ CanvasState.mk apply_keep.symm apply_keep.symm
      | some stroke =>
        have put : (Edit.put stroke (some (partialId fromUserId))).apply board.strokes =
            capped (without stroke.id (without (partialId fromUserId) board.strokes) ++ [stroke]) := apply_put room
        exact congrArg₂ CanvasState.mk put.symm apply_keep.symm
    | clear => exact congrArg₂ CanvasState.mk apply_clear.symm apply_clear.symm
    | imageAdd =>
      dsimp only
      cases CanvasImage.fromJson n payload with
      | none => exact congrArg₂ CanvasState.mk apply_keep.symm apply_keep.symm
      | some image =>
        have put : (Edit.put image none).apply board.images = capped (without image.id board.images ++ [image]) :=
          apply_put room
        exact congrArg₂ CanvasState.mk apply_keep.symm put.symm
    | imageMove =>
      dsimp only
      cases CanvasImage.fromJson n payload with
      | none => exact congrArg₂ CanvasState.mk apply_keep.symm apply_keep.symm
      | some image => exact congrArg₂ CanvasState.mk apply_keep.symm rfl
    | imageRemove =>
      dsimp only
      cases (payload.field "id").asString with
      | none => exact congrArg₂ CanvasState.mk apply_keep.symm apply_keep.symm
      | some id => exact congrArg₂ CanvasState.mk apply_keep.symm apply_drop.symm
  · exact congrArg₂ CanvasState.mk apply_keep.symm apply_keep.symm

def Roomy (n : Numbers ν δ) (board : CanvasState δ) (events : List (Sent ν)) : Prop :=
  Along (handled n) HasRoom board events

theorem Roomy.foldl_edited {events : List (Sent ν)} (roomy : Roomy n board events) :
    events.foldl (handled n) board = events.foldl (edited n) board := by
  induction events generalizing board with
  | nil => rfl
  | cons sent events ih => rw [List.foldl_cons, ih roomy.2, handled_edited roomy.1, List.foldl_cons]

theorem Roomy.take {events : List (Sent ν)} (roomy : Roomy n board events) (count : Nat) :
    Roomy n board (events.take count) := by
  rw [← List.take_append_drop count events] at roomy
  exact (Along.append.mp roomy).1

def boardOf (n : Numbers ν δ) (events : List (Sent ν)) : CanvasState δ := events.foldl (handled n) {}

theorem Roomy.replay {events : List (Sent ν)} (roomy : Roomy n {} events) {since covered : Nat}
    (early : since ≤ covered) :
    (events.drop since).foldl (edited n) (boardOf n (events.take covered)) = boardOf n events := by
  have split : events.take covered = events.take since ++ (events.take covered).drop since := by
    conv_lhs => rw [← List.take_append_drop since (events.take covered)]
    rw [List.take_take, Nat.min_eq_left early]
  have inside : (events.take covered).drop since ⊆ events.drop since := by
    rw [List.drop_take]
    exact List.take_subset ..
  unfold boardOf
  rw [(roomy.take covered).foldl_edited, roomy.foldl_edited, split, List.foldl_append,
    (edited_absorbing n).replay inside, ← List.foldl_append, List.take_append_drop]

end Boards
end Echo.Canvas
