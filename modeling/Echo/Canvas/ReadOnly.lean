import Echo.Canvas.Controller
import Echo.Canvas.Originator
import Mathlib.Algebra.Order.Ring.Unbundled.Rat

/-! A device that may not write. Nothing it does is sent, but only what adds a stroke or an image asks for the
write lock before it changes the board. -/
namespace Echo.Canvas
variable {ν δ : Type} {n : Numbers ν δ} {m : Measures δ}

section Items
variable {α : Type} [Identified α]

variable {items : List α}

theorem without_eq_self {id : String} : without id items = items ↔ id ∉ ids items := by
  refine ⟨fun same inside => ?_, without_fresh⟩
  obtain ⟨item, held, named⟩ := List.mem_map.mp inside
  have kept : item ∈ without id items := by rw [same]; exact held
  exact (mem_without kept).2 named

theorem replaced_eq_self {item held : α}
    (found : items.find? (fun x => Identified.id x == Identified.id item) = some held) :
    replaced item items = items ↔ item = held := by
  induction items with
  | nil => cases found
  | cons first rest ih =>
    by_cases same : Identified.id first = Identified.id item
    · rw [List.find?_cons_of_pos (by simpa using same)] at found
      rw [replaced, if_pos same, List.cons.injEq, ← Option.some.inj found]
      exact and_iff_left rfl
    · rw [List.find?_cons_of_neg (by simpa using same)] at found
      rw [replaced, if_neg same, List.cons.injEq, ih found]
      exact and_iff_right rfl

theorem remaining_eq_self {mine : List String} :
    CanvasController.remaining mine items = items ↔ ∀ item ∈ items, Identified.id item ∉ mine := by
  simp [CanvasController.remaining]

end Items

theorem board_eq {strokes : List (CanvasStroke δ)} {images : List (CanvasImage δ)} {board : CanvasState δ} :
    ⟨strokes, images⟩ = board ↔ strokes = board.strokes ∧ images = board.images := by
  cases board
  exact Iff.of_eq (CanvasState.mk.injEq ..)

namespace CanvasController

/-- What the operation comes to in this state is the board as it stands. -/
def Harmless (m : Measures δ) (s : CanvasController ν δ) : Operation δ → Prop
  | .clearDrawing => s.channelId = none ∨ s.board = {}
  | .clearMyDrawings =>
    s.channelId = none ∨ s.myStrokeIds = [] ∨
      (∀ stroke ∈ s.board.strokes, stroke.id ∉ s.myStrokeIds) ∧ ∀ image ∈ s.board.images, image.id ∉ s.myImageIds
  | .importSnapshot strokes images => strokes = s.board.strokes ∧ images = s.board.images
  | .moveImage imageId x y | .commitImageMove imageId x y =>
    s.channelId = none ∨ ∀ image ∈ s.imageOf imageId, image.x = x ∧ image.y = y
  | .resizeImage imageId width height =>
    s.channelId = none ∨ ∀ image ∈ s.imageOf imageId,
      image.width = m.clamp width m.minImageSize m.kCanvasWidth ∧
        image.height = m.clamp height m.minImageSize m.kCanvasHeight
  | .removeImage imageId => s.channelId = none ∨ imageId ∉ ids s.board.images
  -- the lock is asked for first, or the board is not touched
  | _ => True

variable {s : CanvasController ν δ}

section Locked
variable (locked : s.canIWrite = false)
include locked

theorem sendCanvasEvent_locked {kind : Kind} {payload : Json ν} : s.sendCanvasEvent kind payload = s := by
  unfold sendCanvasEvent
  rw [locked]
  cases s.channelId <;> rfl

theorem sends_locked {ι : Type} {kind : Kind} {payload : ι → Json ν} {items : List ι} :
    items.foldl (fun s item => s.sendCanvasEvent kind (payload item)) s = s := by
  induction items with
  | nil => rfl
  | cons item items ih => rw [List.foldl_cons, sendCanvasEvent_locked locked, ih]

theorem importSnapshot_locked {strokes : List (CanvasStroke δ)} {images : List (CanvasImage δ)} :
    s.importSnapshot n strokes images = { s with board := { strokes := strokes, images := images } } := by
  unfold importSnapshot
  have still : { s with board := { strokes := strokes, images := images } }.canIWrite = false := locked
  dsimp only
  split
  · rfl
  · rw [sendCanvasEvent_locked still, sends_locked still, sends_locked still]

theorem addTextLabel_locked {id : String} {anchor : CanvasPoint δ} {text : String} {fontSize : δ} {color : String} :
    s.addTextLabel n id anchor text fontSize color = s := by
  unfold addTextLabel
  rw [locked]
  split <;> rfl

theorem addImage_locked {image : CanvasImage δ} : s.addImage n image = s := by
  unfold addImage
  rw [locked]
  split <;> rfl

theorem endStroke_locked {id : String} :
    s.endStroke n m id = { s with strokeActive := false, strokePoints := none } := by
  have still : { s with strokeActive := false, strokePoints := none }.canIWrite = false := locked
  unfold endStroke
  dsimp only
  rw [still]
  split
  · rfl
  split
  · rfl
  split <;> rfl

variable {imageId : String}

theorem commitImageResize_locked :
    s.commitImageResize n imageId = { s with pendingImageMove := none } := by
  have still : { s with pendingImageMove := none }.canIWrite = false := locked
  unfold commitImageResize
  dsimp only
  split
  · rfl
  split
  · rfl
  · exact sendCanvasEvent_locked still

theorem flushImageMove_locked : s.flushImageMove = { s with pendingImageMove := none } := by
  have still : { s with pendingImageMove := none }.canIWrite = false := locked
  unfold flushImageMove
  split
  · next none => rw [← none]
  · exact sendCanvasEvent_locked still

theorem clearDrawing_locked (attached : s.channelId ≠ none) :
    s.clearDrawing = { s with board := {}, myStrokeIds := [], myImageIds := [] } := by
  have still : { s with board := {}, myStrokeIds := [], myImageIds := [] }.canIWrite = false := locked
  unfold clearDrawing
  rw [if_neg attached, sendCanvasEvent_locked still]

theorem clearMyDrawings_locked (attached : s.channelId ≠ none) (drawn : s.myStrokeIds ≠ []) :
    s.clearMyDrawings n =
      { s with
        myStrokeIds := []
        myImageIds := []
        board := ⟨remaining s.myStrokeIds s.board.strokes, remaining s.myImageIds s.board.images⟩ } := by
  have still : { s with myStrokeIds := [], myImageIds := [] }.canIWrite = false := locked
  unfold clearMyDrawings
  rw [if_neg attached, if_neg (by simpa using drawn), importSnapshot_locked still]

theorem removeImage_locked (attached : s.channelId ≠ none) :
    s.removeImage imageId = { s with board := { s.board with images := without imageId s.board.images } } := by
  have still : { s with board := { s.board with images := without imageId s.board.images } }.canIWrite = false := locked
  unfold removeImage
  rw [if_neg attached, sendCanvasEvent_locked still]

theorem commitImageMove_locked {x y : δ} {image : CanvasImage δ} (attached : s.channelId ≠ none)
    (found : s.imageOf imageId = some image) :
    s.commitImageMove n imageId x y =
      { s.putImage (image.copyWith { x := some x, y := some y }) with pendingImageMove := none } := by
  have still : (putImage { s with pendingImageMove := none } (image.copyWith { x := some x, y := some y })).canIWrite =
    false := locked
  have inside : imageOf { s with pendingImageMove := none } imageId = some image := found
  unfold commitImageMove
  dsimp only
  rw [if_neg attached, inside]
  exact sendCanvasEvent_locked still

end Locked

variable {imageId : String} {image : CanvasImage δ}

theorem id_of_imageOf (found : s.imageOf imageId = some image) :
    image.id = imageId := by
  have same := List.find?_some found
  simpa using same

theorem putImage_board (found : s.imageOf imageId = some image)
    (g : Geometry δ) : (s.putImage (image.copyWith g)).board = s.board ↔ image.copyWith g = image := by
  have named : (image.copyWith g).id = imageId := by
    rw [← id_of_imageOf found]
    rfl
  have inside : s.board.images.find? (fun x => Identified.id x == Identified.id (image.copyWith g)) = some image := by
    rw [← named] at found
    exact found
  exact board_eq.trans ((and_iff_right rfl).trans (replaced_eq_self inside))

theorem copyWith_place {x y : δ} :
    image.copyWith { x := some x, y := some y } = image ↔ image.x = x ∧ image.y = y := by
  obtain ⟨id, url, x', y', width, height⟩ := image
  simp [CanvasImage.copyWith, eq_comm]

theorem copyWith_size {width height : δ} :
    image.copyWith { width := some width, height := some height } = image ↔
      image.width = width ∧ image.height = height := by
  obtain ⟨id, url, x, y, width', height'⟩ := image
  simp [CanvasImage.copyWith, eq_comm]

theorem changeImage_board {g : Geometry δ} :
    (s.changeImage n imageId g).board = s.board ↔
      s.channelId = none ∨ ∀ image ∈ s.imageOf imageId, image.copyWith g = image := by
  unfold changeImage
  split
  · next detached => exact iff_of_true rfl (.inl detached)
  · next attached =>
    rw [or_iff_right attached]
    split
    · next absent => exact iff_of_true rfl fun image found => by rw [absent] at found; cases found
    · next image found =>
      rw [found]
      refine (putImage_board found g).trans ⟨fun same _ inside => ?_, fun all => all image rfl⟩
      rw [← Option.some.inj inside]
      exact same

theorem changeImage_outgoing {g : Geometry δ} :
    (s.changeImage n imageId g).outgoing = s.outgoing := by
  unfold changeImage
  split
  · rfl
  split <;> rfl

/-- A device that may not write sends nothing, and its board stays as it is in exactly these cases. -/
theorem read_only_board (locked : s.canIWrite = false) (op : Operation δ) :
    (s.perform n m op).outgoing = s.outgoing ∧ ((s.perform n m op).board = s.board ↔ s.Harmless m op) := by
  cases op with
  | startStroke | continueStroke | cancelStroke => exact ⟨rfl, iff_of_true rfl trivial⟩
  | endStroke id =>
    change (s.endStroke n m id).outgoing = _ ∧ ((s.endStroke n m id).board = _ ↔ _)
    rw [endStroke_locked locked]
    exact ⟨rfl, iff_of_true rfl trivial⟩
  | addTextLabel id anchor text fontSize color =>
    change (s.addTextLabel n id anchor text fontSize color).outgoing = _ ∧
      ((s.addTextLabel n id anchor text fontSize color).board = _ ↔ _)
    rw [addTextLabel_locked locked]
    exact ⟨rfl, iff_of_true rfl trivial⟩
  | addImage image =>
    change (s.addImage n image).outgoing = _ ∧ ((s.addImage n image).board = _ ↔ _)
    rw [addImage_locked locked]
    exact ⟨rfl, iff_of_true rfl trivial⟩
  | flushImageMove =>
    change s.flushImageMove.outgoing = _ ∧ (s.flushImageMove.board = _ ↔ _)
    rw [flushImageMove_locked locked]
    exact ⟨rfl, iff_of_true rfl trivial⟩
  | commitImageResize imageId =>
    change (s.commitImageResize n imageId).outgoing = _ ∧ ((s.commitImageResize n imageId).board = _ ↔ _)
    rw [commitImageResize_locked locked]
    exact ⟨rfl, iff_of_true rfl trivial⟩
  | importSnapshot strokes images =>
    change (s.importSnapshot n strokes images).outgoing = _ ∧ ((s.importSnapshot n strokes images).board = _ ↔ _)
    rw [importSnapshot_locked locked]
    exact ⟨rfl, board_eq⟩
  | clearDrawing =>
    change s.clearDrawing.outgoing = _ ∧ (s.clearDrawing.board = _ ↔ s.channelId = none ∨ s.board = {})
    by_cases detached : s.channelId = none
    · have same : s.clearDrawing = s := if_pos detached
      rw [same]
      exact ⟨rfl, iff_of_true rfl (.inl detached)⟩
    · rw [clearDrawing_locked locked detached, or_iff_right detached]
      exact ⟨rfl, eq_comm⟩
  | clearMyDrawings =>
    change (s.clearMyDrawings n).outgoing = _ ∧ ((s.clearMyDrawings n).board = _ ↔ s.channelId = none ∨ _)
    by_cases detached : s.channelId = none
    · have same : s.clearMyDrawings n = s := if_pos detached
      rw [same]
      exact ⟨rfl, iff_of_true rfl (.inl detached)⟩
    by_cases none : s.myStrokeIds = []
    · have same : s.clearMyDrawings n = s := by
        unfold clearMyDrawings
        rw [if_neg detached, none]
        rfl
      rw [same]
      exact ⟨rfl, iff_of_true rfl (.inr (.inl none))⟩
    · rw [clearMyDrawings_locked locked detached none, or_iff_right detached, or_iff_right none]
      exact ⟨rfl, board_eq.trans (and_congr remaining_eq_self remaining_eq_self)⟩
  | moveImage imageId x y =>
    refine ⟨changeImage_outgoing, changeImage_board.trans (or_congr_right (forall₂_congr fun image _ => ?_))⟩
    exact copyWith_place
  | resizeImage imageId width height =>
    refine ⟨changeImage_outgoing, changeImage_board.trans (or_congr_right (forall₂_congr fun image _ => ?_))⟩
    exact copyWith_size
  | commitImageMove imageId x y =>
    change (s.commitImageMove n imageId x y).outgoing = _ ∧
      ((s.commitImageMove n imageId x y).board = _ ↔ s.channelId = none ∨ ∀ image ∈ s.imageOf imageId, _)
    by_cases detached : s.channelId = none
    · have same : s.commitImageMove n imageId x y = { s with pendingImageMove := none } := if_pos detached
      rw [same]
      exact ⟨rfl, iff_of_true rfl (.inl detached)⟩
    rw [or_iff_right detached]
    cases found : s.imageOf imageId with
    | none =>
      have same : s.commitImageMove n imageId x y = { s with pendingImageMove := none } := by
        have absent : imageOf { s with pendingImageMove := none } imageId = none := found
        unfold commitImageMove
        dsimp only
        rw [if_neg detached, absent]
      rw [same]
      exact ⟨rfl, iff_of_true rfl fun image inside => by cases inside⟩
    | some image =>
      rw [commitImageMove_locked locked detached found]
      refine ⟨rfl, (putImage_board found _).trans (copyWith_place.trans ?_)⟩
      exact ⟨fun same _ inside => Option.some.inj inside ▸ same, fun all => all image rfl⟩
  | removeImage imageId =>
    change (s.removeImage imageId).outgoing = _ ∧ ((s.removeImage imageId).board = _ ↔ s.channelId = none ∨ _)
    by_cases detached : s.channelId = none
    · have same : s.removeImage imageId = s := if_pos detached
      rw [same]
      exact ⟨rfl, iff_of_true rfl (.inl detached)⟩
    · rw [removeImage_locked locked detached, or_iff_right detached]
      exact ⟨rfl, board_eq.trans ((and_iff_right rfl).trans without_eq_self)⟩

section Samples

def fractionMeasures : Measures Rat where
  clamp value least most := max least (min value most)
  triple := (· * 3)
  minImageSize := 32
  kCanvasWidth := 6000
  kCanvasHeight := 6000
  defaultStrokeWidth := 3

/-- A second device in the lounge, with a picture on the board, while the first one holds the lock. -/
def secondDevice : CanvasController Rat Rat where
  channelId := some "lounge"
  board := { strokes := [line "1"], images := [picture "2"] }
  tools := { selectedTool := .pen, strokeWidth := 3 }
  attachState := .loaded
  strokeActive := true
  strokePoints := some [⟨10, 10⟩, ⟨30, 20⟩]
  authority := fun _ => some 1
  deviceId := 2

theorem read_only_board_secondDevice :
    (secondDevice.perform fractions fractionMeasures (.endStroke "3")).outgoing = [] ∧
      ((secondDevice.perform fractions fractionMeasures (.endStroke "3")).board = secondDevice.board ↔ True) :=
  read_only_board (n := fractions) (m := fractionMeasures) (s := secondDevice) rfl (.endStroke "3")

theorem read_only_board_changed :
    ¬ ∀ (s : CanvasController Rat Rat) (op : Operation Rat), s.canIWrite = false →
      (s.perform fractions fractionMeasures op).board = s.board := fun claim =>
  absurd (congrArg (fun board => board.strokes.length) (claim secondDevice .clearDrawing rfl)) (by decide +kernel)

end Samples
end CanvasController
end Echo.Canvas
