import Echo.Canvas.Convergence

/-! The participant who draws. His board runs ahead of the server's by what he has sent, or behind it by what he
has not heard; where both happen at once the orders differ. -/
namespace Echo.Canvas
open Echo.Lib (Along)

variable {ν δ : Type} {n : Numbers ν δ} {me : String}

section Sending
variable (me) {board : CanvasState δ}

theorem handled_stroke {stroke : CanvasStroke δ} (settled : stroke.Settled n)
    (fresh : stroke.id ∉ ids board.strokes) (apart : partialId me ∉ ids board.strokes) :
    handled n board ⟨me, .stroke, stroke.toJson n⟩ =
      { board with strokes := capped (board.strokes ++ [stroke]) } := by
  have read := CanvasStroke.fromJson_toJson settled
  unfold handled handleCanvasEvent
  dsimp only
  rw [if_pos (readable_of_stroke read), read]
  dsimp only
  rw [without_fresh apart, without_fresh fresh]

theorem handled_imageAdd {image : CanvasImage δ} (settled : image.Settled n) (fresh : image.id ∉ ids board.images) :
    handled n board ⟨me, .imageAdd, image.toJson n⟩ = { board with images := capped (board.images ++ [image]) } := by
  have read := CanvasImage.fromJson_toJson settled
  unfold handled handleCanvasEvent
  dsimp only
  rw [if_pos (readable_of_image read), read]
  dsimp only
  rw [without_fresh fresh]

theorem handled_imageMove {image : CanvasImage δ} (settled : image.Settled n) :
    handled n board ⟨me, .imageMove, image.toJson n⟩ = { board with images := replaced image board.images } := by
  have read := CanvasImage.fromJson_toJson settled
  unfold handled handleCanvasEvent
  dsimp only
  rw [if_pos (readable_of_image read), read]

theorem handled_each {ι : Type} [Identified ι] (put : List ι → CanvasState δ) {event : ι → Sent ν} (held items : List ι)
    (adds : ∀ before item after, held ++ items = before ++ item :: after → Identified.id item ∉ ids before →
      handled n (put before) (event item) = put (capped (before ++ [item])))
    (distinct : (ids (held ++ items)).Nodup) (short : (held ++ items).length ≤ cap) :
    (items.map event).foldl (handled n) (put held) = put (held ++ items) := by
  induction items generalizing held with
  | nil => rw [List.append_nil]; rfl
  | cons item items ih =>
    have whole : held ++ item :: items = (held ++ [item]) ++ items := by simp
    have fresh : Identified.id item ∉ ids held := by
      intro inside
      rw [ids, List.map_append, List.nodup_append] at distinct
      exact distinct.2.2 _ inside _ List.mem_cons_self rfl
    have first : (held ++ [item]).length ≤ cap := by
      rw [whole, List.length_append] at short
      omega
    rw [List.map_cons, List.foldl_cons, adds held item items rfl fresh, capped_short first, whole]
    rw [whole] at adds distinct short
    exact ih (held ++ [item]) adds distinct short

theorem handled_snapshot (board : CanvasState δ) {strokes : List (CanvasStroke δ)} {images : List (CanvasImage δ)}
    (strokesSettled : ∀ stroke ∈ strokes, stroke.Settled n) (imagesSettled : ∀ image ∈ images, image.Settled n)
    (distinctStrokes : (ids strokes).Nodup) (distinctImages : (ids images).Nodup)
    (apart : partialId me ∉ ids strokes) (fewStrokes : strokes.length ≤ cap) (fewImages : images.length ≤ cap) :
    ((⟨me, .clear, .obj []⟩ : Sent ν) :: (images.map fun image => (⟨me, .imageAdd, image.toJson n⟩ : Sent ν)) ++
      strokes.map fun stroke => (⟨me, .stroke, stroke.toJson n⟩ : Sent ν)).foldl (handled n) board =
      ⟨strokes, images⟩ := by
  rw [List.cons_append, List.foldl_cons, List.foldl_append]
  have emptied : handled n board (⟨me, .clear, .obj []⟩ : Sent ν) = ⟨[], []⟩ := rfl
  rw [emptied]
  have added : (images.map fun image => (⟨me, .imageAdd, image.toJson n⟩ : Sent ν)).foldl (handled n) ⟨[], []⟩ =
      ⟨[], images⟩ := by
    refine handled_each (fun added => ⟨[], added⟩) [] images (fun before image after whole fresh => ?_) distinctImages
      fewImages
    rw [List.nil_append] at whole
    exact handled_imageAdd me (imagesSettled image (whole ▸ List.mem_append_right _ List.mem_cons_self)) fresh
  rw [added]
  refine handled_each (fun drawn => ⟨drawn, images⟩) [] strokes (fun before stroke after whole fresh => ?_)
    distinctStrokes fewStrokes
  rw [List.nil_append] at whole
  refine handled_stroke me (strokesSettled stroke (whole ▸ List.mem_append_right _ List.mem_cons_self)) fresh fun inside =>
    apart ?_
  rw [whole, ids, List.map_append]
  exact List.mem_append_left _ inside

end Sending

namespace Lounge
variable [DecidableEq δ] {s : Lounge ν δ}

/-- The throttled move of the image under the pointer, as it will be sent. -/
def pendingSent (n : Numbers ν δ) (me : String) (s : Lounge ν δ) : List (Sent ν) :=
  s.pendingImageMove.toList.map fun image => ⟨me, .imageMove, image.toJson n⟩

def Idle (s : Lounge ν δ) : Prop := s.inbox = [] ∧ s.pendingImageMove = none

/-- The condition on an event. The participant draws when he has heard everything, nothing of his is under way
when the server takes another's event; the server stores what it takes; ids are new, coordinates are read as
they were written. -/
def Orderly (n : Numbers ν δ) (me : String) (s : Lounge ν δ) : Event ν δ → Prop
  | .others sent stored =>
    (s.outbox = [] ∧ s.pendingImageMove = none) ∧ (sent.fromUserId ≠ me ∧ stored = true) ∧
      (HasRoom s.watching sent → Alike n s.watching sent)
  | .taken stored => ∀ sent ∈ s.outbox.head?, stored = true ∧ HasRoom s.watching sent ∧ Alike n s.watching sent
  | .drawStroke stroke =>
    s.Idle ∧ stroke.Settled n ∧ stroke.id ∉ ids s.drawing.strokes ∧ partialId me ∉ ids s.drawing.strokes
  | .importSnapshot strokes images =>
    s.Idle ∧ ((∀ stroke ∈ strokes, stroke.Settled n) ∧ (ids strokes).Nodup ∧ partialId me ∉ ids strokes ∧
      strokes.length ≤ cap) ∧ (∀ image ∈ images, image.Settled n) ∧ (ids images).Nodup ∧ images.length ≤ cap
  | .addImage image => s.Idle ∧ image.Settled n ∧ image.id ∉ ids s.drawing.images
  | .moveImage imageId geometry | .commitImageMove imageId geometry =>
    s.inbox = [] ∧ (∀ image ∈ s.pendingImageMove, image.id = imageId) ∧
      ∀ image ∈ s.drawing.images, image.id = imageId → (image.copyWith geometry).Settled n
  | .clearDrawing | .removeImage _ => s.Idle
  | .hear | .flushImageMove => True

instance (s : Lounge ν δ) : Decidable s.Idle := inferInstanceAs (Decidable (s.inbox = [] ∧ s.pendingImageMove = none))

/-- `Orderly` for a drag and for its end. -/
instance (s : Lounge ν δ) (imageId : String) (geometry : Geometry δ) :
    Decidable (s.Orderly n me (.moveImage imageId geometry)) :=
  inferInstanceAs (Decidable (s.inbox = [] ∧ (∀ image ∈ s.pendingImageMove, image.id = imageId) ∧
    ∀ image ∈ s.drawing.images, image.id = imageId → (image.copyWith geometry).Settled n))

instance (s : Lounge ν δ) (event : Event ν δ) : Decidable (s.Orderly n me event) :=
  match event with
  | .others sent stored =>
    inferInstanceAs (Decidable ((s.outbox = [] ∧ s.pendingImageMove = none) ∧
      (sent.fromUserId ≠ me ∧ stored = true) ∧ (HasRoom s.watching sent → Alike n s.watching sent)))
  | .taken stored =>
    inferInstanceAs (Decidable (∀ sent ∈ s.outbox.head?,
      stored = true ∧ HasRoom s.watching sent ∧ Alike n s.watching sent))
  | .drawStroke stroke =>
    inferInstanceAs (Decidable (s.Idle ∧ stroke.Settled n ∧ stroke.id ∉ ids s.drawing.strokes ∧
      partialId me ∉ ids s.drawing.strokes))
  | .importSnapshot strokes images =>
    inferInstanceAs (Decidable (s.Idle ∧ ((∀ stroke ∈ strokes, stroke.Settled n) ∧ (ids strokes).Nodup ∧
      partialId me ∉ ids strokes ∧ strokes.length ≤ cap) ∧
      (∀ image ∈ images, image.Settled n) ∧ (ids images).Nodup ∧ images.length ≤ cap))
  | .addImage image =>
    inferInstanceAs (Decidable (s.Idle ∧ image.Settled n ∧ image.id ∉ ids s.drawing.images))
  | .moveImage imageId geometry => inferInstanceAs (Decidable (s.Orderly n me (.moveImage imageId geometry)))
  | .commitImageMove imageId geometry => inferInstanceAs (Decidable (s.Orderly n me (.moveImage imageId geometry)))
  | .clearDrawing | .removeImage _ => inferInstanceAs (Decidable s.Idle)
  | .hear | .flushImageMove => isTrue trivial

/-- The drawing participant is behind by his inbox or ahead by what he has sent, never both. -/
structure Caught (n : Numbers ν δ) (me : String) (s : Lounge ν δ) : Prop where
  agrees : Agrees n s.row s.watching
  heard : s.outbox = [] → s.pendingImageMove = none → s.inbox.foldl (handled n) s.drawing = s.watching
  ahead : s.inbox = [] → (s.outbox ++ s.pendingSent n me).foldl (handled n) s.watching = s.drawing
  apart : s.inbox = [] ∨ s.outbox = [] ∧ s.pendingImageMove = none
  settled : ∀ image ∈ s.pendingImageMove, image.Settled n

omit [DecidableEq δ] in
theorem Caught.idle (caught : s.Caught n me) (idle : s.Idle) : s.outbox.foldl (handled n) s.watching = s.drawing := by
  have ahead := caught.ahead idle.1
  rw [pendingSent, idle.2] at ahead
  simpa using ahead

omit [DecidableEq δ] in
theorem Caught.sends (caught : s.Caught n me) (idle : s.Idle) {board : CanvasState δ} {more : List (Sent ν)}
    (own : more.foldl (handled n) s.drawing = board) (some' : more ≠ []) :
    ({ s with drawing := board, outbox := s.outbox ++ more } : Lounge ν δ).Caught n me where
  agrees := caught.agrees
  heard none := absurd (List.append_eq_nil_iff.mp none).2 some'
  ahead _ := by
    have unsent : ({ s with drawing := board, outbox := s.outbox ++ more } : Lounge ν δ).pendingSent n me = [] := by
      rw [pendingSent, idle.2]
      rfl
    rw [unsent, List.append_nil, List.foldl_append, caught.idle idle]
    exact own
  apart := .inl idle.1
  settled := caught.settled

omit [DecidableEq δ] in
theorem Caught.moved (caught : s.Caught n me) {imageId : String} {geometry : Geometry δ} (unheard : s.inbox = [])
    (same : ∀ image ∈ s.pendingImageMove, image.id = imageId)
    (settled : ∀ image ∈ s.drawing.images, image.id = imageId → (image.copyWith geometry).Settled n) :
    (s.moved imageId geometry).Caught n me := by
  unfold Lounge.moved
  split
  · exact caught
  · next image found =>
    have named : image.id = imageId := by simpa using List.find?_some found
    have updated := settled image (List.mem_of_find?_eq_some found) named
    refine ⟨caught.agrees, fun _ empty => (by cases empty), fun _ => ?_, .inl unheard, fun _ there => ?_⟩
    · have ahead := caught.ahead unheard
      change (s.outbox ++ [_]).foldl (handled n) s.watching = _
      rw [List.foldl_append]
      cases pending : s.pendingImageMove with
      | none =>
        rw [pendingSent, pending] at ahead
        simp only [Option.toList_none, List.map_nil, List.append_nil] at ahead
        rw [ahead]
        exact handled_imageMove me updated
      | some before =>
        -- the move before this one is overwritten by it
        rw [pendingSent, pending] at ahead
        simp only [Option.toList_some, List.map_cons, List.map_nil, List.foldl_append] at ahead
        have placed := ahead.symm.trans (handled_imageMove me (caught.settled before pending))
        refine (handled_imageMove me updated).trans ?_
        rw [placed]
        dsimp only
        rw [replaced_replaced ((same before pending).trans named.symm)]
    · cases there
      exact updated

omit [DecidableEq δ] in
theorem Caught.flushed (caught : s.Caught n me) : (s.flushed n me).Caught n me := by
  unfold Lounge.flushed
  split
  · exact caught
  · next pending held =>
    have unheard : s.inbox = [] := by
      rcases caught.apart with unheard | ⟨-, none⟩
      · exact unheard
      · cases held.symm.trans none
    refine ⟨caught.agrees, fun none => ?_, fun _ => ?_, .inl unheard, fun _ there => by cases there⟩
    · exact absurd (List.append_eq_nil_iff.mp none).2 (List.cons_ne_nil _ _)
    · have ahead := caught.ahead unheard
      rw [pendingSent, held] at ahead
      change ((s.outbox ++ [_]) ++ []).foldl (handled n) s.watching = s.drawing
      rw [List.append_nil]
      exact ahead

omit [DecidableEq δ] in
theorem Caught.committed (caught : s.Caught n me) {imageId : String} {geometry : Geometry δ} (unheard : s.inbox = [])
    (same : ∀ image ∈ s.pendingImageMove, image.id = imageId)
    (settled : ∀ image ∈ s.drawing.images, image.id = imageId → (image.copyWith geometry).Settled n) :
    ((({ s with pendingImageMove := none } : Lounge ν δ).moved imageId geometry).flushed n me).Caught n me := by
  cases found : s.drawing.images.find? fun image => image.id == imageId with
  | some image =>
    have overwritten : ({ s with pendingImageMove := none } : Lounge ν δ).moved imageId geometry =
        s.moved imageId geometry := by
      simp only [Lounge.moved, found]
    rw [overwritten]
    exact (caught.moved unheard same settled).flushed
  | none =>
    have dropped : ((({ s with pendingImageMove := none } : Lounge ν δ).moved imageId geometry).flushed n me) =
        { s with pendingImageMove := none } := by
      simp only [Lounge.moved, found, Lounge.flushed]
    rw [dropped]
    -- an image that is not there was not moved before either
    have behind : s.outbox.foldl (handled n) s.watching = s.drawing := by
      have ahead := caught.ahead unheard
      cases pending : s.pendingImageMove with
      | none =>
        rw [pendingSent, pending] at ahead
        simpa using ahead
      | some before =>
        rw [pendingSent, pending] at ahead
        simp only [Option.toList_some, List.map_cons, List.map_nil, List.foldl_append] at ahead
        have placed := ahead.symm.trans (handled_imageMove me (caught.settled before pending))
        have absent : Identified.id before ∉ ids s.drawing.images := by
          intro inside
          obtain ⟨image, there, named⟩ := List.mem_map.mp inside
          have missed := List.find?_eq_none.mp found image there
          exact missed (beq_iff_eq.mpr (named.trans (same before pending)))
        rw [placed] at absent
        dsimp only at absent
        rw [ids_replaced] at absent
        rw [placed, replaced_absent absent]
    refine ⟨caught.agrees, fun unsent _ => ?_, fun _ => ?_, .inl unheard, fun _ there => by cases there⟩
    · have unsent : s.outbox = [] := unsent
      rw [unsent] at behind
      change s.inbox.foldl (handled n) s.drawing = s.watching
      rw [unheard]
      exact behind.symm
    · change (s.outbox ++ []).foldl (handled n) s.watching = s.drawing
      rw [List.append_nil]
      exact behind

theorem Caught.step (caught : s.Caught n me) {event : Event ν δ} (orderly : s.Orderly n me event) :
    (s.step n me event).Caught n me := by
  cases event with
  | others sent stored =>
    obtain ⟨⟨unsent, still⟩, ⟨other, rfl⟩, alike⟩ := orderly
    have heard := caught.heard unsent still
    have nothing : s.pendingSent n me = [] := by
      rw [pendingSent, still]
      rfl
    unfold Lounge.step Lounge.taken
    dsimp only
    by_cases room : HasRoom s.watching sent
    · obtain ⟨row', persisted, agrees⟩ := caught.agrees.taken room (alike room)
      rw [persisted]
      dsimp only [Option.map_some]
      rw [if_neg other]
      refine ⟨agrees, fun _ _ => ?_, fun unheard => ?_, .inr ⟨unsent, still⟩, caught.settled⟩
      · dsimp only
        rw [List.foldl_append, heard]
        rfl
      · exact absurd (List.append_eq_nil_iff.mp unheard).2 (List.cons_ne_nil _ _)
    · rw [caught.agrees.refused room]
      exact caught
  | hear =>
    unfold Lounge.step
    dsimp only
    split
    · exact caught
    · next sent rest queue =>
      obtain ⟨unsent, still⟩ : s.outbox = [] ∧ s.pendingImageMove = none := by
        rcases caught.apart with none | both
        · cases queue.symm.trans none
        · exact both
      have heard := caught.heard unsent still
      rw [queue] at heard
      refine ⟨caught.agrees, fun _ _ => heard, fun none => ?_, .inr ⟨unsent, still⟩, caught.settled⟩
      have last : rest = [] := none
      rw [last] at heard
      have nothing : s.pendingSent n me = [] := by
        rw [pendingSent, still]
        rfl
      change (s.outbox ++ s.pendingSent n me).foldl (handled n) s.watching = handled n s.drawing sent
      rw [unsent, nothing]
      exact heard.symm
  | taken stored =>
    unfold Lounge.step
    dsimp only
    split
    · exact caught
    · next sent rest queue =>
      obtain ⟨rfl, room, alike⟩ := orderly sent (by rw [queue]; rfl)
      obtain ⟨row', persisted, agrees⟩ := caught.agrees.taken room alike
      have unheard : s.inbox = [] := by
        rcases caught.apart with unheard | ⟨none, -⟩
        · exact unheard
        · cases queue.symm.trans none
      have ahead := caught.ahead unheard
      rw [queue] at ahead
      unfold Lounge.taken
      dsimp only
      rw [persisted]
      dsimp only [Option.map_some, Option.getD_some]
      refine ⟨agrees, fun empty still => ?_, fun _ => ahead, .inl unheard, caught.settled⟩
      have last : rest = [] := empty
      have still : s.pendingImageMove = none := still
      rw [last, pendingSent, still] at ahead
      change s.inbox.foldl (handled n) s.drawing = handled n s.watching sent
      rw [unheard]
      exact ahead.symm
  | drawStroke stroke =>
    obtain ⟨idle, settled, fresh, apart⟩ := orderly
    exact caught.sends idle (handled_stroke me settled fresh apart) (List.cons_ne_nil _ _)
  | clearDrawing | removeImage => exact caught.sends orderly rfl (List.cons_ne_nil _ _)
  | importSnapshot strokes images =>
    obtain ⟨idle, ⟨strokesSettled, distinctStrokes, apart, fewStrokes⟩, imagesSettled, distinctImages, fewImages⟩ := orderly
    have built := handled_snapshot me s.drawing strokesSettled imagesSettled distinctStrokes distinctImages
      apart fewStrokes fewImages
    have sent := caught.sends idle built (List.cons_ne_nil _ _)
    unfold Lounge.step
    dsimp only
    rw [List.append_assoc]
    exact sent
  | addImage image =>
    obtain ⟨idle, settled, fresh⟩ := orderly
    exact caught.sends idle (handled_imageAdd me settled fresh) (List.cons_ne_nil _ _)
  | moveImage imageId geometry => exact caught.moved orderly.1 orderly.2.1 orderly.2.2
  | flushImageMove => exact caught.flushed
  | commitImageMove imageId geometry => exact caught.committed orderly.1 orderly.2.1 orderly.2.2

theorem run_caught {events : List (Event ν δ)} (orderly : Along (step n me) (Orderly n me) {} events) :
    (run n me events).Caught n me := by
  apply orderly.keeps fun s event caught fine => caught.step fine
  exact ⟨⟨rfl, rfl, List.nodup_nil, List.nodup_nil⟩, fun _ _ => rfl, fun _ => rfl, .inl rfl, fun _ there => by cases there⟩

/-- In a run in that order a client that attaches reads the board the others have watched, and the one who draws
has it too as soon as nothing is under way. -/
theorem boards_converge {events : List (Event ν δ)} (orderly : Along (step n me) (Orderly n me) {} events) :
    fetchCanvas n (run n me events).row = some (run n me events).watching ∧
      ((run n me events).inbox = [] → (run n me events).outbox = [] → (run n me events).pendingImageMove = none →
        (run n me events).drawing = (run n me events).watching) := by
  have caught := run_caught orderly
  refine ⟨caught.agrees.fetched, fun unheard unsent still => ?_⟩
  have heard := caught.heard unsent still
  rwa [unheard] at heard

end Lounge

section Samples
open Lounge

/-- Exact fractions for numbers, and the values that are no strings in Postgres' own words. -/
def fractions : Numbers Rat Rat where
  toDouble := id
  ofDouble := id
  toDouble_ofDouble _ := rfl
  atMostOne value := value ≤ 1
  timesLegacyScale value := value * 4096
  text
    | .bool true => "true"
    | .bool false => "false"
    | .num value => toString value.num
    | _ => ""

def line (id : String) : CanvasStroke Rat :=
  { id := id
    color := "#000000"
    width := 2
    points := [⟨10, 10⟩, ⟨20, 20⟩]
    kind := .line
    text := none }

def picture (id : String) : CanvasImage Rat :=
  { id := id
    url := "/api/media/1"
    x := 100
    y := 100
    width := 64
    height := 64 }

def drawn (userId id : String) : Event Rat Rat := .others ⟨userId, .stroke, (line id).toJson fractions⟩ true

def resent : List (Event Rat Rat) := [drawn "bob" "1", drawn "bob" "2", drawn "bob" "1"]

/-- Alice draws while a stroke of Bob, which the server takes first, is on its way to her. -/
def crossing : List (Event Rat Rat) := [.drawStroke (line "1"), drawn "bob" "2", .taken true, .hear]

theorem boards_diverge :
    (¬ ∀ events, fetchCanvas fractions (run fractions "alice" events).row = some (run fractions "alice" events).watching) ∧
    ¬ ∀ events, (run fractions "alice" events).inbox.length = 0 → (run fractions "alice" events).outbox.length = 0 →
      (run fractions "alice" events).pendingImageMove = none →
      (run fractions "alice" events).drawing = (run fractions "alice" events).watching := by
  refine ⟨fun loaded => ?_, fun same => ?_⟩
  · exact absurd (loaded resent) (by decide +kernel)
  · exact absurd (same crossing (by decide +kernel) (by decide +kernel) (by decide +kernel)) (by decide +kernel)

/-- Both draw, each after hearing of the other; Alice drags a picture about and takes it away. -/
def inTurn : List (Event Rat Rat) :=
  [drawn "bob" "1", .hear, .drawStroke (line "2"), .taken true, drawn "alice's friend" "3", drawn "bob" "3", .hear, .hear,
    .addImage (picture "4"), .moveImage "4" { x := some 200 }, .flushImageMove, .moveImage "4" { x := some 300 },
    .commitImageMove "4" { x := some 310 }, .taken true, .taken true, .taken true, .removeImage "4", .taken true]

theorem boards_converge_inTurn :
    fetchCanvas fractions (run fractions "alice" inTurn).row = some (run fractions "alice" inTurn).watching ∧
      ((run fractions "alice" inTurn).inbox = [] → (run fractions "alice" inTurn).outbox = [] →
        (run fractions "alice" inTurn).pendingImageMove = none →
        (run fractions "alice" inTurn).drawing = (run fractions "alice" inTurn).watching) :=
  boards_converge (by decide +kernel)

end Samples
end Echo.Canvas
