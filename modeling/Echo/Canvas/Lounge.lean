import Echo.Canvas.Board
import Echo.Lib.Along

/-! A board in use: the row the server keeps, a participant who takes every event as the server relays it, and
a participant who draws and hears of the others. -/
namespace Echo.Canvas
open Echo.Lib (Along)

variable {ν δ : Type}

inductive Kind
  | stroke | clear | imageAdd | imageMove | imageRemove
  deriving DecidableEq

section Server

/-- A row of `channel_canvas`. -/
structure CanvasRow (ν : Type) where
  drawingData : List (Json ν) := []
  imagesData : List (Json ν) := []

/-- `MAX_STROKES` and `MAX_IMAGES` of the server, `_kMaxStrokes` and `_kMaxImages` of the client. -/
def cap : Nat := 2000

variable (n : Numbers ν δ)

/-- `... || jsonb_build_array(item)`, unless an element has the id of the item. -/
def appended (held : List (Json ν)) (item : Json ν) : List (Json ν) :=
  if held.any fun s => s.sameId n item then held else held ++ [item]

/-- None where the canvas has reached its cap; `stored` is false when a statement fails. -/
def appendStroke (row : Option (CanvasRow ν)) (stored : Bool) (stroke : Json ν) : Option (Option (CanvasRow ν)) :=
  if !stored then some row
  else
    let held := row.getD {}
    if cap ≤ held.drawingData.length then none
    else some (some { held with drawingData := appended n held.drawingData stroke })

def addImage (row : Option (CanvasRow ν)) (stored : Bool) (image : Json ν) : Option (Option (CanvasRow ν)) :=
  if !stored then some row
  else
    let held := row.getD {}
    if cap ≤ held.imagesData.length then none
    else some (some { held with imagesData := appended n held.imagesData image })

def clearAll (row : Option (CanvasRow ν)) (stored : Bool) : Option (CanvasRow ν) := if stored then some {} else row

def updateImage (row : Option (CanvasRow ν)) (stored : Bool) (updated : Json ν) : Option (CanvasRow ν) :=
  if stored then
    row.map fun held =>
      { held with imagesData := held.imagesData.map fun img => if img.sameId n updated then updated else img }
  else row

/-- `WHERE img->>'id' != image_id` -/
def differs (img : Json ν) (imageId : String) : Bool :=
  match img.idText n with
  | some id => id != imageId
  | none => false

def removeImage (row : Option (CanvasRow ν)) (stored : Bool) (imageId : String) : Option (CanvasRow ν) :=
  if stored then row.map fun held => { held with imagesData := held.imagesData.filter fun img => differs n img imageId }
  else row

/-- `persist_canvas_state`; none where the event is refused and not relayed. -/
def persistCanvasState (row : Option (CanvasRow ν)) (stored : Bool) (kind : Kind) (payload : Json ν) :
    Option (Option (CanvasRow ν)) :=
  match kind with
  | .stroke => appendStroke n row stored payload
  | .clear => some (clearAll row stored)
  | .imageAdd => addImage n row stored payload
  | .imageMove => some (updateImage n row stored payload)
  | .imageRemove => (payload.field "id").asString.map (removeImage n row stored)

end Server

section Client

structure CanvasState (δ : Type) where
  strokes : List (CanvasStroke δ) := []
  images : List (CanvasImage δ) := []
  deriving DecidableEq

def capped {α : Type} (items : List α) : List α :=
  if items.length ≤ cap then items else items.drop (items.length - cap)

def replaced {α : Type} [Identified α] (item : α) : List α → List α
  | [] => []
  | held :: rest => if Identified.id held = Identified.id item then item :: rest else held :: replaced item rest

def without {α : Type} [Identified α] (id : String) (items : List α) : List α :=
  items.filter fun item => Identified.id item ≠ id

def partialId (userId : String) : String := "partial_" ++ userId ++ "_in_progress"

variable (n : Numbers ν δ)

/-- A payload that is null reads as an empty map, one that is no map throws. -/
def isReadable : Json ν → Bool
  | .null => true
  | payload => payload.isMap

/-- `handleCanvasEvent`, a malformed event dropped. -/
def handleCanvasEvent (state : CanvasState δ) (fromUserId : String) (kind : Kind) (payload : Json ν) : CanvasState δ :=
  if isReadable payload then
    match kind with
    | .stroke =>
      match CanvasStroke.fromJson n payload with
      | some stroke =>
        { state with strokes := capped (without stroke.id (without (partialId fromUserId) state.strokes) ++ [stroke]) }
      | none => state
    | .clear => {}
    | .imageAdd =>
      match CanvasImage.fromJson n payload with
      | some image => { state with images := capped (without image.id state.images ++ [image]) }
      | none => state
    | .imageMove =>
      match CanvasImage.fromJson n payload with
      | some image => { state with images := replaced image state.images }
      | none => state
    | .imageRemove =>
      match (payload.field "id").asString with
      | some id => { state with images := without id state.images }
      | none => state
  else state

/-- `_fetchCanvas` for a client that attaches, none where the load fails. -/
def fetchCanvas (row : Option (CanvasRow ν)) : Option (CanvasState δ) := do
  let held := row.getD {}
  return {
    strokes := ← held.drawingData.mapM (CanvasStroke.fromJson n)
    images := ← held.imagesData.mapM (CanvasImage.fromJson n) }

end Client

section Lounge
variable (n : Numbers ν δ) (me : String)

structure Sent (ν : Type) where
  fromUserId : String
  kind : Kind
  payload : Json ν

def handled (state : CanvasState δ) (sent : Sent ν) : CanvasState δ :=
  handleCanvasEvent n state sent.fromUserId sent.kind sent.payload

/-- The row, a participant who only watches, and one who draws: his board, what he has not heard yet, what the
server has not taken yet, and the image he drags. -/
structure Lounge (ν δ : Type) where
  row : Option (CanvasRow ν) := none
  watching : CanvasState δ := {}
  drawing : CanvasState δ := {}
  inbox : List (Sent ν) := []
  outbox : List (Sent ν) := []
  pendingImageMove : Option (CanvasImage δ) := none

structure Geometry (δ : Type) where
  x : Option δ := none
  y : Option δ := none
  width : Option δ := none
  height : Option δ := none
  deriving DecidableEq

def CanvasImage.copyWith (image : CanvasImage δ) (g : Geometry δ) : CanvasImage δ :=
  { image with
    x := g.x.getD image.x
    y := g.y.getD image.y
    width := g.width.getD image.width
    height := g.height.getD image.height }

inductive Event (ν δ : Type)
  -- another participant's event comes to the server; the one who draws hears of an event; his own comes there
  | others (sent : Sent ν) (stored : Bool)
  | hear
  | taken (stored : Bool)
  | drawStroke (stroke : CanvasStroke δ)
  | clearDrawing
  | importSnapshot (strokes : List (CanvasStroke δ)) (images : List (CanvasImage δ))
  | addImage (image : CanvasImage δ)
  | moveImage (imageId : String) (geometry : Geometry δ)
  | flushImageMove
  | commitImageMove (imageId : String) (geometry : Geometry δ)
  | removeImage (imageId : String)

namespace Lounge

def send (s : Lounge ν δ) (kind : Kind) (payload : Json ν) : Lounge ν δ :=
  { s with outbox := s.outbox ++ [⟨me, kind, payload⟩] }

def taken (s : Lounge ν δ) (sent : Sent ν) (stored : Bool) : Option (Lounge ν δ) :=
  (persistCanvasState n s.row stored sent.kind sent.payload).map fun row =>
    { s with row := row, watching := handled n s.watching sent }

/-- `moveImage`, `resizeImage` -/
def moved (s : Lounge ν δ) (imageId : String) (geometry : Geometry δ) : Lounge ν δ :=
  match s.drawing.images.find? fun image => image.id == imageId with
  | none => s
  | some image =>
    let updated := image.copyWith geometry
    { s with
      drawing := { s.drawing with images := replaced updated s.drawing.images }
      pendingImageMove := some updated }

def flushed (s : Lounge ν δ) : Lounge ν δ :=
  match s.pendingImageMove with
  | none => s
  | some pending => { s with pendingImageMove := none }.send me .imageMove (pending.toJson n)

def step (s : Lounge ν δ) : Event ν δ → Lounge ν δ
  -- the server relays to all members but the sender, on any of his devices
  | .others sent stored =>
    match s.taken n sent stored with
    | some next => if sent.fromUserId = me then next else { next with inbox := next.inbox ++ [sent] }
    | none => s
  | .hear =>
    match s.inbox with
    | [] => s
    | sent :: rest => { s with inbox := rest, drawing := handled n s.drawing sent }
  | .taken stored =>
    match s.outbox with
    | [] => s
    | sent :: rest => (({ s with outbox := rest }).taken n sent stored).getD { s with outbox := rest }
  | .drawStroke stroke =>
    ({ s with drawing := { s.drawing with strokes := capped (s.drawing.strokes ++ [stroke]) } }).send me .stroke
      (stroke.toJson n)
  | .clearDrawing => ({ s with drawing := {} }).send me .clear (.obj [])
  | .importSnapshot strokes images =>
    { s with
      drawing := { strokes := strokes, images := images }
      outbox := s.outbox ++ ⟨me, .clear, .obj []⟩ :: (images.map fun image => ⟨me, .imageAdd, image.toJson n⟩) ++
        strokes.map fun stroke => ⟨me, .stroke, stroke.toJson n⟩ }
  | .addImage image =>
    ({ s with drawing := { s.drawing with images := capped (s.drawing.images ++ [image]) } }).send me .imageAdd
      (image.toJson n)
  | .moveImage imageId geometry => s.moved imageId geometry
  | .flushImageMove => s.flushed n me
  -- `commitImageMove`, and `commitImageResize` where nothing changes any more
  | .commitImageMove imageId geometry => ({ s with pendingImageMove := none }.moved imageId geometry).flushed n me
  | .removeImage imageId =>
    ({ s with drawing := { s.drawing with images := without imageId s.drawing.images } }).send me .imageRemove
      (.obj [("id", .str imageId)])

def run (events : List (Event ν δ)) : Lounge ν δ := events.foldl (step n me) {}

end Lounge
end Lounge
end Echo.Canvas
