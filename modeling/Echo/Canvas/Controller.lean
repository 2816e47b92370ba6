import Echo.Canvas.Lounge
import Echo.Lib.Decimal

/-! `CanvasController` (`canvas_provider.dart`) beside its board: the channel it is attached to or attaches to,
the events that wait for the snapshot, the write lock, and what the user does. -/
namespace Echo.Canvas
open Echo.Lib (trimBy)

inductive CanvasTool
  | none | pen | eraser | highlighter | line | rect | ellipse | text

def strokeKindForTool : CanvasTool → StrokeKind
  | .eraser => .eraser
  | .highlighter => .highlighter
  | .line => .line
  | .rect => .rect
  | .ellipse => .ellipse
  | .text => .text
  | .pen | .none => .pen

def isShapeKind : StrokeKind → Bool
  | .line | .rect | .ellipse => true
  | _ => false

inductive CanvasAttachState
  | idle | loading | loaded | failed
  deriving DecidableEq

/-- The constants and the arithmetic of doubles that the operations use. -/
structure Measures (δ : Type) where
  clamp : δ → δ → δ → δ
  triple : δ → δ
  minImageSize : δ
  kCanvasWidth : δ
  kCanvasHeight : δ
  defaultStrokeWidth : δ

/-- `String.trim` of Dart. -/
def trim (text : String) : String :=
  String.ofList (trimBy (fun c =>
    let n := c.toNat
    (9 ≤ n && n ≤ 13) || n == 0x20 || n == 0x85 || n == 0xA0 || n == 0x1680 || (0x2000 ≤ n && n ≤ 0x200A) ||
      n == 0x2028 || n == 0x2029 || n == 0x202F || n == 0x205F || n == 0x3000 || n == 0xFEFF) text.toList)

/-- The selected tool, colour and width, which `attach` and `detach` reset with the rest of the state. -/
structure Tools (δ : Type) where
  selectedTool : CanvasTool := .none
  currentColor : String := "#ffffff"
  strokeWidth : δ

def Tools.initial {δ : Type} (m : Measures δ) : Tools δ := { strokeWidth := m.defaultStrokeWidth }

/-- A `canvas_event` as the server relays it. -/
structure Inbound (ν : Type) where
  channelId : String
  sent : Sent ν

structure Outbound (ν : Type) where
  channelId : String
  kind : Kind
  payload : Json ν

/-- What ends the wait of `_fetchCanvas`: a body of status 200, another status, a failure on the way, or no token. -/
inductive Response (ν : Type)
  | ok (row : Option (CanvasRow ν))
  | refused
  | failed
  | signedOut

structure CanvasController (ν δ : Type) where
  channelId : Option String := none
  attachingChannelId : Option String := none
  /-- `_lastConversationId`, `_lastChannelId` -/
  last : Option (String × String) := none
  pendingEvents : List (Inbound ν) := []
  board : CanvasState δ := {}
  tools : Tools δ
  isLoaded : Bool := false
  attachState : CanvasAttachState := .idle
  strokeActive : Bool := false
  strokePoints : Option (List (CanvasPoint δ)) := none
  myStrokeIds : List String := []
  myImageIds : List String := []
  pendingImageMove : Option (Json ν) := none
  /-- `canvasAuthorityNotifierProvider` -/
  authority : String → Option Int := fun _ => none
  deviceId : Int
  outgoing : List (Outbound ν) := []

namespace CanvasController
variable {ν δ : Type} (n : Numbers ν δ) (m : Measures δ)

section Attachment

/-- `attach` up to its wait. -/
def attach (s : CanvasController ν δ) (conversationId channelId : String) : CanvasController ν δ :=
  if s.channelId = some channelId then s
  else
    { s with
      attachingChannelId := some channelId
      channelId := none
      pendingEvents := []
      last := some (conversationId, channelId)
      board := {}
      tools := Tools.initial m
      isLoaded := false
      attachState := .loading }

def retryAttach (s : CanvasController ν δ) : CanvasController ν δ :=
  match s.last with
  | none => s
  | some (conversationId, channelId) => { s with channelId := none }.attach m conversationId channelId

def detach (s : CanvasController ν δ) : CanvasController ν δ :=
  let authority := match s.channelId.or s.attachingChannelId with
    | some detaching => Function.update s.authority detaching none
    | none => s.authority
  { s with
    pendingImageMove := none
    strokeActive := false
    pendingEvents := []
    authority := authority
    channelId := none
    attachingChannelId := none
    board := {}
    tools := Tools.initial m
    isLoaded := false
    attachState := .idle }

/-- The rest of `_fetchCanvas`. -/
def fetched (s : CanvasController ν δ) (channelId : String) (response : Response ν) : CanvasController ν δ :=
  if s.attachingChannelId = some channelId then
    match response with
    | .ok row =>
      match fetchCanvas n row with
      | some board => { s with board := board, isLoaded := true }
      | none => { s with isLoaded := false, attachState := .failed }
    | .refused => { s with isLoaded := true }
    | .failed => { s with isLoaded := false, attachState := .failed }
    | .signedOut => s
  else s

/-- A malformed event is dropped; a clear that is none also ends the stroke under way. -/
def apply (s : CanvasController ν δ) (sent : Sent ν) : CanvasController ν δ :=
  let applied := { s with board := handled n s.board sent }
  match sent.kind with
  | .clear =>
    if isReadable sent.payload then { applied with strokeActive := false, myStrokeIds := [], myImageIds := [] }
    else applied
  | _ => applied

def handleCanvasEvent (s : CanvasController ν δ) (event : Inbound ν) : CanvasController ν δ :=
  match s.channelId with
  | none =>
    if s.attachingChannelId = none ∨ s.attachingChannelId = some event.channelId then
      { s with pendingEvents := s.pendingEvents ++ [event] }
    else s
  | some channelId => if event.channelId = channelId then s.apply n event.sent else s

/-- The rest of `attach`. -/
def attached (s : CanvasController ν δ) (channelId : String) (response : Response ν) : CanvasController ν δ :=
  let fetched := s.fetched n channelId response
  if fetched.attachingChannelId = some channelId then
    fetched.pendingEvents.foldl (handleCanvasEvent n)
      { fetched with
        channelId := some channelId
        attachingChannelId := none
        attachState := .loaded
        pendingEvents := [] }
  else fetched

end Attachment

section Drawing

def canIWrite (s : CanvasController ν δ) : Bool :=
  match s.channelId with
  | none => false
  | some channelId =>
    match s.authority channelId with
    | none => true
    | some authority => authority == s.deviceId

def sendCanvasEvent (s : CanvasController ν δ) (kind : Kind) (payload : Json ν) : CanvasController ν δ :=
  match s.channelId with
  | none => s
  | some channelId => if s.canIWrite then { s with outgoing := s.outgoing ++ [⟨channelId, kind, payload⟩] } else s

def startStroke (s : CanvasController ν δ) (point : CanvasPoint δ) : CanvasController ν δ :=
  { s with strokeActive := true, strokePoints := some [point] }

def continued (isShape : Bool) (points : List (CanvasPoint δ)) (point : CanvasPoint δ) : List (CanvasPoint δ) :=
  if isShape && 2 ≤ points.length then points.dropLast ++ [point] else points ++ [point]

def continueStroke (s : CanvasController ν δ) (point : CanvasPoint δ) : CanvasController ν δ :=
  { s with
    strokePoints :=
      some (continued (isShapeKind (strokeKindForTool s.tools.selectedTool)) (s.strokePoints.getD []) point) }

def cancelStroke (s : CanvasController ν δ) : CanvasController ν δ :=
  { s with strokeActive := false, strokePoints := none }

def effectiveStrokeWidth (s : CanvasController ν δ) (kind : StrokeKind) : δ :=
  if kind = .eraser then m.triple s.tools.strokeWidth else s.tools.strokeWidth

def commit (s : CanvasController ν δ) (stroke : CanvasStroke δ) : CanvasController ν δ :=
  { s with
    board := { s.board with strokes := capped (s.board.strokes ++ [stroke]) }
    myStrokeIds := s.myStrokeIds ++ [stroke.id] }.sendCanvasEvent .stroke (stroke.toJson n)

def addTextLabel (s : CanvasController ν δ) (newCanvasId : String) (anchor : CanvasPoint δ) (text : String)
    (fontSize : δ) (color : String) : CanvasController ν δ :=
  if s.channelId = none then s
  else if !s.canIWrite then s
  else if (trim text).isEmpty then s
  else
    s.commit n
      { id := newCanvasId
        color := color
        width := fontSize
        points := [anchor]
        kind := .text
        text := some (trim text) }

def endStroke (s : CanvasController ν δ) (newCanvasId : String) : CanvasController ν δ :=
  let points := s.strokePoints.getD []
  let kind := strokeKindForTool s.tools.selectedTool
  let closed := { s with strokeActive := false, strokePoints := none }
  if !s.strokeActive then closed
  else if points.isEmpty then closed
  else if s.channelId = none then closed
  else if !closed.canIWrite then closed
  else if isShapeKind kind && points.length < 2 then closed
  else
    closed.commit n
      { id := newCanvasId
        color := if kind = .eraser then "#00000000" else s.tools.currentColor
        width := s.effectiveStrokeWidth m kind
        points := points
        kind := kind
        text := none }

def clearDrawing (s : CanvasController ν δ) : CanvasController ν δ :=
  if s.channelId = none then s
  else { s with board := {}, myStrokeIds := [], myImageIds := [] }.sendCanvasEvent .clear (.obj [])

def importSnapshot (s : CanvasController ν δ) (strokes : List (CanvasStroke δ)) (images : List (CanvasImage δ)) :
    CanvasController ν δ :=
  let imported := { s with board := { strokes := strokes, images := images } }
  if s.channelId = none then imported
  else
    strokes.foldl (fun s stroke => s.sendCanvasEvent .stroke (stroke.toJson n))
      (images.foldl (fun s image => s.sendCanvasEvent .imageAdd (image.toJson n))
        (imported.sendCanvasEvent .clear (.obj [])))

def remaining {α : Type} [Identified α] (mine : List String) (items : List α) : List α :=
  items.filter fun item => Identified.id item ∉ mine

def clearMyDrawings (s : CanvasController ν δ) : CanvasController ν δ :=
  if s.channelId = none then s
  else if s.myStrokeIds.isEmpty then s
  else
    { s with myStrokeIds := [], myImageIds := [] }.importSnapshot n (remaining s.myStrokeIds s.board.strokes)
      (remaining s.myImageIds s.board.images)

def addImage (s : CanvasController ν δ) (image : CanvasImage δ) : CanvasController ν δ :=
  if s.channelId = none then s
  else if !s.canIWrite then s
  else
    { s with
      board := { s.board with images := capped (s.board.images ++ [image]) }
      myImageIds := s.myImageIds ++ [image.id] }.sendCanvasEvent .imageAdd (image.toJson n)

def imageOf (s : CanvasController ν δ) (imageId : String) : Option (CanvasImage δ) :=
  s.board.images.find? fun image => image.id == imageId

def putImage (s : CanvasController ν δ) (updated : CanvasImage δ) : CanvasController ν δ :=
  { s with board := { s.board with images := replaced updated s.board.images } }

/-- `moveImage`, `resizeImage`: the event waits for the timer. -/
def changeImage (s : CanvasController ν δ) (imageId : String) (geometry : Geometry δ) : CanvasController ν δ :=
  if s.channelId = none then s
  else
    match s.imageOf imageId with
    | none => s
    | some image =>
      { s.putImage (image.copyWith geometry) with pendingImageMove := some ((image.copyWith geometry).toJson n) }

def moveImage (s : CanvasController ν δ) (imageId : String) (x y : δ) : CanvasController ν δ :=
  s.changeImage n imageId { x := some x, y := some y }

def resizeImage (s : CanvasController ν δ) (imageId : String) (width height : δ) : CanvasController ν δ :=
  s.changeImage n imageId
    { width := some (m.clamp width m.minImageSize m.kCanvasWidth)
      height := some (m.clamp height m.minImageSize m.kCanvasHeight) }

def flushImageMove (s : CanvasController ν δ) : CanvasController ν δ :=
  match s.pendingImageMove with
  | none => s
  | some pending => { s with pendingImageMove := none }.sendCanvasEvent .imageMove pending

def commitImageMove (s : CanvasController ν δ) (imageId : String) (x y : δ) : CanvasController ν δ :=
  let s := { s with pendingImageMove := none }
  if s.channelId = none then s
  else
    match s.imageOf imageId with
    | none => s
    | some image =>
      let updated := image.copyWith { x := some x, y := some y }
      (s.putImage updated).sendCanvasEvent .imageMove (updated.toJson n)

def commitImageResize (s : CanvasController ν δ) (imageId : String) : CanvasController ν δ :=
  let s := { s with pendingImageMove := none }
  if s.channelId = none then s
  else
    match s.imageOf imageId with
    | none => s
    | some image => s.sendCanvasEvent .imageMove (image.toJson n)

def removeImage (s : CanvasController ν δ) (imageId : String) : CanvasController ν δ :=
  if s.channelId = none then s
  else
    { s with board := { s.board with images := without imageId s.board.images } }.sendCanvasEvent .imageRemove
      (.obj [("id", .str imageId)])

/-- What the user does on the board; the id of a new item is drawn by `newCanvasId`. -/
inductive Operation (δ : Type)
  | startStroke (point : CanvasPoint δ)
  | continueStroke (point : CanvasPoint δ)
  | cancelStroke
  | endStroke (newCanvasId : String)
  | addTextLabel (newCanvasId : String) (anchor : CanvasPoint δ) (text : String) (fontSize : δ) (color : String)
  | clearDrawing
  | clearMyDrawings
  | importSnapshot (strokes : List (CanvasStroke δ)) (images : List (CanvasImage δ))
  | addImage (image : CanvasImage δ)
  | moveImage (imageId : String) (x y : δ)
  | flushImageMove
  | commitImageMove (imageId : String) (x y : δ)
  | resizeImage (imageId : String) (width height : δ)
  | commitImageResize (imageId : String)
  | removeImage (imageId : String)

def perform (s : CanvasController ν δ) : Operation δ → CanvasController ν δ
  | .startStroke point => s.startStroke point
  | .continueStroke point => s.continueStroke point
  | .cancelStroke => s.cancelStroke
  | .endStroke newCanvasId => s.endStroke n m newCanvasId
  | .addTextLabel newCanvasId anchor text fontSize color => s.addTextLabel n newCanvasId anchor text fontSize color
  | .clearDrawing => s.clearDrawing
  | .clearMyDrawings => s.clearMyDrawings n
  | .importSnapshot strokes images => s.importSnapshot n strokes images
  | .addImage image => s.addImage n image
  | .moveImage imageId x y => s.moveImage n imageId x y
  | .flushImageMove => s.flushImageMove
  | .commitImageMove imageId x y => s.commitImageMove n imageId x y
  | .resizeImage imageId width height => s.resizeImage n m imageId width height
  | .commitImageResize imageId => s.commitImageResize n imageId
  | .removeImage imageId => s.removeImage imageId

end Drawing
end CanvasController
end Echo.Canvas
