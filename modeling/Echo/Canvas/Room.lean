import Echo.Canvas.Convergence
import Mathlib.Data.Finset.Filter
import Mathlib.Data.Finset.SDiff
import Mathlib.Data.Finset.Union
import Mathlib.Data.Fintype.Basic

/-! A room of participants who draw, place pictures and take their own away again, and what is expected of that. -/
namespace Echo.Canvas

variable {ν δ U : Type}

section Seats

structure Post (ν U : Type) where
  sender : U
  kind : Kind
  payload : Json ν

/-- A participant: his board, what he has not heard yet, what the server has not taken yet, and what he made. -/
structure Seat (ν δ U : Type) where
  board : CanvasState δ := {}
  inbox : List (Post ν U) := []
  outbox : List (Post ν U) := []
  myStrokeIds : Finset String := ∅
  myImageIds : Finset String := ∅

variable (n : Numbers ν δ) (userId : U → String)

def Post.sent (post : Post ν U) : Sent ν := ⟨userId post.sender, post.kind, post.payload⟩

namespace Seat
variable (seat : Seat ν δ U) (me : U)

def sendCanvasEvent (kind : Kind) (payload : Json ν) : Seat ν δ U :=
  { seat with outbox := seat.outbox ++ [⟨me, kind, payload⟩] }

/-- `endStroke` and `addTextLabel`, once the stroke is there and the device may write. -/
def endStroke (stroke : CanvasStroke δ) : Seat ν δ U :=
  ({ seat with
    board := { seat.board with strokes := capped (seat.board.strokes ++ [stroke]) }
    myStrokeIds := insert stroke.id seat.myStrokeIds }).sendCanvasEvent me .stroke (stroke.toJson n)

def addImage (image : CanvasImage δ) : Seat ν δ U :=
  ({ seat with
    board := { seat.board with images := capped (seat.board.images ++ [image]) }
    myImageIds := insert image.id seat.myImageIds }).sendCanvasEvent me .imageAdd (image.toJson n)

def importSnapshot (strokes : List (CanvasStroke δ)) (images : List (CanvasImage δ)) : Seat ν δ U :=
  { seat with
    board := { strokes := strokes, images := images }
    outbox := seat.outbox ++ ⟨me, .clear, .obj []⟩ :: (images.map fun image => ⟨me, .imageAdd, image.toJson n⟩) ++
      strokes.map fun stroke => ⟨me, .stroke, stroke.toJson n⟩ }

def clearMyDrawings : Seat ν δ U :=
  if seat.myStrokeIds = ∅ then seat
  else
    ({ seat with myStrokeIds := ∅, myImageIds := ∅ }).importSnapshot n me
      (seat.board.strokes.filter fun stroke => stroke.id ∉ seat.myStrokeIds)
      (seat.board.images.filter fun image => image.id ∉ seat.myImageIds)

/-- `handleCanvasEvent`, with the mine-sets a clear drops. -/
def handleCanvasEvent (post : Post ν U) : Seat ν δ U :=
  let board := handled n seat.board (post.sent userId)
  if post.kind = .clear ∧ isReadable post.payload = true then
    { seat with board := board, myStrokeIds := ∅, myImageIds := ∅ }
  else { seat with board := board }

end Seat

structure Room (ν δ U : Type) where
  row : Option (CanvasRow ν)
  seats : U → Seat ν δ U

inductive Act (δ U : Type)
  | endStroke (user : U) (stroke : CanvasStroke δ)
  | addImage (user : U) (image : CanvasImage δ)
  | clearMyDrawings (user : U)
  -- the server takes the next event of a participant; a participant hears the next event of the others
  | taken (user : U) (stored : Bool)
  | hear (user : U)

variable [DecidableEq U]

namespace Room
variable (s : Room ν δ U)

def seated (user : U) (seat : Seat ν δ U) : Room ν δ U := { s with seats := Function.update s.seats user seat }

def taken (user : U) (stored : Bool) : Room ν δ U :=
  match (s.seats user).outbox with
  | [] => s
  | post :: rest =>
    match persistCanvasState n s.row stored post.kind post.payload with
    | none => s.seated user { s.seats user with outbox := rest }
    | some row =>
      { row := row
        seats := fun x =>
          if x = user then { s.seats x with outbox := rest }
          else { s.seats x with inbox := (s.seats x).inbox ++ [post] } }

def hear (user : U) : Room ν δ U :=
  match (s.seats user).inbox with
  | [] => s
  | post :: rest => s.seated user (({ s.seats user with inbox := rest }).handleCanvasEvent n userId post)

def step : Act δ U → Room ν δ U
  | .endStroke user stroke => s.seated user ((s.seats user).endStroke n user stroke)
  | .addImage user image => s.seated user ((s.seats user).addImage n user image)
  | .clearMyDrawings user => s.seated user ((s.seats user).clearMyDrawings n user)
  | .taken user stored => s.taken n user stored
  | .hear user => s.hear n userId user

end Room
end Seats

section Record

inductive Item
  | stroke (id : String)
  | image (id : String)
  deriving DecidableEq

/-- What was ever on the board, who made it in this session, what its author took away, what of the others was there
when somebody did that last, and who it was. -/
structure Record (U : Type) where
  made : Finset Item := ∅
  author : Item → Option U := fun _ => none
  gone : Finset Item := ∅
  kept : Finset Item := ∅
  last : Option U := none

variable [DecidableEq U]

namespace Record
variable (r : Record U)

def own (user : U) : Finset Item := r.made.filter fun k => r.author k = some user

def added (user : U) (k : Item) : Record U :=
  { r with made := insert k r.made, author := Function.update r.author k (some user) }

def cleared (user : U) : Record U :=
  if r.own user ⊆ r.gone then r
  else
    { r with
      gone := r.gone ∪ r.own user
      kept := (r.made \ r.gone).filter fun k => r.author k ≠ some user
      last := some user }

def step : Act δ U → Record U
  | .endStroke user stroke => r.added user (.stroke stroke.id)
  | .addImage user image => r.added user (.image image.id)
  | .clearMyDrawings user => r.cleared user
  | .taken _ _ | .hear _ => r

end Record
end Record

section Session

def onBoard (board : CanvasState δ) : Item → Prop
  | .stroke id => id ∈ ids board.strokes
  | .image id => id ∈ ids board.images

def inRow (n : Numbers ν δ) (row : Option (CanvasRow ν)) : Item → Prop
  | .stroke id => ∃ stroke ∈ (row.getD {}).drawingData, stroke.idText n = some id
  | .image id => ∃ image ∈ (row.getD {}).imagesData, image.idText n = some id

def Seat.mine (seat : Seat ν δ U) : Item → Prop
  | .stroke id => id ∈ seat.myStrokeIds
  | .image id => id ∈ seat.myImageIds

def RowHasRoom (row : Option (CanvasRow ν)) : Kind → Prop
  | .stroke => (row.getD {}).drawingData.length < cap
  | .imageAdd => (row.getD {}).imagesData.length < cap
  | .clear | .imageMove | .imageRemove => True

instance (board : CanvasState δ) : (k : Item) → Decidable (onBoard board k)
  | .stroke id => inferInstanceAs (Decidable (id ∈ ids board.strokes))
  | .image id => inferInstanceAs (Decidable (id ∈ ids board.images))

instance (n : Numbers ν δ) (row : Option (CanvasRow ν)) : (k : Item) → Decidable (inRow n row k)
  | .stroke id => inferInstanceAs (Decidable (∃ stroke ∈ (row.getD {}).drawingData, stroke.idText n = some id))
  | .image id => inferInstanceAs (Decidable (∃ image ∈ (row.getD {}).imagesData, image.idText n = some id))

instance (seat : Seat ν δ U) : (k : Item) → Decidable (seat.mine k)
  | .stroke id => inferInstanceAs (Decidable (id ∈ seat.myStrokeIds))
  | .image id => inferInstanceAs (Decidable (id ∈ seat.myImageIds))

instance (row : Option (CanvasRow ν)) : (kind : Kind) → Decidable (RowHasRoom row kind)
  | .stroke => inferInstanceAs (Decidable ((row.getD {}).drawingData.length < cap))
  | .imageAdd => inferInstanceAs (Decidable ((row.getD {}).imagesData.length < cap))
  | .clear | .imageMove | .imageRemove => isTrue trivial

structure Session (ν δ U : Type) where
  room : Room ν δ U
  record : Record U

namespace Session

def opened (row : Option (CanvasRow ν)) (board : CanvasState δ) : Session ν δ U where
  room := { row := row, seats := fun _ => { board := board } }
  record := { made := ((ids board.strokes).map Item.stroke ++ (ids board.images).map Item.image).toFinset }

section Claims
variable (n : Numbers ν δ) (s : Session ν δ U)

structure Processed (user : U) : Prop where
  taken : (s.room.seats user).outbox = []
  heard : ∀ x, ∀ post ∈ (s.room.seats x).inbox, post.sender ≠ user

structure Everywhere (k : Item) : Prop where
  row : inRow n s.room.row k
  boards : ∀ x, onBoard (s.room.seats x).board k

structure Nowhere (k : Item) : Prop where
  row : ¬ inRow n s.room.row k
  boards : ∀ x, ¬ onBoard (s.room.seats x).board k

/-- Who took his own away has nothing left once all of his events are processed, and what the others had made is
there; once every event is processed, all is there that its author did not take away. -/
structure MineCleared : Prop where
  removed : ∀ user, s.Processed user → ∀ k ∈ s.record.gone, s.record.author k = some user → s.Nowhere n k
  kept : ∀ user, s.Processed user → s.record.last = some user → ∀ k ∈ s.record.kept, s.Everywhere n k
  settled : (∀ user, s.Processed user) → ∀ k ∈ s.record.made, k ∉ s.record.gone → s.Everywhere n k

def Calm (user : U) : Prop :=
  (∀ post ∈ (s.room.seats user).inbox, post.kind ≠ .clear) ∧
    ∀ x, x ≠ user → ∀ post ∈ (s.room.seats x).outbox, post.kind ≠ .clear

def Alone (user : U) : Prop :=
  (s.room.seats user).inbox.length = 0 ∧ ∀ x, x ≠ user → (s.room.seats x).outbox.length = 0

end Claims

section Runs
variable [DecidableEq U] (n : Numbers ν δ) (userId : U → String) (s : Session ν δ U)

def step (act : Act δ U) : Session ν δ U := { room := s.room.step n userId act, record := s.record.step act }

def Fine : Act δ U → Prop
  | .endStroke user stroke =>
    Item.stroke stroke.id ∉ s.record.made ∧ s.Calm user ∧ (s.room.seats user).board.strokes.length < cap
  | .addImage user image =>
    Item.image image.id ∉ s.record.made ∧ s.Calm user ∧ (s.room.seats user).board.images.length < cap
  | .clearMyDrawings user =>
    s.record.own user ⊆ s.record.gone ∨
      (s.room.seats user).myStrokeIds ≠ ∅ ∧ s.Alone user ∧
        ∀ k ∈ s.record.own user, onBoard (s.room.seats user).board k → (s.room.seats user).mine k
  | .taken user stored =>
    stored = true ∧ ∀ post ∈ (s.room.seats user).outbox.head?, RowHasRoom s.room.row post.kind
  | .hear user =>
    ∀ post ∈ (s.room.seats user).inbox.head?, HasRoom (s.room.seats user).board (post.sent userId) ∧
      (post.kind = .stroke → partialId (userId post.sender) ∉ ids (s.room.seats user).board.strokes)

instance [Fintype U] (user : U) : Decidable (s.Calm user) :=
  inferInstanceAs (Decidable ((∀ post ∈ (s.room.seats user).inbox, post.kind ≠ .clear) ∧
    ∀ x, x ≠ user → ∀ post ∈ (s.room.seats x).outbox, post.kind ≠ .clear))

instance [Fintype U] (user : U) : Decidable (s.Alone user) :=
  inferInstanceAs (Decidable ((s.room.seats user).inbox.length = 0 ∧
    ∀ x, x ≠ user → (s.room.seats x).outbox.length = 0))

instance [Fintype U] : (act : Act δ U) → Decidable (s.Fine userId act)
  | .endStroke user stroke =>
    inferInstanceAs (Decidable (Item.stroke stroke.id ∉ s.record.made ∧ s.Calm user ∧
      (s.room.seats user).board.strokes.length < cap))
  | .addImage user image =>
    inferInstanceAs (Decidable (Item.image image.id ∉ s.record.made ∧ s.Calm user ∧
      (s.room.seats user).board.images.length < cap))
  | .clearMyDrawings user =>
    inferInstanceAs (Decidable (s.record.own user ⊆ s.record.gone ∨
      (s.room.seats user).myStrokeIds ≠ ∅ ∧ s.Alone user ∧
        ∀ k ∈ s.record.own user, onBoard (s.room.seats user).board k → (s.room.seats user).mine k))
  | .taken user stored =>
    inferInstanceAs (Decidable (stored = true ∧
      ∀ post ∈ (s.room.seats user).outbox.head?, RowHasRoom s.room.row post.kind))
  | .hear user =>
    inferInstanceAs (Decidable (∀ post ∈ (s.room.seats user).inbox.head?,
      HasRoom (s.room.seats user).board (post.sent userId) ∧
        (post.kind = .stroke → partialId (userId post.sender) ∉ ids (s.room.seats user).board.strokes)))

end Runs
end Session
end Session

end Echo.Canvas
