import Mathlib.Data.List.Nodup

/-! The board of a voice lounge: strokes and images as JSON on the server (`db/canvas.rs`) and as objects in
the clients (`canvas_models.dart`, `canvas_provider.dart`). -/
namespace Echo.Canvas

inductive Json (ν : Type)
  | null
  | bool (b : Bool)
  | num (n : ν)
  | str (s : String)
  | arr (items : List (Json ν))
  | obj (fields : List (String × Json ν))

/-- What reading and writing a board needs of numbers: JSON numbers, the doubles of Dart, the two halves of
`_migrateLegacyCoord`, and the text Postgres gives for a value that is no string. -/
structure Numbers (ν δ : Type) where
  toDouble : ν → δ
  ofDouble : δ → ν
  toDouble_ofDouble : ∀ d, toDouble (ofDouble d) = d
  atMostOne : δ → Bool
  timesLegacyScale : δ → δ
  text : Json ν → String

variable {ν δ : Type}

namespace Json

def field (json : Json ν) (key : String) : Json ν :=
  match json with
  | obj fields => ((fields.find? fun f => f.1 == key).map Prod.snd).getD null
  | _ => null

/-- `as String` -/
def asString : Json ν → Option String
  | str s => some s
  | _ => none

/-- `as String?` -/
def asStringOrNull : Json ν → Option (Option String)
  | str s => some (some s)
  | null => some none
  | _ => none

/-- `as List` -/
def asList : Json ν → Option (List (Json ν))
  | arr items => some items
  | _ => none

/-- `as Map` -/
def isMap : Json ν → Bool
  | obj _ => true
  | _ => false

/-- `(as num).toDouble()` -/
def asDouble (n : Numbers ν δ) : Json ν → Option δ
  | num v => some (n.toDouble v)
  | _ => none

/-- `->>'id'` of a JSONB value. -/
def idText (n : Numbers ν δ) (json : Json ν) : Option String :=
  match json.field "id" with
  | null => none
  | str s => some s
  | other => some (n.text other)

/-- `a->>'id' = b->>'id'`, not true when one of them is NULL. -/
def sameId (n : Numbers ν δ) (a b : Json ν) : Bool :=
  match a.idText n, b.idText n with
  | some s, some t => s == t
  | _, _ => false

end Json

section Models

class Identified (α : Type) where
  id : α → String

abbrev ids {α : Type} [Identified α] (items : List α) : List String := items.map Identified.id

inductive StrokeKind
  | pen | eraser | highlighter | line | rect | ellipse | text
  deriving DecidableEq

structure CanvasPoint (δ : Type) where
  x : δ
  y : δ
  deriving DecidableEq

structure CanvasStroke (δ : Type) where
  id : String
  color : String
  width : δ
  points : List (CanvasPoint δ)
  kind : StrokeKind
  text : Option String
  deriving DecidableEq

structure CanvasImage (δ : Type) where
  id : String
  url : String
  x : δ
  y : δ
  width : δ
  height : δ
  deriving DecidableEq

instance : Identified (CanvasStroke δ) := ⟨CanvasStroke.id⟩

instance : Identified (CanvasImage δ) := ⟨CanvasImage.id⟩

variable (n : Numbers ν δ)

def migrateLegacyCoord (value : δ) : δ := if n.atMostOne value then n.timesLegacyScale value else value

def strokeKindFromString : Option String → StrokeKind
  | some "eraser" => .eraser
  | some "highlighter" => .highlighter
  | some "line" => .line
  | some "rect" => .rect
  | some "ellipse" => .ellipse
  | some "text" => .text
  | _ => .pen

def strokeKindToString : StrokeKind → String
  | .eraser => "eraser"
  | .highlighter => "highlighter"
  | .line => "line"
  | .rect => "rect"
  | .ellipse => "ellipse"
  | .text => "text"
  | .pen => "pen"

def CanvasPoint.fromJson (json : Json ν) : Option (CanvasPoint δ) := do
  guard json.isMap
  return {
    x := migrateLegacyCoord n (← (json.field "x").asDouble n)
    y := migrateLegacyCoord n (← (json.field "y").asDouble n) }

def CanvasPoint.toJson (p : CanvasPoint δ) : Json ν := .obj [("x", .num (n.ofDouble p.x)), ("y", .num (n.ofDouble p.y))]

def CanvasStroke.fromJson (json : Json ν) : Option (CanvasStroke δ) := do
  guard json.isMap
  return {
    id := ← (json.field "id").asString
    color := ← (json.field "color").asString
    width := ← (json.field "width").asDouble n
    points := ← (← (json.field "points").asList).mapM (CanvasPoint.fromJson n)
    kind := strokeKindFromString (← (json.field "kind").asStringOrNull)
    text := ← (json.field "text").asStringOrNull }

def CanvasStroke.toJson (s : CanvasStroke δ) : Json ν :=
  .obj ([("id", .str s.id), ("color", .str s.color), ("width", .num (n.ofDouble s.width)),
    ("points", .arr (s.points.map (CanvasPoint.toJson n))), ("kind", .str (strokeKindToString s.kind))] ++
      s.text.toList.map fun text => ("text", .str text))

def CanvasImage.fromJson (json : Json ν) : Option (CanvasImage δ) := do
  guard json.isMap
  return {
    id := ← (json.field "id").asString
    url := ← (json.field "url").asString
    x := migrateLegacyCoord n (← (json.field "x").asDouble n)
    y := migrateLegacyCoord n (← (json.field "y").asDouble n)
    width := migrateLegacyCoord n (← (json.field "width").asDouble n)
    height := migrateLegacyCoord n (← (json.field "height").asDouble n) }

def CanvasImage.toJson (i : CanvasImage δ) : Json ν :=
  .obj [("id", .str i.id), ("url", .str i.url), ("x", .num (n.ofDouble i.x)), ("y", .num (n.ofDouble i.y)),
    ("width", .num (n.ofDouble i.width)), ("height", .num (n.ofDouble i.height))]

def Settled (value : δ) : Prop := migrateLegacyCoord n value = value

def CanvasStroke.Settled (s : CanvasStroke δ) : Prop := ∀ p ∈ s.points, Canvas.Settled n p.x ∧ Canvas.Settled n p.y

def CanvasImage.Settled (i : CanvasImage δ) : Prop :=
  Canvas.Settled n i.x ∧ Canvas.Settled n i.y ∧ Canvas.Settled n i.width ∧ Canvas.Settled n i.height

instance [DecidableEq δ] (value : δ) : Decidable (Settled n value) :=
  inferInstanceAs (Decidable (migrateLegacyCoord n value = value))

instance [DecidableEq δ] (s : CanvasStroke δ) : Decidable (s.Settled n) :=
  inferInstanceAs (Decidable (∀ p ∈ s.points, Canvas.Settled n p.x ∧ Canvas.Settled n p.y))

instance [DecidableEq δ] (i : CanvasImage δ) : Decidable (i.Settled n) :=
  inferInstanceAs (Decidable (Canvas.Settled n i.x ∧ Canvas.Settled n i.y ∧ Canvas.Settled n i.width ∧
    Canvas.Settled n i.height))

variable {n}

theorem CanvasPoint.fromJson_toJson {p : CanvasPoint δ} (settled : Settled n p.x ∧ Settled n p.y) :
    CanvasPoint.fromJson n (p.toJson n) = some p := by
  have x : migrateLegacyCoord n (n.toDouble (n.ofDouble p.x)) = p.x := by rw [n.toDouble_ofDouble, settled.1]
  have y : migrateLegacyCoord n (n.toDouble (n.ofDouble p.y)) = p.y := by rw [n.toDouble_ofDouble, settled.2]
  change some (⟨migrateLegacyCoord n (n.toDouble (n.ofDouble p.x)), migrateLegacyCoord n (n.toDouble (n.ofDouble p.y))⟩ :
    CanvasPoint δ) = some p
  rw [x, y]

theorem points_fromJson_toJson {points : List (CanvasPoint δ)}
    (settled : ∀ p ∈ points, Settled n p.x ∧ Settled n p.y) :
    (points.map (CanvasPoint.toJson n)).mapM (CanvasPoint.fromJson n) = some points := by
  induction points with
  | nil => rfl
  | cons p rest ih =>
    rw [List.map_cons, List.mapM_cons, CanvasPoint.fromJson_toJson (settled p List.mem_cons_self),
      ih fun q inside => settled q (List.mem_cons_of_mem _ inside)]
    rfl

theorem strokeKindFromString_toString (kind : StrokeKind) :
    strokeKindFromString (some (strokeKindToString kind)) = kind := by
  cases kind <;> rfl

theorem CanvasStroke.fromJson_toJson {s : CanvasStroke δ} (settled : s.Settled n) :
    CanvasStroke.fromJson n (s.toJson n) = some s := by
  have points := points_fromJson_toJson settled
  have kind := strokeKindFromString_toString s.kind
  obtain ⟨id, color, width, pts, k, text⟩ := s
  cases text with
  | none =>
    change (((pts.map (CanvasPoint.toJson n)).mapM (CanvasPoint.fromJson n)).bind fun points =>
      some (⟨id, color, n.toDouble (n.ofDouble width), points, strokeKindFromString (some (strokeKindToString k)),
        none⟩ : CanvasStroke δ)) = _
    rw [points, kind, n.toDouble_ofDouble]
    rfl
  | some text =>
    change (((pts.map (CanvasPoint.toJson n)).mapM (CanvasPoint.fromJson n)).bind fun points =>
      some (⟨id, color, n.toDouble (n.ofDouble width), points, strokeKindFromString (some (strokeKindToString k)),
        some text⟩ : CanvasStroke δ)) = _
    rw [points, kind, n.toDouble_ofDouble]
    rfl

theorem CanvasImage.fromJson_toJson {i : CanvasImage δ} (settled : i.Settled n) :
    CanvasImage.fromJson n (i.toJson n) = some i := by
  obtain ⟨x, y, width, height⟩ := settled
  change some (⟨i.id, i.url, migrateLegacyCoord n (n.toDouble (n.ofDouble i.x)),
    migrateLegacyCoord n (n.toDouble (n.ofDouble i.y)), migrateLegacyCoord n (n.toDouble (n.ofDouble i.width)),
    migrateLegacyCoord n (n.toDouble (n.ofDouble i.height))⟩ : CanvasImage δ) = some i
  simp only [n.toDouble_ofDouble]
  rw [x, y, width, height]

theorem idText_of_asString {json : Json ν} {id : String} (read : (json.field "id").asString = some id) :
    json.idText n = some id := by
  unfold Json.idText
  unfold Json.asString at read
  split at read
  · next s found =>
    cases read
    rw [found]
  · cases read

theorem CanvasStroke.idText_fromJson {json : Json ν} {s : CanvasStroke δ} (read : CanvasStroke.fromJson n json = some s) :
    json.idText n = some (Identified.id s) := by
  unfold CanvasStroke.fromJson at read
  obtain ⟨_, -, read⟩ := Option.bind_eq_some_iff.mp read
  obtain ⟨id, named, read⟩ := Option.bind_eq_some_iff.mp read
  iterate 6 obtain ⟨_, -, read⟩ := Option.bind_eq_some_iff.mp read
  cases Option.some.inj read
  exact idText_of_asString named

theorem CanvasImage.idText_fromJson {json : Json ν} {i : CanvasImage δ} (read : CanvasImage.fromJson n json = some i) :
    json.idText n = some (Identified.id i) := by
  unfold CanvasImage.fromJson at read
  obtain ⟨_, -, read⟩ := Option.bind_eq_some_iff.mp read
  obtain ⟨id, named, read⟩ := Option.bind_eq_some_iff.mp read
  iterate 5 obtain ⟨_, -, read⟩ := Option.bind_eq_some_iff.mp read
  cases Option.some.inj read
  exact idText_of_asString named

end Models
end Echo.Canvas
