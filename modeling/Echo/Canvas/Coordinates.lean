import Echo.Canvas.Lounge
import Mathlib.Algebra.Order.Field.Rat
import Mathlib.Tactic.Linarith

/-! Coordinates on the wire, as exact rationals: what a stroke or an image comes back as, and the decoding that
`handleCanvasEvent` writes out for itself under `stroke_partial` and `avatar_move`. -/
namespace Echo.Canvas

def kCanvasWidth : ℚ := 6000

def kCanvasHeight : ℚ := 6000

def legacyNormalisedScale : ℚ := 4096

/-- JSON numbers and doubles without rounding; what Postgres writes for a value is left open. -/
def rationals (text : Json ℚ → String) : Numbers ℚ ℚ where
  toDouble v := v
  ofDouble v := v
  toDouble_ofDouble _ := rfl
  atMostOne v := v ≤ 1
  timesLegacyScale v := v * legacyNormalisedScale
  text := text

def Absolute (value : ℚ) : Prop := value = 0 ∨ 1 < value

def CanvasPoint.Absolute (p : CanvasPoint ℚ) : Prop := Canvas.Absolute p.x ∧ Canvas.Absolute p.y

def CanvasPoint.OnBoard (p : CanvasPoint ℚ) : Prop :=
  (0 ≤ p.x ∧ p.x ≤ kCanvasWidth) ∧ 0 ≤ p.y ∧ p.y ≤ kCanvasHeight

def CanvasImage.Absolute (i : CanvasImage ℚ) : Prop :=
  Canvas.Absolute i.x ∧ Canvas.Absolute i.y ∧ Canvas.Absolute i.width ∧ Canvas.Absolute i.height

section Inline
variable (text : Json ℚ → String)

/-- `(… as num?)?.toDouble()` -/
def Json.asDoubleOrNull : Json ℚ → Option (Option ℚ)
  | num v => some (some ((rationals text).toDouble v))
  | null => some none
  | _ => none

/-- `as List?` -/
def Json.asListOrNull : Json ℚ → Option (Option (List (Json ℚ)))
  | arr items => some (some items)
  | null => some none
  | _ => none

/-- The heuristic as the two events have it, with the extent of the board as the scale. -/
def rescaled (raw extent : ℚ) : ℚ := if raw ≤ 1 then raw * extent else raw

def partialPoint (p : Json ℚ) : Option (CanvasPoint ℚ) := do
  guard p.isMap
  let rawX := (← (p.field "x").asDoubleOrNull text).getD 0
  let rawY := (← (p.field "y").asDoubleOrNull text).getD 0
  return { x := rescaled rawX kCanvasWidth, y := rescaled rawY kCanvasHeight }

def wireKindToStrokeKind (kind : String) : StrokeKind := strokeKindFromString (some kind)

/-- `stroke_partial`; none for a frame that is dropped. -/
def strokePartial (strokes : List (CanvasStroke ℚ)) (fromUserId : String) (payload : Json ℚ) :
    Option (List (CanvasStroke ℚ)) := do
  let pointsList ← ((← (payload.field "points").asListOrNull).getD []).mapM (partialPoint text)
  let color := (← (payload.field "color").asStringOrNull).getD "#000000"
  let width := (← (payload.field "width").asDoubleOrNull text).getD 2
  let kind := (← (payload.field "kind").asStringOrNull).getD "pen"
  if pointsList.isEmpty then return strokes
  match strokes.findIdx? (fun s => s.id == partialId fromUserId) with
  | some existingIdx => return strokes.modify existingIdx fun existing => { existing with points := existing.points ++ pointsList }
  | none =>
    return strokes ++
      [{ id := partialId fromUserId
         color := color
         width := width
         points := pointsList
         kind := wireKindToStrokeKind kind
         text := none }]

structure AvatarPosition where
  userId : String
  x : ℚ
  y : ℚ
  scale : ℚ

def AvatarPosition.minScale : ℚ := 1 / 2

def AvatarPosition.maxScale : ℚ := 5

/-- `clamp` -/
def clamp (value lower upper : ℚ) : ℚ := if value < lower then lower else if upper < value then upper else value

/-- `avatar_move`; none for a frame that is dropped. -/
def avatarMove (positions : String → Option AvatarPosition) (fromUserId : String) (payload : Json ℚ) :
    Option (String → Option AvatarPosition) := do
  let targetUserId := (← (payload.field "user_id").asStringOrNull).getD fromUserId
  if targetUserId.isEmpty then return positions
  let rawX := (← (payload.field "x").asDoubleOrNull text).getD (kCanvasWidth / 2)
  let rawY := (← (payload.field "y").asDoubleOrNull text).getD (kCanvasHeight / 2)
  let rawScale ← (payload.field "scale").asDoubleOrNull text
  let scale := (rawScale <|> (positions targetUserId).map AvatarPosition.scale).getD 1
  return Function.update positions targetUserId
    (some { userId := targetUserId
            x := clamp (rescaled rawX kCanvasWidth) 0 kCanvasWidth
            y := clamp (rescaled rawY kCanvasHeight) 0 kCanvasHeight
            scale := clamp scale AvatarPosition.minScale AvatarPosition.maxScale })

/-- What `_flushStrokePoints` sends of a stroke that is being drawn. -/
def partialJson (s : CanvasStroke ℚ) (points : List (CanvasPoint ℚ)) : Json ℚ :=
  .obj [("points", .arr (points.map (CanvasPoint.toJson (rationals text)))), ("color", .str s.color),
    ("width", .num s.width), ("kind", .str (strokeKindToString s.kind))]

/-- What `_flushAvatarMove` sends. -/
def avatarJson (userId : String) (pos : CanvasPoint ℚ) (scale : ℚ) : Json ℚ :=
  .obj [("user_id", .str userId), ("x", .num pos.x), ("y", .num pos.y), ("scale", .num scale)]

/-- The strokes of a receiver after the frames of a stroke that is being drawn. -/
def previewed (strokes : List (CanvasStroke ℚ)) (fromUserId : String) (payloads : List (Json ℚ)) :
    List (CanvasStroke ℚ) :=
  payloads.foldl (fun held payload => (strokePartial text held fromUserId payload).getD held) strokes

def preview (fromUserId : String) (s : CanvasStroke ℚ) (points : List (CanvasPoint ℚ)) : CanvasStroke ℚ :=
  { s with id := partialId fromUserId, points := points, text := none }

end Inline

section Migration
variable (text : Json ℚ → String)

def CanvasPoint.migrated (p : CanvasPoint ℚ) : CanvasPoint ℚ :=
  ⟨migrateLegacyCoord (rationals text) p.x, migrateLegacyCoord (rationals text) p.y⟩

theorem settled_iff (value : ℚ) : Settled (rationals text) value ↔ Absolute value := by
  unfold Settled migrateLegacyCoord rationals Absolute legacyNormalisedScale
  simp only [decide_eq_true_eq]
  by_cases small : value ≤ 1
  · rw [if_pos small, or_iff_left small.not_gt]
    constructor
    · intro same
      linarith
    · rintro rfl
      exact zero_mul _
  · rw [if_neg small]
    exact iff_of_true rfl (Or.inr (not_le.mp small))

theorem migrated_eq_self_iff (p : CanvasPoint ℚ) : p.migrated text = p ↔ p.Absolute := by
  obtain ⟨x, y⟩ := p
  rw [CanvasPoint.migrated, CanvasPoint.mk.injEq]
  exact and_congr (settled_iff text x) (settled_iff text y)

theorem CanvasPoint.read_written (p : CanvasPoint ℚ) :
    CanvasPoint.fromJson (rationals text) (p.toJson (rationals text)) = some (p.migrated text) := rfl

theorem points_read_written (points : List (CanvasPoint ℚ)) :
    (points.map (CanvasPoint.toJson (rationals text))).mapM (CanvasPoint.fromJson (rationals text)) =
      some (points.map (CanvasPoint.migrated text)) := by
  induction points with
  | nil => rfl
  | cons p rest ih =>
    rw [List.map_cons, List.mapM_cons, CanvasPoint.read_written, ih]
    rfl

theorem CanvasStroke.read_written (s : CanvasStroke ℚ) :
    CanvasStroke.fromJson (rationals text) (s.toJson (rationals text)) =
      some { s with points := s.points.map (CanvasPoint.migrated text) } := by
  have points := points_read_written text s.points
  have kind := strokeKindFromString_toString s.kind
  obtain ⟨id, color, width, pts, k, label⟩ := s
  cases label with
  | none =>
    change (((pts.map (CanvasPoint.toJson (rationals text))).mapM (CanvasPoint.fromJson (rationals text))).bind
      fun points => some (⟨id, color, width, points, strokeKindFromString (some (strokeKindToString k)), none⟩ :
        CanvasStroke ℚ)) = _
    rw [points, kind]
    rfl
  | some label =>
    change (((pts.map (CanvasPoint.toJson (rationals text))).mapM (CanvasPoint.fromJson (rationals text))).bind
      fun points => some (⟨id, color, width, points, strokeKindFromString (some (strokeKindToString k)), some label⟩ :
        CanvasStroke ℚ)) = _
    rw [points, kind]
    rfl

theorem CanvasImage.read_written (i : CanvasImage ℚ) :
    CanvasImage.fromJson (rationals text) (i.toJson (rationals text)) =
      some { i with
        x := migrateLegacyCoord (rationals text) i.x
        y := migrateLegacyCoord (rationals text) i.y
        width := migrateLegacyCoord (rationals text) i.width
        height := migrateLegacyCoord (rationals text) i.height } := rfl

theorem CanvasStroke.survives_iff (s : CanvasStroke ℚ) :
    CanvasStroke.fromJson (rationals text) (s.toJson (rationals text)) = some s ↔ ∀ p ∈ s.points, p.Absolute := by
  rw [CanvasStroke.read_written, Option.some_inj]
  have same : { s with points := s.points.map (CanvasPoint.migrated text) } = s ↔
      s.points.map (CanvasPoint.migrated text) = s.points.map fun p => p := by
    obtain ⟨id, color, width, pts, k, label⟩ := s
    simp
  rw [same, List.map_inj_left]
  exact forall₂_congr fun p _ => migrated_eq_self_iff text p

theorem CanvasImage.survives_iff (i : CanvasImage ℚ) :
    CanvasImage.fromJson (rationals text) (i.toJson (rationals text)) = some i ↔ i.Absolute := by
  obtain ⟨id, url, x, y, width, height⟩ := i
  rw [CanvasImage.read_written, Option.some_inj, CanvasImage.mk.injEq]
  simp only [true_and]
  exact and_congr (settled_iff text x) (and_congr (settled_iff text y)
    (and_congr (settled_iff text width) (settled_iff text height)))

end Migration

section Preview
variable {text : Json ℚ → String}

theorem rescaled_absolute {raw : ℚ} (extent : ℚ) (absolute : Absolute raw) : rescaled raw extent = raw := by
  unfold rescaled
  rcases absolute with rfl | large
  · rw [zero_mul, ite_self]
  · exact if_neg large.not_ge

theorem clamp_within {value lower upper : ℚ} (above : lower ≤ value) (below : value ≤ upper) :
    clamp value lower upper = value := by
  rw [clamp, if_neg above.not_gt, if_neg below.not_gt]

theorem partialPoint_absolute {p : CanvasPoint ℚ} (absolute : p.Absolute) :
    partialPoint text (p.toJson (rationals text)) = some p := by
  change some (⟨rescaled p.x kCanvasWidth, rescaled p.y kCanvasHeight⟩ : CanvasPoint ℚ) = some p
  rw [rescaled_absolute _ absolute.1, rescaled_absolute _ absolute.2]

variable (text) in
theorem partialPoints_absolute {points : List (CanvasPoint ℚ)} (absolute : ∀ p ∈ points, p.Absolute) :
    (points.map (CanvasPoint.toJson (rationals text))).mapM (partialPoint text) = some points := by
  induction points with
  | nil => rfl
  | cons p rest ih =>
    rw [List.map_cons, List.mapM_cons, partialPoint_absolute (absolute p List.mem_cons_self),
      ih fun q inside => absolute q (List.mem_cons_of_mem _ inside)]
    rfl

variable (text) in
theorem strokePartial_eq (strokes : List (CanvasStroke ℚ)) (fromUserId : String) (s : CanvasStroke ℚ)
    {points : List (CanvasPoint ℚ)} (absolute : ∀ p ∈ points, p.Absolute) (drawn : points ≠ []) :
    strokePartial text strokes fromUserId (partialJson text s points) =
      match strokes.findIdx? (fun s => s.id == partialId fromUserId) with
      | some i => some (strokes.modify i fun existing => { existing with points := existing.points ++ points })
      | none => some (strokes ++ [preview fromUserId s points]) := by
  have read := partialPoints_absolute text absolute
  have kind := strokeKindFromString_toString s.kind
  change (((points.map (CanvasPoint.toJson (rationals text))).mapM (partialPoint text)).bind fun pointsList =>
    if pointsList.isEmpty then some strokes
    else match strokes.findIdx? (fun s => s.id == partialId fromUserId) with
      | some i => some (strokes.modify i fun existing => { existing with points := existing.points ++ pointsList })
      | none => some (strokes ++ [(⟨partialId fromUserId, s.color, s.width, pointsList,
          strokeKindFromString (some (strokeKindToString s.kind)), none⟩ : CanvasStroke ℚ)])) = _
  rw [read, kind, Option.bind_some, if_neg (by simpa using drawn)]
  rfl

theorem modify_last {α : Type} (items : List α) (last : α) (f : α → α) :
    (items ++ [last]).modify items.length f = items ++ [f last] := by
  induction items with
  | nil => rfl
  | cons a rest ih => rw [List.cons_append, List.length_cons, List.modify_succ_cons, ih, List.cons_append]

theorem findIdx_preview {strokes : List (CanvasStroke ℚ)} {fromUserId : String}
    (idle : ∀ s ∈ strokes, s.id ≠ partialId fromUserId) (s : CanvasStroke ℚ) (points : List (CanvasPoint ℚ)) :
    (strokes ++ [preview fromUserId s points]).findIdx? (fun s => s.id == partialId fromUserId) =
      some strokes.length := by
  have none_held : strokes.findIdx? (fun s => s.id == partialId fromUserId) = none :=
    List.findIdx?_eq_none_iff.mpr fun s mem => beq_eq_false_iff_ne.mpr (idle s mem)
  rw [List.findIdx?_append, none_held]
  simp [preview]

theorem previewed_longer {strokes : List (CanvasStroke ℚ)} {fromUserId : String}
    (idle : ∀ s ∈ strokes, s.id ≠ partialId fromUserId) (s : CanvasStroke ℚ) {chunks : List (List (CanvasPoint ℚ))}
    (absolute : ∀ chunk ∈ chunks, ∀ p ∈ chunk, p.Absolute) (drawn : ∀ chunk ∈ chunks, chunk ≠ [])
    (shown : List (CanvasPoint ℚ)) :
    previewed text (strokes ++ [preview fromUserId s shown]) fromUserId (chunks.map (partialJson text s)) =
      strokes ++ [preview fromUserId s (shown ++ chunks.flatten)] := by
  induction chunks generalizing shown with
  | nil =>
    rw [List.flatten_nil, List.append_nil]
    rfl
  | cons chunk rest ih =>
    have first := strokePartial_eq text (strokes ++ [preview fromUserId s shown]) fromUserId s
      (absolute chunk List.mem_cons_self) (drawn chunk List.mem_cons_self)
    rw [findIdx_preview idle] at first
    have later := ih (fun c mem => absolute c (List.mem_cons_of_mem _ mem))
      (fun c mem => drawn c (List.mem_cons_of_mem _ mem)) (shown ++ chunk)
    simp only [modify_last] at first
    rw [List.map_cons, previewed, List.foldl_cons, first, List.flatten_cons, ← List.append_assoc]
    exact later

theorem previewed_eq {strokes : List (CanvasStroke ℚ)} {fromUserId : String}
    (idle : ∀ s ∈ strokes, s.id ≠ partialId fromUserId) (s : CanvasStroke ℚ) {chunk : List (CanvasPoint ℚ)}
    {chunks : List (List (CanvasPoint ℚ))} (absolute : ∀ c ∈ chunk :: chunks, ∀ p ∈ c, p.Absolute)
    (drawn : ∀ c ∈ chunk :: chunks, c ≠ []) :
    previewed text strokes fromUserId ((chunk :: chunks).map (partialJson text s)) =
      strokes ++ [preview fromUserId s (chunk :: chunks).flatten] := by
  have first := strokePartial_eq text strokes fromUserId s (absolute chunk List.mem_cons_self)
    (drawn chunk List.mem_cons_self)
  have none_held : strokes.findIdx? (fun s => s.id == partialId fromUserId) = none :=
    List.findIdx?_eq_none_iff.mpr fun s mem => beq_eq_false_iff_ne.mpr (idle s mem)
  rw [none_held] at first
  rw [List.map_cons, previewed, List.foldl_cons, first, List.flatten_cons]
  exact previewed_longer idle s (fun c mem => absolute c (List.mem_cons_of_mem _ mem))
    (fun c mem => drawn c (List.mem_cons_of_mem _ mem)) chunk

theorem avatarMove_absolute (positions : String → Option AvatarPosition) (fromUserId : String) {userId : String}
    (named : userId ≠ "") {pos : CanvasPoint ℚ} (absolute : pos.Absolute) (onBoard : pos.OnBoard) (scale : ℚ) :
    avatarMove text positions fromUserId (avatarJson userId pos scale) =
      some (Function.update positions userId
        (some ⟨userId, pos.x, pos.y, clamp scale AvatarPosition.minScale AvatarPosition.maxScale⟩)) := by
  change (if userId.isEmpty then some positions else some (Function.update positions userId
    (some (⟨userId, clamp (rescaled pos.x kCanvasWidth) 0 kCanvasWidth,
      clamp (rescaled pos.y kCanvasHeight) 0 kCanvasHeight,
      clamp scale AvatarPosition.minScale AvatarPosition.maxScale⟩ : AvatarPosition)))) = _
  rw [if_neg (by simpa using named), rescaled_absolute _ absolute.1, rescaled_absolute _ absolute.2,
    clamp_within onBoard.1.1 onBoard.1.2, clamp_within onBoard.2.1 onBoard.2.2]

theorem CanvasPoint.survives {p : CanvasPoint ℚ} (absolute : p.Absolute) :
    CanvasPoint.fromJson (rationals text) (p.toJson (rationals text)) = some p := by
  rw [CanvasPoint.read_written, (migrated_eq_self_iff text p).mpr absolute]

end Preview

/-- A stroke comes back as it was exactly when none of its coordinates is taken for a fraction, an image when neither
its place nor its size is; absolute coordinates are the same point in every decoding, so what is shown of a stroke
while it is drawn is the beginning of the stroke. -/
theorem coordinates_survive (text : Json ℚ → String) :
    (∀ s : CanvasStroke ℚ, CanvasStroke.fromJson (rationals text) (s.toJson (rationals text)) = some s ↔
      ∀ p ∈ s.points, p.Absolute) ∧
    (∀ i : CanvasImage ℚ, CanvasImage.fromJson (rationals text) (i.toJson (rationals text)) = some i ↔ i.Absolute) ∧
    (∀ p : CanvasPoint ℚ, p.Absolute →
      partialPoint text (p.toJson (rationals text)) = CanvasPoint.fromJson (rationals text) (p.toJson (rationals text))) ∧
    (∀ pos : CanvasPoint ℚ, pos.Absolute → pos.OnBoard → ∀ positions fromUserId userId scale, userId ≠ "" →
      ∃ moved place, avatarMove text positions fromUserId (avatarJson userId pos scale) = some moved ∧
        moved userId = some place ∧
        CanvasPoint.fromJson (rationals text) (avatarJson userId pos scale) = some ⟨place.x, place.y⟩) ∧
    (∀ (s : CanvasStroke ℚ) strokes fromUserId chunk chunks, (∀ p ∈ s.points, p.Absolute) →
      (chunk :: chunks).flatten <+: s.points → (∀ c ∈ chunk :: chunks, c ≠ []) →
      (∀ s ∈ strokes, s.id ≠ partialId fromUserId) →
      ∃ final, CanvasStroke.fromJson (rationals text) (s.toJson (rationals text)) = some final ∧
        previewed text strokes fromUserId ((chunk :: chunks).map (partialJson text s)) =
          strokes ++ [preview fromUserId final (final.points.take (chunk :: chunks).flatten.length)]) := by
  refine ⟨CanvasStroke.survives_iff text, CanvasImage.survives_iff text, fun p absolute => ?_,
    fun pos absolute onBoard positions fromUserId userId scale named => ?_,
    fun s strokes fromUserId chunk chunks absolute begins drawn idle => ?_⟩
  · rw [partialPoint_absolute absolute, CanvasPoint.survives absolute]
  · refine ⟨_, _, avatarMove_absolute positions fromUserId named absolute onBoard scale,
      Function.update_self .., ?_⟩
    exact CanvasPoint.survives absolute
  · have inside : ∀ c ∈ chunk :: chunks, ∀ p ∈ c, p.Absolute := by
      intro c mem p point
      exact absolute p (begins.subset (List.mem_flatten_of_mem mem point))
    refine ⟨s, (CanvasStroke.survives_iff text s).mpr absolute, ?_⟩
    rw [previewed_eq idle s inside drawn, ← List.prefix_iff_eq_take.mp begins]

def nearEdge : CanvasStroke ℚ :=
  { id := "s", color := "#000000", width := 4, points := [⟨1 / 2, 100⟩], kind := .pen, text := none }

theorem nearEdge_moved :
    (∀ p ∈ nearEdge.points, p.OnBoard) ∧
      CanvasStroke.fromJson (rationals fun _ => "") (nearEdge.toJson (rationals fun _ => "")) ≠ some nearEdge ∧
      ∀ p ∈ nearEdge.points, partialPoint (fun _ => "") (p.toJson (rationals fun _ => "")) ≠
        CanvasPoint.fromJson (rationals fun _ => "") (p.toJson (rationals fun _ => "")) := by
  refine ⟨?_, fun same => ?_, ?_⟩
  · rw [nearEdge, List.forall_mem_singleton]
    unfold CanvasPoint.OnBoard kCanvasWidth kCanvasHeight
    norm_num
  · have absolute := (CanvasStroke.survives_iff _ nearEdge).mp same ⟨1 / 2, 100⟩ List.mem_cons_self
    unfold CanvasPoint.Absolute Absolute at absolute
    norm_num at absolute
  · rw [nearEdge, List.forall_mem_singleton]
    change some (⟨rescaled (1 / 2) kCanvasWidth, rescaled 100 kCanvasHeight⟩ : CanvasPoint ℚ) ≠
      some ⟨migrateLegacyCoord (rationals fun _ => "") (1 / 2), migrateLegacyCoord (rationals fun _ => "") 100⟩
    simp only [rescaled, migrateLegacyCoord, rationals, kCanvasWidth, kCanvasHeight, legacyNormalisedScale]
    norm_num

theorem farFromEdge_survives :
    ∃ final, CanvasStroke.fromJson (rationals fun _ => "")
        (({ nearEdge with points := [⟨2, 100⟩, ⟨3, 0⟩] } : CanvasStroke ℚ).toJson (rationals fun _ => "")) = some final ∧
      previewed (fun _ => "") [] "ann"
          ([[⟨2, 100⟩], [⟨3, 0⟩]].map (partialJson (fun _ => "") { nearEdge with points := [⟨2, 100⟩, ⟨3, 0⟩] })) =
        [preview "ann" final (final.points.take 2)] := by
  have large : ∀ p ∈ [(⟨2, 100⟩ : CanvasPoint ℚ), ⟨3, 0⟩], p.Absolute := by
    rw [List.forall_mem_cons, List.forall_mem_singleton]
    unfold CanvasPoint.Absolute Absolute
    norm_num
  exact (coordinates_survive fun _ => "").2.2.2.2 { nearEdge with points := [⟨2, 100⟩, ⟨3, 0⟩] } [] "ann" [⟨2, 100⟩]
    [[⟨3, 0⟩]] large List.prefix_rfl (by simp) (by simp)

end Echo.Canvas
