import Echo.Canvas.Room
import Echo.Canvas.Originator
import Echo.Lib.Replicas

/-! Clear-mine: a participant clears the board for all and adds again what he knows of the others. The items on the
boards are the replicas of a set, step by step. -/
namespace Echo.Canvas
open Echo.Lib (Along Note Replicas)

variable {ν δ U : Type}

section Names
variable {n : Numbers ν δ}

theorem CanvasStroke.named (stroke : CanvasStroke δ) :
    ∃ read, CanvasStroke.fromJson n (stroke.toJson n) = some read ∧ read.id = stroke.id := by
  have points : ∀ points : List (CanvasPoint δ),
      ∃ read, (points.map (CanvasPoint.toJson n)).mapM (CanvasPoint.fromJson n) = some read := by
    intro points
    induction points with
    | nil => exact ⟨[], rfl⟩
    | cons p rest ih =>
      obtain ⟨read, others⟩ := ih
      refine ⟨⟨migrateLegacyCoord n (n.toDouble (n.ofDouble p.x)), migrateLegacyCoord n (n.toDouble (n.ofDouble p.y))⟩
          ::
        read, ?_⟩
      rw [List.map_cons, List.mapM_cons, others]
      rfl
  obtain ⟨id, color, width, pts, kind, text⟩ := stroke
  obtain ⟨read, found⟩ := points pts
  refine ⟨⟨id, color, n.toDouble (n.ofDouble width), read, strokeKindFromString (some (strokeKindToString kind)), text⟩,
    ?_, rfl⟩
  cases text with
  | none =>
    change (((pts.map (CanvasPoint.toJson n)).mapM (CanvasPoint.fromJson n)).bind fun points =>
      some (⟨id, color, n.toDouble (n.ofDouble width), points, strokeKindFromString (some (strokeKindToString kind)),
        none⟩ : CanvasStroke δ)) = _
    rw [found]
    rfl
  | some text =>
    change (((pts.map (CanvasPoint.toJson n)).mapM (CanvasPoint.fromJson n)).bind fun points =>
      some (⟨id, color, n.toDouble (n.ofDouble width), points, strokeKindFromString (some (strokeKindToString kind)),
        some text⟩ : CanvasStroke δ)) = _
    rw [found]
    rfl

theorem CanvasImage.named (image : CanvasImage δ) :
    ∃ read, CanvasImage.fromJson n (image.toJson n) = some read ∧ read.id = image.id :=
  ⟨_, rfl, rfl⟩

end Names

section Notes
variable {n : Numbers ν δ} {userId : U → String} {post : Post ν U} {board : CanvasState δ} {row : Option (CanvasRow ν)}

variable (n) in
def Post.item (post : Post ν U) : Option Item :=
  match post.kind with
  | .stroke => (post.payload.idText n).map .stroke
  | .imageAdd => (post.payload.idText n).map .image
  | .clear | .imageMove | .imageRemove => none

variable (n) in
def Post.note (post : Post ν U) : Note U Item := ⟨post.sender, post.item n⟩

inductive Plain (n : Numbers ν δ) : Post ν U → Prop
  | stroke {sender : U} {payload : Json ν} {stroke : CanvasStroke δ}
    (read : CanvasStroke.fromJson n payload = some stroke) : Plain n ⟨sender, .stroke, payload⟩
  | image {sender : U} {payload : Json ν} {image : CanvasImage δ}
    (read : CanvasImage.fromJson n payload = some image) : Plain n ⟨sender, .imageAdd, payload⟩
  | clear {sender : U} {payload : Json ν} (readable : isReadable payload = true) : Plain n ⟨sender, .clear, payload⟩

theorem item_of_stroke {sender : U} {payload : Json ν} {stroke : CanvasStroke δ}
    (read : CanvasStroke.fromJson n payload = some stroke) :
    Post.item n (⟨sender, .stroke, payload⟩ : Post ν U) = some (.stroke stroke.id) :=
  congrArg (Option.map Item.stroke) (CanvasStroke.idText_fromJson read)

theorem item_of_image {sender : U} {payload : Json ν} {image : CanvasImage δ}
    (read : CanvasImage.fromJson n payload = some image) :
    Post.item n (⟨sender, .imageAdd, payload⟩ : Post ν U) = some (.image image.id) :=
  congrArg (Option.map Item.image) (CanvasImage.idText_fromJson read)

theorem drawn_note (me : U) (stroke : CanvasStroke δ) :
    Plain n (⟨me, .stroke, stroke.toJson n⟩ : Post ν U) ∧
      Post.note n (⟨me, .stroke, stroke.toJson n⟩ : Post ν U) = ⟨me, some (.stroke stroke.id)⟩ := by
  obtain ⟨read, found, same⟩ := stroke.named (n := n)
  refine ⟨.stroke found, ?_⟩
  rw [Post.note, item_of_stroke found, same]

theorem placed_note (me : U) (image : CanvasImage δ) :
    Plain n (⟨me, .imageAdd, image.toJson n⟩ : Post ν U) ∧
      Post.note n (⟨me, .imageAdd, image.toJson n⟩ : Post ν U) = ⟨me, some (.image image.id)⟩ := by
  obtain ⟨read, found, same⟩ := image.named (n := n)
  refine ⟨.image found, ?_⟩
  rw [Post.note, item_of_image found, same]

theorem Plain.item_eq_none (plain : Plain n post) : post.item n = none ↔ post.kind = .clear := by
  cases plain with
  | stroke read => simp [item_of_stroke read]
  | image read => simp [item_of_image read]
  | clear => exact ⟨fun _ => rfl, fun _ => rfl⟩

section Ids
variable {α : Type} [Identified α] {items : List α} {i : String}

theorem mem_ids_added (item : α) (room : items.length < cap) :
    i ∈ ids (capped (items ++ [item])) ↔ i = Identified.id item ∨ i ∈ ids items := by
  have short : (items ++ [item]).length ≤ cap := by
    rw [List.length_append, List.length_singleton]
    exact room
  rw [capped_short short, ids, List.map_append, List.mem_append, List.map_singleton, List.mem_singleton]
  exact or_comm

theorem mem_ids_put (item : α) (room : items.length < cap) :
    i ∈ ids (capped (without (Identified.id item) items ++ [item])) ↔ i = Identified.id item ∨ i ∈ ids items := by
  have shorter : (without (Identified.id item) items).length < cap :=
    lt_of_le_of_lt (List.length_filter_le _ items) room
  rw [mem_ids_added item shorter]
  constructor
  · refine Or.imp_right fun inside => ?_
    obtain ⟨held, mem, rfl⟩ := List.mem_map.mp inside
    exact List.mem_map_of_mem (mem_without mem).1
  · rintro (same | inside)
    · exact .inl same
    · by_cases same : i = Identified.id item
      · exact .inl same
      · obtain ⟨held, mem, rfl⟩ := List.mem_map.mp inside
        exact .inr (List.mem_map_of_mem (List.mem_filter.mpr ⟨mem, decide_eq_true same⟩))

theorem mem_named_appended {held : List (Json ν)} {payload : Json ν} {name : String}
    (own : payload.idText n = some name) :
    (∃ j ∈ appended n held payload, j.idText n = some i) ↔ i = name ∨ ∃ j ∈ held, j.idText n = some i := by
  unfold appended
  split
  · next there =>
    obtain ⟨j, mem, same⟩ := List.any_eq_true.mp there
    refine ⟨.inr, fun found => found.elim ?_ id⟩
    rintro rfl
    refine ⟨j, mem, ?_⟩
    unfold Json.sameId at same
    rw [own] at same
    cases text : j.idText n with
    | none =>
      rw [text] at same
      cases same
    | some t =>
      rw [text] at same
      exact congrArg some (beq_iff_eq.mp same)
  · simp only [List.mem_append, List.mem_singleton, or_and_right, exists_or, exists_eq_left, own, Option.some.injEq]
    rw [or_comm, @eq_comm _ i]

end Ids

theorem Plain.handled (plain : Plain n post) (room : HasRoom board (post.sent userId))
    (apart : post.kind = .stroke → partialId (userId post.sender) ∉ ids board.strokes) :
    { k | onBoard (handled n board (post.sent userId)) k } = (post.note n).apply { k | onBoard board k } := by
  ext k
  cases plain with
  | @stroke sender payload stroke read =>
    have board' : Canvas.handled n board (Post.sent userId ⟨sender, .stroke, payload⟩) =
        { board with strokes := capped (without stroke.id board.strokes ++ [stroke]) } := by
      unfold Canvas.handled handleCanvasEvent Post.sent
      dsimp only
      rw [if_pos (readable_of_stroke read), read]
      dsimp only
      rw [without_fresh (apart rfl)]
    rw [board', Echo.Lib.apply_of_some (item_of_stroke read)]
    cases k with
    | stroke id =>
      exact (mem_ids_put stroke room).trans (or_congr_left (Item.stroke.injEq id stroke.id).symm.to_iff)
    | image id => simp [onBoard]
  | @image sender payload image read =>
    have board' : Canvas.handled n board (Post.sent userId ⟨sender, .imageAdd, payload⟩) =
        { board with images := capped (without image.id board.images ++ [image]) } := by
      unfold Canvas.handled handleCanvasEvent Post.sent
      dsimp only
      rw [if_pos (readable_of_image read), read]
    rw [board', Echo.Lib.apply_of_some (item_of_image read)]
    cases k with
    | stroke id => simp [onBoard]
    | image id =>
      exact (mem_ids_put image room).trans (or_congr_left (Item.image.injEq id image.id).symm.to_iff)
  | @clear sender payload readable =>
    have board' : Canvas.handled n board (Post.sent userId ⟨sender, .clear, payload⟩) = {} := if_pos readable
    rw [board', Echo.Lib.apply_of_none rfl]
    cases k <;> simp [onBoard]

theorem Plain.persisted (plain : Plain n post) (room : RowHasRoom row post.kind) :
    ∃ after, persistCanvasState n row true post.kind post.payload = some after ∧
      { k | inRow n after k } = (post.note n).apply { k | inRow n row k } := by
  cases plain with
  | @stroke sender payload stroke read =>
    refine ⟨some { row.getD {} with drawingData := appended n (row.getD {}).drawingData payload },
      if_neg (Nat.not_le.mpr room), ?_⟩
    rw [Echo.Lib.apply_of_some (item_of_stroke read)]
    ext k
    cases k with
    | stroke id =>
      refine (mem_named_appended (CanvasStroke.idText_fromJson read)).trans ?_
      exact or_congr_left (Item.stroke.injEq id stroke.id).symm.to_iff
    | image id => simp [inRow]
  | @image sender payload image read =>
    refine ⟨some { row.getD {} with imagesData := appended n (row.getD {}).imagesData payload },
      if_neg (Nat.not_le.mpr room), ?_⟩
    rw [Echo.Lib.apply_of_some (item_of_image read)]
    ext k
    cases k with
    | stroke id => simp [inRow]
    | image id =>
      refine (mem_named_appended (CanvasImage.idText_fromJson read)).trans ?_
      exact or_congr_left (Item.image.injEq id image.id).symm.to_iff
  | clear =>
    refine ⟨some {}, rfl, ?_⟩
    rw [Echo.Lib.apply_of_none rfl]
    ext k
    cases k <;> simp [inRow]

end Notes

namespace Session
variable {n : Numbers ν δ} {userId : U → String} {s : Session ν δ U} {user : U}

variable (n s) in
/-- The items in the row and on the boards, and what the events on their way do to them. -/
def view : Replicas U Item where
  store := { k | inRow n s.room.row k }
  held x := { k | onBoard (s.room.seats x).board k }
  inbox x := (s.room.seats x).inbox.map (Post.note n)
  outbox x := (s.room.seats x).outbox.map (Post.note n)
  made := { k | k ∈ s.record.made }
  author := s.record.author
  gone := { k | k ∈ s.record.gone }
  kept := { k | k ∈ s.record.kept }
  last := s.record.last

section Growth
variable {k : Item}

structure Grown (n : Numbers ν δ) (user : U) (k : Item) (before after : Seat ν δ U) (post : Post ν U) : Prop where
  board : { j | onBoard after.board j } = insert k { j | onBoard before.board j }
  inbox : after.inbox = before.inbox
  outbox : after.outbox = before.outbox ++ [post]
  plain : Plain n post
  note : post.note n = ⟨user, some k⟩
  mine : ∀ j, after.mine j → j = k ∨ before.mine j

theorem endStroke_grown {before : Seat ν δ U} {stroke : CanvasStroke δ} (room : before.board.strokes.length < cap) :
    Grown n user (.stroke stroke.id) before (before.endStroke n user stroke) ⟨user, .stroke, stroke.toJson n⟩ where
  board := by
    ext k
    cases k with
    | stroke id =>
      exact (mem_ids_added stroke room).trans (or_congr_left (Item.stroke.injEq id stroke.id).symm.to_iff)
    | image id => simp [onBoard, Seat.endStroke, Seat.sendCanvasEvent]
  inbox := rfl
  outbox := rfl
  plain := (drawn_note user stroke).1
  note := (drawn_note user stroke).2
  mine k own := by
    cases k with
    | stroke id => exact (Finset.mem_insert.mp own).imp_left (congrArg Item.stroke)
    | image id => exact .inr own

theorem addImage_grown {before : Seat ν δ U} {image : CanvasImage δ} (room : before.board.images.length < cap) :
    Grown n user (.image image.id) before (before.addImage n user image) ⟨user, .imageAdd, image.toJson n⟩ where
  board := by
    ext k
    cases k with
    | stroke id => simp [onBoard, Seat.addImage, Seat.sendCanvasEvent]
    | image id =>
      exact (mem_ids_added image room).trans (or_congr_left (Item.image.injEq id image.id).symm.to_iff)
  inbox := rfl
  outbox := rfl
  plain := (placed_note user image).1
  note := (placed_note user image).2
  mine k own := by
    cases k with
    | stroke id => exact .inr own
    | image id => exact (Finset.mem_insert.mp own).imp_left (congrArg Item.image)

end Growth

theorem clears_iff {posts : List (Post ν U)} (plain : ∀ post ∈ posts, Plain n post) :
    Echo.Lib.Clears (posts.map (Post.note n)) ↔ ∃ post ∈ posts, post.kind = .clear := by
  unfold Echo.Lib.Clears
  simp only [List.mem_map, exists_exists_and_eq_and]
  exact exists_congr fun post => and_congr_right fun mem => (plain post mem).item_eq_none

section Staying

def addedAgain (seat : Seat ν δ U) : List Item :=
  (seat.board.images.filter fun image => image.id ∉ seat.myImageIds).map (fun image => Item.image image.id) ++
    (seat.board.strokes.filter fun stroke => stroke.id ∉ seat.myStrokeIds).map fun stroke => Item.stroke stroke.id

theorem mem_addedAgain {seat : Seat ν δ U} {k : Item} : k ∈ addedAgain seat ↔ onBoard seat.board k ∧ ¬ seat.mine k := by
  unfold addedAgain
  cases k with
  | stroke id =>
    simp only [List.mem_append, List.mem_map, List.mem_filter, decide_eq_true_eq, reduceCtorEq, and_false, exists_false,
      false_or, Item.stroke.injEq, onBoard, Seat.mine]
    constructor
    · rintro ⟨stroke, ⟨mem, left⟩, rfl⟩
      exact ⟨⟨stroke, mem, rfl⟩, left⟩
    · rintro ⟨⟨stroke, mem, rfl⟩, left⟩
      exact ⟨stroke, ⟨mem, left⟩, rfl⟩
  | image id =>
    simp only [List.mem_append, List.mem_map, List.mem_filter, decide_eq_true_eq, reduceCtorEq, and_false, exists_false,
      or_false, Item.image.injEq, onBoard, Seat.mine]
    constructor
    · rintro ⟨image, ⟨mem, left⟩, rfl⟩
      exact ⟨⟨image, mem, rfl⟩, left⟩
    · rintro ⟨⟨image, mem, rfl⟩, left⟩
      exact ⟨image, ⟨mem, left⟩, rfl⟩

end Staying

variable [DecidableEq U]

variable (n s) in
/-- What holds of a session: its events are plain, the mine-sets hold what their participant made and still has, and
the items are with everyone or on their way. -/
structure Sound : Prop where
  heard : ∀ x, ∀ post ∈ (s.room.seats x).inbox, Plain n post
  taken : ∀ x, ∀ post ∈ (s.room.seats x).outbox, Plain n post
  mine : ∀ x k, (s.room.seats x).mine k → k ∈ s.record.own x ∧ k ∉ s.record.gone
  authored : ∀ k x, s.record.author k = some x → k ∈ s.record.made
  coherent : (s.view n).Coherent

theorem view_seated (seat : Seat ν δ U) (record : Record U) :
    view n ⟨s.room.seated user seat, record⟩ =
      { store := (s.view n).store
        held := Function.update (s.view n).held user { k | onBoard seat.board k }
        inbox := Function.update (s.view n).inbox user (seat.inbox.map (Post.note n))
        outbox := Function.update (s.view n).outbox user (seat.outbox.map (Post.note n))
        made := { k | k ∈ record.made }
        author := record.author
        gone := { k | k ∈ record.gone }
        kept := { k | k ∈ record.kept }
        last := record.last } := by
  have at' : ∀ {β : Type} (f : Seat ν δ U → β), (fun x => f (Function.update s.room.seats user seat x)) =
      Function.update (fun x => f (s.room.seats x)) user (f seat) := fun f => Function.comp_update f _ _ _
  unfold view Room.seated
  dsimp only
  rw [at' fun seat => { k | onBoard seat.board k }, at' fun seat => seat.inbox.map (Post.note n),
    at' fun seat => seat.outbox.map (Post.note n)]

theorem seats_seated {seat : Seat ν δ U} {P : U → Seat ν δ U → Prop} (own : P user seat)
    (others : ∀ x, x ≠ user → P x (s.room.seats x)) (x : U) : P x ((s.room.seated user seat).seats x) :=
  (Function.forall_update_iff s.room.seats P).mpr ⟨own, others⟩ x

section Add
variable {seat : Seat ν δ U} {k : Item} {post : Post ν U}

theorem view_added (grown : Grown n user k (s.room.seats user) seat post) :
    view n ⟨s.room.seated user seat, s.record.added user k⟩ = (s.view n).add user k := by
  have inbox : Function.update (s.view n).inbox user (seat.inbox.map (Post.note n)) = (s.view n).inbox := by
    rw [grown.inbox]
    exact Function.update_eq_self user _
  have outbox : seat.outbox.map (Post.note n) = (s.view n).outbox user ++ [⟨user, some k⟩] := by
    rw [grown.outbox, List.map_append, List.map_singleton, grown.note]
    rfl
  have made : { j | j ∈ (s.record.added user k).made } = insert k (s.view n).made := by
    ext j
    exact Finset.mem_insert
  rw [view_seated, inbox, outbox, made, grown.board]
  rfl

theorem Sound.added (sound : s.Sound n) (grown : Grown n user k (s.room.seats user) seat post)
    (fresh : k ∉ s.record.made) (calm : s.Calm user) :
    Sound n ⟨s.room.seated user seat, s.record.added user k⟩ where
  heard := by
    refine seats_seated (P := fun _ seat => ∀ post ∈ seat.inbox, Plain n post) ?_ fun x _ => sound.heard x
    rw [grown.inbox]
    exact sound.heard user
  taken := by
    refine seats_seated (P := fun _ seat => ∀ post ∈ seat.outbox, Plain n post) ?_ fun x _ => sound.taken x
    intro sent mem
    rw [grown.outbox, List.mem_append, List.mem_singleton] at mem
    rcases mem with old | rfl
    · exact sound.taken user sent old
    · exact grown.plain
  mine := by
    have old : ∀ x j, j ∈ s.record.own x ∧ j ∉ s.record.gone →
        j ∈ (s.record.added user k).own x ∧ j ∉ s.record.gone := by
      rintro x j ⟨own, left⟩
      obtain ⟨made, author⟩ := Finset.mem_filter.mp own
      have other : j ≠ k := by
        rintro rfl
        exact fresh made
      refine ⟨Finset.mem_filter.mpr ⟨Finset.mem_insert_of_mem made, ?_⟩, left⟩
      exact (Function.update_of_ne other (some user) s.record.author).trans author
    refine seats_seated (P := fun x seat => ∀ j, seat.mine j → j ∈ (s.record.added user k).own x ∧ j ∉ s.record.gone) ?_
      fun x _ j own => old x j (sound.mine x j own)
    intro j own
    rcases grown.mine j own with rfl | before
    · refine ⟨Finset.mem_filter.mpr ⟨Finset.mem_insert_self j _, Function.update_self ..⟩, fun gone => fresh ?_⟩
      exact sound.coherent.made j gone
    · exact old user j (sound.mine user j before)
  authored j x author := by
    by_cases same : j = k
    · rw [same]
      exact Finset.mem_insert_self k _
    · have before : Function.update s.record.author k (some user) j = some x := author
      rw [Function.update_of_ne same] at before
      exact Finset.mem_insert_of_mem (sound.authored j x before)
  coherent := by
    rw [view_added grown]
    refine sound.coherent.add fresh (fun clears => ?_) fun x other clears => ?_
    · obtain ⟨post, mem, clear⟩ := (clears_iff (sound.heard user)).mp clears
      exact calm.1 post mem clear
    · obtain ⟨post, mem, clear⟩ := (clears_iff (sound.taken x)).mp clears
      exact calm.2 x other post mem clear

end Add

section Clear

theorem Sound.own_iff (sound : s.Sound n) {k : Item} : k ∈ s.record.own user ↔ s.record.author k = some user := by
  unfold Record.own
  rw [Finset.mem_filter]
  exact and_iff_right_of_imp (sound.authored k user)

omit [DecidableEq U] in
variable (user) in
theorem clearMyDrawings_eq {seat : Seat ν δ U} (strokes : seat.myStrokeIds ≠ ∅) :
    (seat.clearMyDrawings n user).outbox.map (Post.note n) =
        seat.outbox.map (Post.note n) ++ ⟨user, none⟩ :: (addedAgain seat).map (fun k => ⟨user, some k⟩) ∧
      (∀ post ∈ (seat.clearMyDrawings n user).outbox, post ∈ seat.outbox ∨ Plain n post) ∧
      (seat.clearMyDrawings n user).inbox = seat.inbox ∧
      (∀ k, onBoard (seat.clearMyDrawings n user).board k ↔ k ∈ addedAgain seat) ∧
      ∀ k, ¬ (seat.clearMyDrawings n user).mine k := by
  unfold Seat.clearMyDrawings
  rw [if_neg strokes]
  unfold Seat.importSnapshot
  dsimp only
  refine ⟨?_, fun post mem => ?_, rfl, fun k => ?_, fun k own => ?_⟩
  · have images : ∀ images : List (CanvasImage δ),
        (images.map fun image => (⟨user, .imageAdd, image.toJson n⟩ : Post ν U)).map (Post.note n) =
          (images.map fun image => Item.image image.id).map fun k => ⟨user, some k⟩ := fun images => by
      rw [List.map_map, List.map_map]
      exact List.map_congr_left fun image _ => (placed_note user image).2
    have drawn : ∀ strokes : List (CanvasStroke δ),
        (strokes.map fun stroke => (⟨user, .stroke, stroke.toJson n⟩ : Post ν U)).map (Post.note n) =
          (strokes.map fun stroke => Item.stroke stroke.id).map fun k => ⟨user, some k⟩ := fun strokes => by
      rw [List.map_map, List.map_map]
      exact List.map_congr_left fun stroke _ => (drawn_note user stroke).2
    rw [List.map_append, List.map_append, List.map_cons, images, drawn, addedAgain, List.map_append, List.append_assoc]
    rfl
  · simp only [List.mem_append, List.mem_cons, List.mem_map] at mem
    rcases mem with (old | rfl | ⟨image, -, rfl⟩) | ⟨stroke, -, rfl⟩
    · exact .inl old
    · exact .inr (.clear rfl)
    · exact .inr (placed_note user image).1
    · exact .inr (drawn_note user stroke).1
  · cases k with
    | stroke | image => simp [onBoard, addedAgain, Identified.id]
  · cases k with
    | stroke id => exact absurd own (Finset.notMem_empty id)
    | image id => exact absurd own (Finset.notMem_empty id)

theorem Sound.idle (sound : s.Sound n) (none : s.record.own user ⊆ s.record.gone) :
    s.step n userId (.clearMyDrawings user) = s := by
  have strokes : (s.room.seats user).myStrokeIds = ∅ := by
    refine Finset.eq_empty_of_forall_notMem fun id mem => ?_
    have both := sound.mine user (.stroke id) mem
    exact both.2 (none both.1)
  have seat : (s.room.seats user).clearMyDrawings n user = s.room.seats user := if_pos strokes
  have record : s.record.cleared user = s.record := if_pos none
  unfold Session.step Room.step Record.step
  dsimp only
  rw [seat, record]
  unfold Room.seated
  rw [Function.update_eq_self]

theorem Sound.clearMyDrawings (sound : s.Sound n) (left : ¬ s.record.own user ⊆ s.record.gone)
    (strokes : (s.room.seats user).myStrokeIds ≠ ∅) (alone : s.Alone user)
    (recorded : ∀ k ∈ s.record.own user, onBoard (s.room.seats user).board k → (s.room.seats user).mine k) :
    Sound n (s.step n userId (.clearMyDrawings user)) := by
  obtain ⟨notes, posts, inbox, board, mine⟩ := clearMyDrawings_eq (n := n) user strokes
  have record : s.record.cleared user =
      { s.record with
        gone := s.record.gone ∪ s.record.own user
        kept := (s.record.made \ s.record.gone).filter fun k => s.record.author k ≠ some user
        last := some user } := if_neg left
  have heard : (s.room.seats user).inbox = [] := List.length_eq_zero_iff.mp alone.1
  have swept : (s.step n userId (.clearMyDrawings user)).view n =
      (s.view n).sweep user (addedAgain (s.room.seats user)) := by
    change view n ⟨s.room.seated user ((s.room.seats user).clearMyDrawings n user), s.record.cleared user⟩ = _
    have queue : Function.update (s.view n).inbox user
        (((s.room.seats user).clearMyDrawings n user).inbox.map (Post.note n)) = (s.view n).inbox := by
      rw [inbox]
      exact Function.update_eq_self user _
    have held : { k | onBoard ((s.room.seats user).clearMyDrawings n user).board k } =
        { k | k ∈ addedAgain (s.room.seats user) } := Set.ext board
    rw [view_seated, queue, held, notes, record]
    unfold Replicas.sweep
    congr 1
    · ext k
      simp [view, Record.own]
    · ext k
      simp [view, Replicas.live]
  constructor
  · refine seats_seated (P := fun _ seat => ∀ post ∈ seat.inbox, Plain n post) ?_ fun x _ => sound.heard x
    rw [inbox]
    exact sound.heard user
  · refine seats_seated (P := fun _ seat => ∀ post ∈ seat.outbox, Plain n post) ?_ fun x _ => sound.taken x
    exact fun post mem => (posts post mem).elim (sound.taken user post) id
  · rw [step, Room.step, Record.step, record]
    refine seats_seated (P := fun x seat => ∀ k, seat.mine k → k ∈ s.record.own x ∧
        k ∉ s.record.gone ∪ s.record.own user)
      (fun k own => absurd own (mine k)) fun x other k own => ?_
    obtain ⟨made, present⟩ := sound.mine x k own
    refine ⟨made, fun gone => (Finset.mem_union.mp gone).elim present fun theirs => other ?_⟩
    exact Option.some.inj ((sound.own_iff.mp made).symm.trans (sound.own_iff.mp theirs))
  · rw [step, Record.step, record]
    exact sound.authored
  · rw [swept]
    refine sound.coherent.sweep ?_ ?_ fun k => ?_
    · change (s.room.seats user).inbox.map _ = []
      rw [heard]
      rfl
    · intro x other
      change (s.room.seats x).outbox.map _ = []
      rw [List.length_eq_zero_iff.mp (alone.2 x other)]
      rfl
    · rw [mem_addedAgain]
      refine and_congr_right fun there => not_congr ⟨fun own => ?_, fun author => ?_⟩
      · exact sound.own_iff.mp (sound.mine user k own).1
      · exact recorded k (sound.own_iff.mpr author) there

end Clear

section Travel
variable {post : Post ν U} {rest : List (Post ν U)}

theorem Sound.takes (sound : s.Sound n)
    (room : ∀ post ∈ (s.room.seats user).outbox.head?, RowHasRoom s.room.row post.kind) :
    Sound n (s.step n userId (.taken user true)) := by
  cases queue : (s.room.seats user).outbox with
  | nil =>
    have same : s.step n userId (.taken user true) = s := by
      unfold Session.step Room.step Room.taken
      dsimp only
      rw [queue]
      rfl
    rw [same]
    exact sound
  | cons post rest =>
    rw [queue] at room
    have plain : Plain n post := by
      refine sound.taken user post ?_
      rw [queue]
      exact List.mem_cons_self
    obtain ⟨after, stored, kept⟩ := plain.persisted (room post rfl)
    have stepped : s.step n userId (.taken user true) =
        { room :=
            { row := after
              seats := fun x =>
                if x = user then { s.room.seats x with outbox := rest }
                else { s.room.seats x with inbox := (s.room.seats x).inbox ++ [post] } }
          record := s.record } := by
      unfold Session.step Room.step Room.taken
      dsimp only
      rw [queue]
      dsimp only
      rw [stored]
      rfl
    have taken : (s.step n userId (.taken user true)).view n = (s.view n).take user := by
      have waiting : (s.view n).outbox user = post.note n :: rest.map (Post.note n) := by
        change (s.room.seats user).outbox.map _ = _
        rw [queue]
        rfl
      rw [Replicas.take_of_cons waiting, stepped]
      unfold view
      dsimp only
      congr 1
      · funext x
        split <;> rfl
      · funext x
        by_cases here : x = user
        · rw [if_pos here, if_pos here]
        · rw [if_neg here, if_neg here, List.map_append, List.map_singleton]
      · funext x
        by_cases here : x = user
        · rw [if_pos here, here, Function.update_self]
        · rw [if_neg here, Function.update_of_ne here]
    constructor
    · intro x sent mem
      rw [stepped] at mem
      dsimp only at mem
      split at mem
      · exact sound.heard x sent mem
      · rcases List.mem_append.mp mem with old | new
        · exact sound.heard x sent old
        · rw [List.mem_singleton.mp new]
          exact plain
    · intro x sent mem
      rw [stepped] at mem
      dsimp only at mem
      split at mem
      · next here =>
        refine sound.taken user sent ?_
        rw [queue]
        exact List.mem_cons_of_mem post mem
      · exact sound.taken x sent mem
    · intro x k own
      rw [stepped] at own ⊢
      refine sound.mine x k ?_
      dsimp only at own
      split at own <;> exact own
    · exact sound.authored
    · rw [taken]
      exact sound.coherent.take user

theorem Sound.hears (sound : s.Sound n)
    (room : ∀ post ∈ (s.room.seats user).inbox.head?, HasRoom (s.room.seats user).board (post.sent userId) ∧
      (post.kind = .stroke → partialId (userId post.sender) ∉ ids (s.room.seats user).board.strokes)) :
    Sound n (s.step n userId (.hear user)) := by
  cases queue : (s.room.seats user).inbox with
  | nil =>
    have same : s.step n userId (.hear user) = s := by
      unfold Session.step Room.step Room.hear
      dsimp only
      rw [queue]
      rfl
    rw [same]
    exact sound
  | cons post rest =>
    rw [queue] at room
    have plain : Plain n post := by
      refine sound.heard user post ?_
      rw [queue]
      exact List.mem_cons_self
    have stepped : s.step n userId (.hear user) =
        { room := s.room.seated user (({ s.room.seats user with inbox := rest }).handleCanvasEvent n userId post)
          record := s.record } := by
      unfold Session.step Room.step Room.hear
      dsimp only
      rw [queue]
      rfl
    have seat : (({ s.room.seats user with inbox := rest }).handleCanvasEvent n userId post).inbox = rest ∧
        (({ s.room.seats user with inbox := rest }).handleCanvasEvent n userId post).outbox =
          (s.room.seats user).outbox ∧
        (({ s.room.seats user with inbox := rest }).handleCanvasEvent n userId post).board =
          Canvas.handled n (s.room.seats user).board (post.sent userId) ∧
        ∀ k, (({ s.room.seats user with inbox := rest }).handleCanvasEvent n userId post).mine k →
          (s.room.seats user).mine k := by
      unfold Seat.handleCanvasEvent
      dsimp only
      split
      · refine ⟨rfl, rfl, rfl, fun k own => ?_⟩
        cases k with
        | stroke id => exact absurd own (Finset.notMem_empty id)
        | image id => exact absurd own (Finset.notMem_empty id)
      · refine ⟨rfl, rfl, rfl, fun k own => ?_⟩
        cases k <;> exact own
    have heard : (s.step n userId (.hear user)).view n = (s.view n).hear user := by
      have waiting : (s.view n).inbox user = post.note n :: rest.map (Post.note n) := by
        change (s.room.seats user).inbox.map _ = _
        rw [queue]
        rfl
      rw [Replicas.hear_of_cons waiting, stepped, view_seated, seat.1, seat.2.1, seat.2.2.1,
        plain.handled (room post rfl).1 (room post rfl).2]
      have outbox : Function.update (s.view n).outbox user ((s.room.seats user).outbox.map (Post.note n)) =
          (s.view n).outbox := Function.update_eq_self user _
      rw [outbox]
      rfl
    constructor
    · rw [stepped]
      refine seats_seated (P := fun _ seat => ∀ post ∈ seat.inbox, Plain n post) ?_ fun x _ => sound.heard x
      rw [seat.1]
      intro sent mem
      refine sound.heard user sent ?_
      rw [queue]
      exact List.mem_cons_of_mem post mem
    · rw [stepped]
      refine seats_seated (P := fun _ seat => ∀ post ∈ seat.outbox, Plain n post) ?_ fun x _ => sound.taken x
      rw [seat.2.1]
      exact sound.taken user
    · rw [stepped]
      exact seats_seated (P := fun x seat => ∀ k, seat.mine k → k ∈ s.record.own x ∧ k ∉ s.record.gone)
        (fun k own => sound.mine user k (seat.2.2.2 k own)) fun x _ => sound.mine x
    · exact sound.authored
    · rw [heard]
      exact sound.coherent.hear user

end Travel

theorem Sound.step (sound : s.Sound n) {act : Act δ U} (fine : s.Fine userId act) : Sound n (s.step n userId act) := by
  cases act with
  | endStroke user stroke => exact sound.added (endStroke_grown fine.2.2) fine.1 fine.2.1
  | addImage user image => exact sound.added (addImage_grown fine.2.2) fine.1 fine.2.1
  | clearMyDrawings user =>
    by_cases left : s.record.own user ⊆ s.record.gone
    · rw [sound.idle left]
      exact sound
    · obtain ⟨strokes, alone, recorded⟩ := fine.resolve_left left
      exact sound.clearMyDrawings left strokes alone recorded
  | taken user stored =>
    obtain ⟨rfl, room⟩ := fine
    exact sound.takes room
  | hear user => exact sound.hears fine

theorem Sound.mineCleared (sound : s.Sound n) : s.MineCleared n := by
  have settled : ∀ {user}, s.Processed user → (s.view n).Settled user := by
    intro user processed
    refine ⟨?_, fun x note mem => ?_⟩
    · change (s.room.seats user).outbox.map _ = []
      rw [processed.taken]
      rfl
    · obtain ⟨post, waiting, rfl⟩ := List.mem_map.mp mem
      exact processed.heard x post waiting
  constructor
  · intro user processed k gone author
    obtain ⟨row, boards⟩ := sound.coherent.absent gone author (settled processed)
    exact ⟨row, boards⟩
  · intro user processed last k kept
    obtain ⟨row, boards⟩ := sound.coherent.present kept last (settled processed)
    exact ⟨row, boards⟩
  · intro processed k made left
    have silent : ∀ x, (s.room.seats x).inbox = [] := fun x => by
      refine List.eq_nil_iff_forall_not_mem.mpr fun post mem => ?_
      exact (processed post.sender).heard x post mem rfl
    have outbox : ∀ x, (s.view n).outbox x = [] := fun x => (settled (processed x)).taken
    have inbox : ∀ x, (s.view n).inbox x = [] := fun x => congrArg (List.map _) (silent x)
    have live : k ∈ (s.view n).live := ⟨made, left⟩
    refine ⟨sound.coherent.stored outbox live, fun x => ?_⟩
    exact sound.coherent.complete (inbox x) (fun y _ => outbox y) live

theorem sound_opened {row : Option (CanvasRow ν)} {board : CanvasState δ} (loaded : fetchCanvas n row = some board) :
    (opened row board : Session ν δ U).Sound n := by
  obtain ⟨strokes, drawn, loaded⟩ := Option.bind_eq_some_iff.mp loaded
  obtain ⟨images, placed, loaded⟩ := Option.bind_eq_some_iff.mp loaded
  cases Option.some.inj loaded
  have stored : { k | inRow n row k } = { k | onBoard { strokes := strokes, images := images } k } := by
    have texts : ∀ {held : List (Json ν)} {names : List String} {id : String},
        held.map (Json.idText n) = names.map some → ((∃ j ∈ held, j.idText n = some id) ↔ id ∈ names) := by
      intro held names id same
      rw [← List.mem_map, same]
      simp
    ext k
    cases k with
    | stroke id => exact texts (idText_mapM CanvasStroke.idText_fromJson drawn)
    | image id => exact texts (idText_mapM CanvasImage.idText_fromJson placed)
  have made : { k | k ∈ (opened row { strokes := strokes, images := images } : Session ν δ U).record.made } =
      { k | onBoard { strokes := strokes, images := images } k } := by
    ext k
    cases k with
    | stroke | image => simp [opened, onBoard]
  have view : (opened row { strokes := strokes, images := images } : Session ν δ U).view n =
      Replicas.opened { k | onBoard { strokes := strokes, images := images } k } := by
    unfold Session.view Replicas.opened
    rw [made]
    change Replicas.mk { k | inRow n row k } _ _ _ _ _ { k | k ∈ (∅ : Finset Item) } { k | k ∈ (∅ : Finset Item) } _ = _
    rw [stored]
    congr 1
    · ext k
      simp
    · ext k
      simp
  constructor
  · intro x post mem
    cases mem
  · intro x post mem
    cases mem
  · intro x k own
    cases k with
    | stroke id => exact absurd own (Finset.notMem_empty id)
    | image id => exact absurd own (Finset.notMem_empty id)
  · intro k x author
    cases author
  · rw [view]
    exact Replicas.coherent_opened _

/-- While every event meets the condition, clear-mine takes away what its participant made, and nothing else. -/
theorem mine_cleared {row : Option (CanvasRow ν)} {board : CanvasState δ} (loaded : fetchCanvas n row = some board)
    (events : List (Act δ U)) (fine : Along (step n userId) (Fine userId) (opened row board) events) :
    Along (step n userId) (fun s act => (s.step n userId act).MineCleared n) (opened row board) events := by
  have keep : ∀ (s : Session ν δ U) (act : Act δ U), s.Sound n → True → s.Fine userId act →
      (s.step n userId act).Sound n :=
    fun s act sound _ fine => sound.step fine
  exact (fine.reached keep (fun _ _ => trivial) (sound_opened loaded)).imp fun s act sound => sound.mineCleared

section Samples

inductive Guest
  | ann | bob
  deriving DecidableEq

theorem guests_all (guest : Guest) : guest ∈ ({.ann, .bob} : Finset Guest) := by
  cases guest <;> decide

instance : Fintype Guest := ⟨{.ann, .bob}, guests_all⟩

def Guest.name : Guest → String
  | .ann => "ann"
  | .bob => "bob"

def onlyPicture : List (Act Rat Guest) :=
  [.addImage .ann (picture "p"), .taken .ann true, .hear .bob, .clearMyDrawings .ann]

/-- Bob's stroke comes to the server just before Ann's clear, who did not know it. -/
def crossed : List (Act Rat Guest) :=
  [.endStroke .ann (line "a"), .endStroke .bob (line "b"), .taken .ann true, .hear .bob, .clearMyDrawings .ann,
    .taken .bob true, .taken .ann true, .hear .bob, .hear .ann]

theorem mine_not_cleared :
    (¬ Along (step fractions Guest.name) (fun s act => (s.step fractions Guest.name act).MineCleared fractions)
      (opened none {}) onlyPicture) ∧
    ¬ Along (step fractions Guest.name) (fun s act => (s.step fractions Guest.name act).MineCleared fractions)
      (opened none {}) crossed := by
  refine ⟨fun along => ?_, fun along => ?_⟩
  · have cleared := along.2.2.2.1
    have processed : Processed (onlyPicture.foldl (step fractions Guest.name) (opened none {})) .ann :=
      ⟨List.length_eq_zero_iff.mp (by decide +kernel), by decide +kernel⟩
    exact absurd ((cleared.removed .ann processed (.image "p") (by decide +kernel) (by decide +kernel)).boards .ann)
      (by decide +kernel)
  · have cleared := along.2.2.2.2.2.2.2.2.1
    have processed : Processed (crossed.foldl (step fractions Guest.name) (opened none {})) .ann :=
      ⟨List.length_eq_zero_iff.mp (by decide +kernel), by decide +kernel⟩
    exact absurd (cleared.kept .ann processed (by decide +kernel) (.stroke "b") (by decide +kernel)).row
        (by decide +kernel)

/-- A board with a stroke from before; Bob draws and places, Ann draws, clears what is hers and draws again. -/
def inPeace : List (Act Rat Guest) :=
  [.endStroke .ann (line "a"), .endStroke .bob (line "b"), .addImage .bob (picture "p"), .taken .ann true,
    .taken .bob true, .taken .bob true, .hear .bob, .hear .ann, .hear .ann, .clearMyDrawings .ann,
    .endStroke .ann (line "c"), .taken .ann true, .taken .ann true, .hear .bob, .hear .bob, .taken .ann true,
    .taken .ann true, .hear .bob, .hear .bob, .taken .ann true, .hear .bob]

theorem mine_cleared_inPeace :
    Along (step fractions Guest.name) (fun s act => (s.step fractions Guest.name act).MineCleared fractions)
      (opened (some { drawingData := [(line "old").toJson fractions] }) { strokes := [line "old"] }) inPeace :=
  mine_cleared (by decide +kernel) inPeace (by decide +kernel)

end Samples
end Session
end Echo.Canvas
