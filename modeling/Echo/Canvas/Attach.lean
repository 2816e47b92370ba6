import Echo.Canvas.ReadOnly
import Echo.Canvas.Replay

/-! A client that attaches to canvases: `attach`, `retryAttach`, `detach`, the answers to its requests for snapshots in
any order, and the events of all channels as the server takes and relays them. -/
namespace Echo.Canvas
open Echo.Lib (Along)

variable {ν δ : Type}

/-- A request for the snapshot of a channel: the attach it belongs to, and how many events of the channel the server
had taken by then. -/
structure SnapshotRequest where
  channelId : String
  attempt : Nat
  asked : Nat

structure Lobby (ν δ : Type) where
  client : CanvasController ν δ
  /-- What the server took on each channel, and how much of it the client has heard. -/
  accepted : String → List (Sent ν) := fun _ => []
  heard : String → Nat := fun _ => 0
  requests : List SnapshotRequest := []
  attempts : Nat := 0
  /-- How many events of its channel the last snapshot that was used stands for. -/
  covered : Nat := 0

namespace Lobby
variable (n : Numbers ν δ) (m : Measures δ)

inductive Event (ν : Type)
  | attach (conversationId channelId : String)
  | retryAttach
  | detach
  -- another participant's event comes to the server; the client hears of the next one
  | accept (channelId : String) (sent : Sent ν)
  | hear (channelId : String)
  /-- The wait of the request ends; a body stands for the first `count` events. -/
  | answer (i count : Nat) (response : Response ν)

def request (s : Lobby ν δ) (client : CanvasController ν δ) (channelId : String) : Lobby ν δ :=
  { s with
    client := client
    requests := s.requests ++ [⟨channelId, s.attempts + 1, (s.accepted channelId).length⟩]
    attempts := s.attempts + 1 }

def step (s : Lobby ν δ) : Event ν → Lobby ν δ
  | .attach conversationId channelId =>
    if s.client.channelId = some channelId then s
    else s.request (s.client.attach m conversationId channelId) channelId
  | .retryAttach =>
    match s.client.last with
    | none => s
    | some (_, channelId) => s.request (s.client.retryAttach m) channelId
  | .detach => { s with client := s.client.detach m }
  -- `persist_canvas_state` refuses what finds the board full
  | .accept channelId sent =>
    if HasRoom (boardOf n (s.accepted channelId)) sent then
      { s with accepted := Function.update s.accepted channelId (s.accepted channelId ++ [sent]) }
    else s
  | .hear channelId =>
    match (s.accepted channelId)[s.heard channelId]? with
    | none => s
    | some sent =>
      { s with
        client := s.client.handleCanvasEvent n ⟨channelId, sent⟩
        heard := Function.update s.heard channelId (s.heard channelId + 1) }
  | .answer i count response =>
    match s.requests[i]? with
    | none => s
    | some request =>
      { s with
        client := s.client.attached n request.channelId response
        requests := s.requests.eraseIdx i
        covered := if s.client.attachingChannelId = some request.channelId then count else s.covered }

def run (s : Lobby ν δ) (events : List (Event ν)) : Lobby ν δ := events.foldl (step n m) s

/-- A body is the board after some first events, all among them that the server had taken before the request. -/
def Honest (s : Lobby ν δ) : Event ν → Prop
  | .answer i count (.ok row) => ∀ request ∈ s.requests[i]?,
      request.asked ≤ count ∧ count ≤ (s.accepted request.channelId).length ∧
        fetchCanvas n row = some (boardOf n ((s.accepted request.channelId).take count))
  | _ => True

/-- What ends the wait for a channel that is being attached is a body, asked for by the last attach. The board has
room for the events that waited, and for those it holds already by the snapshot. -/
def Fine (s : Lobby ν δ) : Event ν → Prop
  | .answer i _ (.ok row) => ∀ request ∈ s.requests[i]?, s.client.attachingChannelId = some request.channelId →
      request.attempt = s.attempts ∧
        ∀ board ∈ fetchCanvas n row, Roomy n board (s.client.pendingEvents.map Inbound.sent)
  | .answer i _ _ => ∀ request ∈ s.requests[i]?, s.client.attachingChannelId ≠ some request.channelId
  | .hear channelId => s.client.channelId = some channelId → s.heard channelId < s.covered →
      ∀ sent ∈ (s.accepted channelId)[s.heard channelId]?, HasRoom s.client.board sent
  | _ => True

instance [DecidableEq δ] (s : Lobby ν δ) : (event : Event ν) → Decidable (s.Honest n event)
  | .answer i count (.ok row) => inferInstanceAs (Decidable (∀ request ∈ s.requests[i]?,
      request.asked ≤ count ∧ count ≤ (s.accepted request.channelId).length ∧
        fetchCanvas n row = some (boardOf n ((s.accepted request.channelId).take count))))
  | .answer _ _ .refused | .answer _ _ .failed | .answer _ _ .signedOut | .attach .. | .retryAttach | .detach
  | .accept .. | .hear _ => isTrue trivial

instance (board : CanvasState δ) (events : List (Sent ν)) : Decidable (Roomy n board events) :=
  Along.decidable board events

instance (s : Lobby ν δ) : (event : Event ν) → Decidable (s.Fine n event)
  | .answer i _ (.ok row) => inferInstanceAs (Decidable (∀ request ∈ s.requests[i]?,
      s.client.attachingChannelId = some request.channelId → request.attempt = s.attempts ∧
        ∀ board ∈ fetchCanvas n row, Roomy n board (s.client.pendingEvents.map Inbound.sent)))
  | .answer i _ .refused | .answer i _ .failed | .answer i _ .signedOut =>
    inferInstanceAs (Decidable (∀ request ∈ s.requests[i]?, s.client.attachingChannelId ≠ some request.channelId))
  | .hear channelId => inferInstanceAs (Decidable (s.client.channelId = some channelId →
      s.heard channelId < s.covered → ∀ sent ∈ (s.accepted channelId)[s.heard channelId]?, HasRoom s.client.board sent))
  | .attach .. | .retryAttach | .detach | .accept .. => isTrue trivial

end Lobby

namespace CanvasController
variable {n : Numbers ν δ} {m : Measures δ} {s : CanvasController ν δ} {channelId : String} {response : Response ν}

structure Begun (channelId : String) (s : CanvasController ν δ) : Prop where
  attaching : s.attachingChannelId = some channelId
  detached : s.channelId = none
  unheard : s.pendingEvents = []
  empty : s.board = {}

theorem attach_begun {conversationId : String} (different : s.channelId ≠ some channelId) :
    (s.attach m conversationId channelId).Begun channelId := by
  unfold attach
  rw [if_neg different]
  exact ⟨rfl, rfl, rfl, rfl⟩

theorem retryAttach_begun {conversationId : String} (last : s.last = some (conversationId, channelId)) :
    (s.retryAttach m).Begun channelId := by
  unfold retryAttach
  rw [last]
  exact attach_begun fun same => by cases same

theorem fetched_keeps (s : CanvasController ν δ) (channelId : String) (response : Response ν) :
    (s.fetched n channelId response).attachingChannelId = s.attachingChannelId ∧
    (s.fetched n channelId response).pendingEvents = s.pendingEvents := by
  unfold fetched
  split
  · cases response with
    | ok row =>
      dsimp only
      split <;> exact ⟨rfl, rfl⟩
    | refused | failed | signedOut => exact ⟨rfl, rfl⟩
  · exact ⟨rfl, rfl⟩

theorem attached_late (late : s.attachingChannelId ≠ some channelId) : s.attached n channelId response = s := by
  have same : s.fetched n channelId response = s := if_neg late
  unfold attached
  dsimp only
  rw [same, if_neg late]

theorem apply_keeps (s : CanvasController ν δ) (sent : Sent ν) : (s.apply n sent).channelId = s.channelId ∧
    (s.apply n sent).attachingChannelId = s.attachingChannelId ∧ (s.apply n sent).board = handled n s.board sent := by
  unfold apply
  dsimp only
  split
  · split <;> exact ⟨rfl, rfl, rfl⟩
  · exact ⟨rfl, rfl, rfl⟩

theorem handleCanvasEvents {events : List (Inbound ν)} (live : s.channelId = some channelId)
    (own : ∀ event ∈ events, event.channelId = channelId) :
    (events.foldl (handleCanvasEvent n) s).channelId = some channelId ∧
      (events.foldl (handleCanvasEvent n) s).attachingChannelId = s.attachingChannelId ∧
      (events.foldl (handleCanvasEvent n) s).board = (events.map Inbound.sent).foldl (handled n) s.board := by
  induction events generalizing s with
  | nil => exact ⟨live, rfl, rfl⟩
  | cons event events ih =>
    have taken : s.handleCanvasEvent n event = s.apply n event.sent := by
      unfold handleCanvasEvent
      rw [live]
      exact if_pos (own event List.mem_cons_self)
    obtain ⟨channel, attaching, board⟩ := apply_keeps (n := n) s event.sent
    rw [List.foldl_cons, taken, List.map_cons, List.foldl_cons, ← attaching, ← board]
    exact ih (channel.trans live) fun later inside => own later (List.mem_cons_of_mem _ inside)

theorem attached_live (response : Response ν) (waits : s.attachingChannelId = some channelId)
    (own : ∀ event ∈ s.pendingEvents, event.channelId = channelId) :
    (s.attached n channelId response).channelId = some channelId ∧
      (s.attached n channelId response).attachingChannelId = none ∧
      (s.attached n channelId response).board =
        (s.pendingEvents.map Inbound.sent).foldl (handled n) (s.fetched n channelId response).board := by
  obtain ⟨attaching, pending⟩ := fetched_keeps (n := n) s channelId response
  unfold attached
  dsimp only
  rw [if_pos (attaching.trans waits), pending]
  exact handleCanvasEvents rfl own

end CanvasController

namespace Lobby
variable {n : Numbers ν δ} {m : Measures δ} {s : Lobby ν δ} {channelId : String}

section Own

/-- What waits for a channel and what its board shows are the channel's own. -/
structure Own (n : Numbers ν δ) (s : Lobby ν δ) : Prop where
  waiting : ∀ channelId, s.client.attachingChannelId = some channelId →
    s.client.channelId = none ∧ s.client.board = {} ∧
      ∀ event ∈ s.client.pendingEvents, event.channelId = channelId ∧ event.sent ∈ s.accepted channelId
  live : ∀ channelId, s.client.channelId = some channelId →
    ∃ taken, taken ⊆ s.accepted channelId ∧ s.client.board = boardOf n taken

theorem Own.request {client : CanvasController ν δ} (begun : client.Begun channelId) :
    (s.request client channelId).Own n where
  waiting other attaching := by
    refine ⟨begun.detached, begun.empty, fun event inside => ?_⟩
    have none : event ∈ client.pendingEvents := inside
    rw [begun.unheard] at none
    cases none
  live other live := by
    have none : client.channelId = some other := live
    rw [begun.detached] at none
    cases none

theorem Own.accept (own : s.Own n) {other : String} {sent : Sent ν} :
    ({ s with accepted := Function.update s.accepted other (s.accepted other ++ [sent]) } : Lobby ν δ).Own n := by
  have grows : ∀ channelId, s.accepted channelId ⊆
      Function.update s.accepted other (s.accepted other ++ [sent]) channelId := by
    intro channelId
    by_cases same : channelId = other
    · rw [same, Function.update_self]
      exact List.subset_append_left ..
    · rw [Function.update_of_ne same]
      exact List.Subset.refl _
  constructor
  · intro channelId attaching
    obtain ⟨detached, empty, pending⟩ := own.waiting channelId attaching
    exact ⟨detached, empty, fun event inside => ⟨(pending event inside).1, grows _ (pending event inside).2⟩⟩
  · intro channelId live
    obtain ⟨taken, within, board⟩ := own.live channelId live
    exact ⟨taken, List.Subset.trans within (grows channelId), board⟩

theorem Own.hear (own : s.Own n) {other : String} {sent : Sent ν} (heard : String → Nat)
    (inside : sent ∈ s.accepted other) :
    ({ s with client := s.client.handleCanvasEvent n ⟨other, sent⟩, heard := heard } : Lobby ν δ).Own n := by
  unfold CanvasController.handleCanvasEvent
  split
  · next detached =>
    split
    · next mine =>
      refine ⟨fun channelId attaching => ?_, fun channelId live => own.live channelId live⟩
      obtain ⟨detached, empty, pending⟩ := own.waiting channelId attaching
      refine ⟨detached, empty, fun event waits => ?_⟩
      rcases List.mem_append.mp waits with old | new
      · exact pending event old
      · have attaching' : s.client.attachingChannelId = some channelId := attaching
        rw [List.mem_singleton.mp new]
        rw [attaching'] at mine
        have same := Option.some.inj (mine.resolve_left fun none => by cases none)
        exact ⟨same.symm, same ▸ inside⟩
    · exact ⟨own.waiting, own.live⟩
  · next channelId live =>
    dsimp only
    split
    · next same =>
      obtain ⟨channel, attaching, board⟩ := CanvasController.apply_keeps (n := n) s.client sent
      constructor
      · intro other' waits
        have detached := (own.waiting other' (attaching.symm.trans waits)).1
        rw [live] at detached
        cases detached
      · intro channelId' live'
        have here : channelId' = channelId := Option.some.inj ((live'.symm.trans channel).trans live)
        obtain ⟨taken, within, shown⟩ := own.live channelId live
        refine ⟨taken ++ [sent], fun event held => ?_, ?_⟩
        · rcases List.mem_append.mp held with old | new
          · exact here ▸ within old
          · rw [List.mem_singleton.mp new, here, ← same]
            exact inside
        · refine board.trans ?_
          rw [shown]
          unfold boardOf
          rw [List.foldl_append]
          rfl
    · exact ⟨own.waiting, own.live⟩

theorem Own.fetched (own : s.Own n) {i count : Nat} {response : Response ν} {request : SnapshotRequest}
    (found : s.requests[i]? = some request) (waits : s.client.attachingChannelId = some request.channelId)
    (honest : s.Honest n (.answer i count response)) :
    ∃ taken, taken ⊆ s.accepted request.channelId ∧
      (s.client.fetched n request.channelId response).board = boardOf n taken := by
  obtain ⟨-, empty, -⟩ := own.waiting _ waits
  cases response with
  | ok row =>
    obtain ⟨-, -, read⟩ := honest request found
    refine ⟨(s.accepted request.channelId).take count, List.take_subset .., ?_⟩
    unfold CanvasController.fetched
    rw [if_pos waits]
    dsimp only
    rw [read]
  | refused | failed | signedOut =>
    refine ⟨[], List.nil_subset _, ?_⟩
    unfold CanvasController.fetched
    rw [if_pos waits]
    exact empty

theorem Own.answer (own : s.Own n) {i count : Nat} {response : Response ν}
    (honest : s.Honest n (.answer i count response)) :
    (s.step n m (.answer i count response)).Own n := by
  unfold step
  dsimp only
  cases found : s.requests[i]? with
  | none => exact own
  | some request =>
    by_cases waits : s.client.attachingChannelId = some request.channelId
    · obtain ⟨-, -, pending⟩ := own.waiting _ waits
      obtain ⟨channel, attaching, board⟩ := CanvasController.attached_live (n := n) response waits
        fun event inside => (pending event inside).1
      obtain ⟨taken, within, read⟩ := own.fetched found waits honest
      constructor
      · intro other waits'
        cases attaching.symm.trans waits'
      · intro other live
        have same : request.channelId = other := Option.some.inj (channel.symm.trans live)
        subst same
        refine ⟨taken ++ s.client.pendingEvents.map Inbound.sent, fun sent held => ?_, ?_⟩
        · rcases List.mem_append.mp held with old | new
          · exact within old
          · obtain ⟨event, waited, rfl⟩ := List.mem_map.mp new
            exact (pending event waited).2
        · refine board.trans ?_
          rw [read]
          exact List.foldl_append.symm
    · dsimp only
      rw [CanvasController.attached_late waits]
      exact ⟨own.waiting, own.live⟩

theorem Own.step (own : s.Own n) {event : Event ν} (honest : s.Honest n event) : (s.step n m event).Own n := by
  cases event with
  | attach conversationId channelId =>
    unfold Lobby.step
    dsimp only
    split
    · exact own
    · next different => exact Own.request (CanvasController.attach_begun different)
  | retryAttach =>
    unfold Lobby.step
    dsimp only
    split
    · exact own
    · next last => exact Own.request (CanvasController.retryAttach_begun last)
  | detach =>
    constructor
    · intro channelId waits
      have none : (none : Option String) = some channelId := waits
      cases none
    · intro channelId live
      have none : (none : Option String) = some channelId := live
      cases none
  | accept channelId sent =>
    unfold Lobby.step
    dsimp only
    split
    · exact own.accept
    · exact own
  | hear channelId =>
    unfold Lobby.step
    dsimp only
    split
    · exact own
    · next sent next => exact own.hear _ (List.mem_of_getElem? next)
  | answer i count response => exact own.answer honest

end Own
section Sound

/-- Of a channel that is attached, the events heard from some `since` on have been applied to the board of the first
`covered` ones, and none is missing between the two. -/
structure Sound (n : Numbers ν δ) (s : Lobby ν δ) : Prop where
  own : s.Own n
  roomy : ∀ channelId, Roomy n {} (s.accepted channelId)
  heard : ∀ channelId, s.heard channelId ≤ (s.accepted channelId).length
  numbered : ∀ request ∈ s.requests, request.attempt ≤ s.attempts
  waiting : ∀ channelId, s.client.attachingChannelId = some channelId →
    ∃ since, since ≤ s.heard channelId ∧
      s.client.pendingEvents.map Inbound.sent = ((s.accepted channelId).take (s.heard channelId)).drop since ∧
      ∀ request ∈ s.requests, request.attempt = s.attempts → since ≤ request.asked
  live : ∀ channelId, s.client.channelId = some channelId →
    s.covered ≤ (s.accepted channelId).length ∧ ∃ since, since ≤ s.heard channelId ∧ since ≤ s.covered ∧
      s.client.board = (((s.accepted channelId).take (s.heard channelId)).drop since).foldl (edited n)
        (boardOf n ((s.accepted channelId).take s.covered))

theorem Sound.settled (sound : s.Sound n) (live : s.client.channelId = some channelId)
    (settled : s.covered ≤ s.heard channelId) :
    s.client.board = boardOf n ((s.accepted channelId).take (s.heard channelId)) := by
  obtain ⟨-, since, -, early, board⟩ := sound.live channelId live
  have prior : (s.accepted channelId).take s.covered =
      ((s.accepted channelId).take (s.heard channelId)).take s.covered := by
    rw [List.take_take, Nat.min_eq_left settled]
  rw [board, prior]
  exact ((sound.roomy channelId).take _).replay early

theorem Sound.request (sound : s.Sound n) {client : CanvasController ν δ} (begun : client.Begun channelId) :
    (s.request client channelId).Sound n where
  own := Own.request begun
  roomy := sound.roomy
  heard := sound.heard
  numbered request inside := by
    rcases List.mem_append.mp inside with old | new
    · exact Nat.le_succ_of_le (sound.numbered request old)
    · rw [List.mem_singleton.mp new]
      exact Nat.le_refl _
  waiting other attaching := by
    have same : other = channelId := Option.some.inj (attaching.symm.trans begun.attaching)
    subst same
    refine ⟨s.heard other, Nat.le_refl _, ?_, fun request inside last => ?_⟩
    · have none : client.pendingEvents = [] := begun.unheard
      change client.pendingEvents.map Inbound.sent = _
      rw [none]
      exact (List.drop_eq_nil_of_le (List.length_take_le ..)).symm
    · rcases List.mem_append.mp inside with old | new
      · have before := sound.numbered request old
        have now : request.attempt = s.attempts + 1 := last
        omega
      · rw [List.mem_singleton.mp new]
        exact sound.heard other
  live other live := by
    have none : client.channelId = some other := live
    rw [begun.detached] at none
    cases none

theorem take_append_of_le {events more : List (Sent ν)} {count : Nat} (within : count ≤ events.length) :
    (events ++ more).take count = events.take count := List.take_append_of_le_length within

theorem Sound.accept (sound : s.Sound n) {other : String} {sent : Sent ν}
    (room : HasRoom (boardOf n (s.accepted other)) sent) :
    ({ s with accepted := Function.update s.accepted other (s.accepted other ++ [sent]) } : Lobby ν δ).Sound n := by
  have longer : ∀ channelId count, count ≤ (s.accepted channelId).length →
      (Function.update s.accepted other (s.accepted other ++ [sent]) channelId).take count =
          (s.accepted channelId).take count ∧
        count ≤ (Function.update s.accepted other (s.accepted other ++ [sent]) channelId).length := by
    intro channelId count within
    by_cases same : channelId = other
    · subst same
      rw [Function.update_self, List.length_append]
      exact ⟨take_append_of_le within, Nat.le_add_right_of_le within⟩
    · rw [Function.update_of_ne same]
      exact ⟨rfl, within⟩
  refine ⟨sound.own.accept, fun channelId => ?_, fun channelId => (longer _ _ (sound.heard channelId)).2,
    sound.numbered, fun channelId attaching => ?_, fun channelId live => ?_⟩
  · by_cases same : channelId = other
    · subst same
      dsimp only
      rw [Function.update_self]
      exact Along.append.mpr ⟨sound.roomy channelId, room, trivial⟩
    · dsimp only
      rw [Function.update_of_ne same]
      exact sound.roomy channelId
  · obtain ⟨since, early, pending, asked⟩ := sound.waiting channelId attaching
    refine ⟨since, early, ?_, asked⟩
    dsimp only
    rw [(longer _ _ (sound.heard channelId)).1]
    exact pending
  · obtain ⟨within, since, early, before, board⟩ := sound.live channelId live
    refine ⟨(longer _ _ within).2, since, early, before, ?_⟩
    dsimp only
    rw [(longer _ _ (sound.heard channelId)).1, (longer _ _ within).1]
    exact board

theorem drop_next {events : List (Sent ν)} {since count : Nat} {sent : Sent ν} (next : events[count]? = some sent)
    (early : since ≤ count) : (events.take (count + 1)).drop since = (events.take count).drop since ++ [sent] := by
  have within : count < events.length := (List.getElem?_eq_some_iff.mp next).1
  have length : (events.take count).length = count := by
    rw [List.length_take]
    omega
  rw [List.take_add_one, next, Option.toList_some, List.drop_append_of_le_length]
  rw [length]
  exact early

theorem Sound.room (sound : s.Sound n) {sent : Sent ν} (next : (s.accepted channelId)[s.heard channelId]? = some sent)
    (fine : s.Fine n (.hear channelId)) (live : s.client.channelId = some channelId) : HasRoom s.client.board sent := by
  rcases Nat.lt_or_ge (s.heard channelId) s.covered with behind | settled
  · exact fine live behind sent next
  · have roomy := sound.roomy channelId
    rw [← List.take_append_drop (s.heard channelId) (s.accepted channelId), Roomy, Along.append] at roomy
    have rest : (s.accepted channelId).drop (s.heard channelId) =
        sent :: (s.accepted channelId).drop (s.heard channelId + 1) := by
      obtain ⟨within, same⟩ := List.getElem?_eq_some_iff.mp next
      rw [List.drop_eq_getElem_cons within, same]
    rw [sound.settled live settled]
    have along := roomy.2
    rw [rest] at along
    exact along.1

theorem Sound.hear (sound : s.Sound n) {sent : Sent ν} (next : (s.accepted channelId)[s.heard channelId]? = some sent)
    (fine : s.Fine n (.hear channelId)) :
    ({ s with
      client := s.client.handleCanvasEvent n ⟨channelId, sent⟩
      heard := Function.update s.heard channelId (s.heard channelId + 1) } : Lobby ν δ).Sound n := by
  have own := sound.own.hear (Function.update s.heard channelId (s.heard channelId + 1))
    (List.mem_of_getElem? next)
  have heard : ∀ other,
      Function.update s.heard channelId (s.heard channelId + 1) other ≤ (s.accepted other).length := by
    intro other
    by_cases same : other = channelId
    · subst same
      rw [Function.update_self]
      exact (List.getElem?_eq_some_iff.mp next).1
    · rw [Function.update_of_ne same]
      exact sound.heard other
  refine ⟨own, sound.roomy, heard, sound.numbered, fun other attaching => ?_, fun other live => ?_⟩
  · have detached := (own.waiting other attaching).1
    unfold CanvasController.handleCanvasEvent at attaching detached ⊢
    dsimp only at attaching detached ⊢
    cases channel : s.client.channelId with
    | some held =>
      rw [channel] at attaching detached
      dsimp only at attaching detached
      split at attaching
      · next here =>
        rw [if_pos here, (CanvasController.apply_keeps _ _).1, channel] at detached
        cases detached
      · next elsewhere =>
        rw [if_neg elsewhere, channel] at detached
        cases detached
    | none =>
      rw [channel] at attaching
      dsimp only at attaching ⊢
      have waits : s.client.attachingChannelId = some other := by
        split at attaching <;> exact attaching
      obtain ⟨since, early, pending, asked⟩ := sound.waiting other waits
      by_cases same : channelId = other
      · subst same
        rw [if_pos (.inr waits), Function.update_self]
        refine ⟨since, Nat.le_succ_of_le early, ?_, asked⟩
        rw [List.map_append, pending, drop_next next early]
        rfl
      · have absent : ¬ (s.client.attachingChannelId = none ∨ s.client.attachingChannelId = some channelId) := by
          rw [waits]
          simp [Ne.symm same]
        rw [if_neg absent, Function.update_of_ne (Ne.symm same)]
        exact ⟨since, early, pending, asked⟩
  · unfold CanvasController.handleCanvasEvent at live ⊢
    dsimp only at live ⊢
    cases channel : s.client.channelId with
    | none =>
      rw [channel] at live
      dsimp only at live
      split at live
      · cases live
      · rw [channel] at live
        cases live
    | some held =>
      rw [channel] at live
      dsimp only at live ⊢
      have before : s.client.channelId = some other := by
        split at live
        · exact (CanvasController.apply_keeps _ _).1.symm.trans live
        · exact live
      have named : held = other := Option.some.inj (channel.symm.trans before)
      subst named
      obtain ⟨within, since, early, first, board⟩ := sound.live held before
      refine ⟨within, since, ?_⟩
      by_cases same : channelId = held
      · subst same
        rw [if_pos rfl, Function.update_self, (CanvasController.apply_keeps _ _).2.2, drop_next next early, List.foldl_append,
          ← board]
        exact ⟨Nat.le_succ_of_le early, first, handled_edited (sound.room next fine before)⟩
      · rw [if_neg same, Function.update_of_ne (Ne.symm same)]
        exact ⟨early, first, board⟩

theorem Sound.answer (sound : s.Sound n) {i count : Nat} {response : Response ν}
    (honest : s.Honest n (.answer i count response)) (fine : s.Fine n (.answer i count response)) :
    (s.step n m (.answer i count response)).Sound n := by
  have own := sound.own.answer (m := m) honest
  unfold step at own ⊢
  dsimp only at own ⊢
  cases found : s.requests[i]? with
  | none => exact sound
  | some request =>
    rw [found] at own
    dsimp only at own ⊢
    have fewer : s.requests.eraseIdx i ⊆ s.requests := fun _ inside => List.mem_of_mem_eraseIdx inside
    by_cases waits : s.client.attachingChannelId = some request.channelId
    · cases response with
      | refused | failed | signedOut => exact absurd waits (fine request found)
      | ok row =>
        obtain ⟨asked, within, read⟩ := honest request found
        obtain ⟨last, roomy⟩ := fine request found waits
        obtain ⟨since, early, pending, covers⟩ := sound.waiting _ waits
        obtain ⟨channel, attaching, board⟩ := CanvasController.attached_live (n := n) (.ok row) waits
          fun event inside => ((sound.own.waiting _ waits).2.2 event inside).1
        have fetched : (s.client.fetched n request.channelId (.ok row)).board =
            boardOf n ((s.accepted request.channelId).take count) := by
          unfold CanvasController.fetched
          rw [if_pos waits]
          dsimp only
          rw [read]
        refine ⟨own, sound.roomy, sound.heard, fun other inside => sound.numbered other (fewer inside),
          fun other waits' => ?_, fun other live => ?_⟩
        · cases attaching.symm.trans waits'
        · have same : request.channelId = other := Option.some.inj (channel.symm.trans live)
          subst same
          rw [if_pos waits]
          refine ⟨within, since, early, ?_, ?_⟩
          · exact Nat.le_trans (covers request (List.mem_of_getElem? found) last) asked
          · rw [board, fetched, (roomy _ read).foldl_edited, pending]
    · rw [CanvasController.attached_late waits] at own ⊢
      rw [if_neg waits]
      refine ⟨⟨own.waiting, own.live⟩, sound.roomy, sound.heard,
        fun other inside => sound.numbered other (fewer inside), fun other waits' => ?_, sound.live⟩
      obtain ⟨since, early, pending, asked⟩ := sound.waiting other waits'
      exact ⟨since, early, pending, fun held inside => asked held (fewer inside)⟩

theorem Sound.step (sound : s.Sound n) {event : Event ν} (honest : s.Honest n event) (fine : s.Fine n event) :
    (s.step n m event).Sound n := by
  cases event with
  | attach conversationId channelId =>
    unfold Lobby.step
    dsimp only
    split
    · exact sound
    · next different => exact sound.request (CanvasController.attach_begun different)
  | retryAttach =>
    unfold Lobby.step
    dsimp only
    split
    · exact sound
    · next last => exact sound.request (CanvasController.retryAttach_begun last)
  | detach =>
    refine ⟨sound.own.step trivial, sound.roomy, sound.heard, sound.numbered, fun channelId waits => ?_,
      fun channelId live => ?_⟩
    · have none : (none : Option String) = some channelId := waits
      cases none
    · have none : (none : Option String) = some channelId := live
      cases none
  | accept channelId sent =>
    unfold Lobby.step
    dsimp only
    split
    · next room => exact sound.accept room
    · exact sound
  | hear channelId =>
    unfold Lobby.step
    dsimp only
    split
    · exact sound
    · next sent next => exact sound.hear next fine
  | answer i count response => exact sound.answer honest fine

end Sound
/-- An idle client on a device, and channels on which nothing was drawn. -/
def start (m : Measures δ) (deviceId : Int) : Lobby ν δ where
  client := { tools := .initial m, deviceId := deviceId }

theorem start_sound {deviceId : Int} : (start m deviceId : Lobby ν δ).Sound n where
  own := ⟨fun _ waits => (by cases waits), fun _ live => (by cases live)⟩
  roomy := fun _ => trivial
  heard := fun _ => Nat.le_refl _
  numbered := fun _ inside => by cases inside
  waiting := fun _ waits => by cases waits
  live := fun _ live => by cases live

/-- An attached client shows events of its channel only. Where no answer to an older attach, and no failure, ends the
wait of the last one, it shows all of them that it has heard of, once it has heard of those in the snapshot. -/
theorem canvas_complete {deviceId : Int} {events : List (Event ν)}
    (honest : Along (step n m) (Honest n) (start m deviceId) events) {channelId : String}
    (live : (run n m (start m deviceId) events).client.channelId = some channelId) :
    (∃ taken, taken ⊆ (run n m (start m deviceId) events).accepted channelId ∧
        (run n m (start m deviceId) events).client.board = boardOf n taken) ∧
      (Along (step n m) (Fine n) (start m deviceId) events →
        (run n m (start m deviceId) events).covered ≤ (run n m (start m deviceId) events).heard channelId →
        (run n m (start m deviceId) events).client.board = boardOf n
          (((run n m (start m deviceId) events).accepted channelId).take
            ((run n m (start m deviceId) events).heard channelId))) := by
  constructor
  · have own := honest.keeps (I := Own n) (fun _ _ own honest => own.step honest) start_sound.own
    exact own.live channelId live
  · intro fine settled
    have sound := (honest.and fine).keeps (I := Sound n) (fun _ _ sound both => sound.step both.1 both.2) start_sound
    exact sound.settled live settled

section Samples
open CanvasController (fractionMeasures)

def bobs (id : String) : Sent Rat := ⟨"bob", .stroke, (line id).toJson fractions⟩

def body (ids : List String) : Response Rat :=
  .ok (some { drawingData := ids.map fun id => (line id).toJson fractions })

/-- The client goes on to another lounge while the first answer is on its way, and tries again there; a stroke that is
in the snapshot comes after it once more. -/
def wandering : List (Event Rat) :=
  [.attach "group" "a", .accept "a" (bobs "1"), .hear "a", .attach "group" "b", .accept "b" (bobs "2"),
    .answer 0 1 (body ["1"]), .hear "b", .accept "b" (bobs "3"), .answer 0 2 (body ["2", "3"]), .hear "b", .retryAttach, .accept "b" (bobs "4"),
    .hear "b", .answer 0 2 (body ["2", "3"])]

theorem canvas_complete_wandering :
    (∃ taken, taken ⊆ (run fractions fractionMeasures (start fractionMeasures 1) wandering).accepted "b" ∧
        (run fractions fractionMeasures (start fractionMeasures 1) wandering).client.board = boardOf fractions taken) ∧
      (Along (step fractions fractionMeasures) (Fine fractions) (start fractionMeasures 1) wandering →
        (run fractions fractionMeasures (start fractionMeasures 1) wandering).covered ≤
          (run fractions fractionMeasures (start fractionMeasures 1) wandering).heard "b" →
        (run fractions fractionMeasures (start fractionMeasures 1) wandering).client.board = boardOf fractions
          (((run fractions fractionMeasures (start fractionMeasures 1) wandering).accepted "b").take
            ((run fractions fractionMeasures (start fractionMeasures 1) wandering).heard "b"))) :=
  canvas_complete (by decide +kernel) (by decide +kernel)

example : Along (step fractions fractionMeasures) (Fine fractions) (start fractionMeasures 1) wandering := by
  decide +kernel

/-- The client leaves and comes back while the first answer is on its way; a stroke is drawn in between. -/
def returning : List (Event Rat) :=
  [.attach "group" "a", .accept "a" (bobs "1"), .hear "a", .detach, .attach "group" "a", .answer 0 0 (.ok none),
    .answer 0 1 (body ["1"])]

theorem canvas_incomplete :
    ¬ ∀ (events : List (Event Rat)) (channelId : String),
      Along (step fractions fractionMeasures) (Honest fractions) (start fractionMeasures 1) events →
      (run fractions fractionMeasures (start fractionMeasures 1) events).client.channelId = some channelId →
      (run fractions fractionMeasures (start fractionMeasures 1) events).requests.length = 0 →
      (run fractions fractionMeasures (start fractionMeasures 1) events).covered ≤
        (run fractions fractionMeasures (start fractionMeasures 1) events).heard channelId →
      (run fractions fractionMeasures (start fractionMeasures 1) events).client.board = boardOf fractions
        (((run fractions fractionMeasures (start fractionMeasures 1) events).accepted channelId).take
          ((run fractions fractionMeasures (start fractionMeasures 1) events).heard channelId)) := fun claim =>
  absurd (claim returning "a" (by decide +kernel) (by decide +kernel) (by decide +kernel) (by decide +kernel))
    (by decide +kernel)

end Samples
end Lobby
end Echo.Canvas
