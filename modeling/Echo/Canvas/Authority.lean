import Echo.Canvas.ReadOnly
import Echo.Groups.Machine

/-! Who may write on a canvas. The server keeps the writing device of every user in a channel
(`canvas_authority.rs`, `gate_authority`); a client keeps one device for the channel, that of the last
announcement, whoever it is about. -/
namespace Echo.Canvas
open Echo.Lib (Along)
open Echo.Server (Uuid)

/-- `canvas_authority_changed` -/
structure AuthorityChanged where
  channelId : Uuid
  userId : Uuid
  deviceId : Int
  deriving DecidableEq

def gateAuthority (s : Groups.State) (userId channelId : Uuid) (deviceId : Int) : Bool × Groups.State :=
  match s.canvasAuthority (userId, channelId) with
  | some holder => (holder.deviceId = deviceId, s)
  | none => s.claimIfAbsent (userId, channelId) deviceId

section Notifier
variable {ν δ : Type}

/-- `CanvasAuthorityNotifier.setAuthority` -/
def CanvasController.setAuthority (s : CanvasController ν δ) (channelId : String) (deviceId : Int) :
    CanvasController ν δ :=
  { s with authority := Function.update s.authority channelId (some deviceId) }

/-- `_handleCanvasAuthorityChanged` -/
def CanvasController.handleCanvasAuthorityChanged (s : CanvasController ν δ) (change : AuthorityChanged) :
    CanvasController ν δ :=
  let channelId := toString change.channelId
  if channelId.isEmpty then s else s.setAuthority channelId change.deviceId

end Notifier

structure Floor (ν δ : Type) where
  server : Groups.State
  /-- Writers that found no device of theirs holding the canvas and have not claimed it yet. -/
  looked : List (Uuid × Int) := []
  /-- Claims that took and are not announced yet. -/
  announcing : List AuthorityChanged := []
  inbox : List AuthorityChanged := []
  client : CanvasController ν δ

namespace Floor
variable {ν δ : Type} (channelId : Uuid)

inductive Event
  /-- `canvas_authority_claim` -/
  | claim (userId : Uuid) (deviceId : Int)
  -- any other canvas event: the two accesses of `gate_authority`
  | write (userId : Uuid) (deviceId : Int)
  | claimIfAbsent (i : Nat)
  /-- `broadcast_authority_changed` of a claim, and whether it comes to the client's queue -/
  | announce (i : Nat) (queued : Bool)
  | receive
  | wait (milliseconds : Nat)

def claimed (s : Floor ν δ) (userId : Uuid) (deviceId : Int) (result : Bool × Groups.State) : Floor ν δ :=
  { s with
    server := result.2
    announcing := if result.1 then s.announcing ++ [⟨channelId, userId, deviceId⟩] else s.announcing }

def step (s : Floor ν δ) : Event → Floor ν δ
  | .claim userId deviceId => s.claimed channelId userId deviceId (s.server.claim (userId, channelId) deviceId)
  | .write userId deviceId =>
    match s.server.canvasAuthority (userId, channelId) with
    | some _ => s
    | none => { s with looked := s.looked ++ [(userId, deviceId)] }
  | .claimIfAbsent i =>
    match s.looked[i]? with
    | some (userId, deviceId) =>
      { s with looked := s.looked.eraseIdx i }.claimed channelId userId deviceId
        (s.server.claimIfAbsent (userId, channelId) deviceId)
    | none => s
  | .announce i queued =>
    match s.announcing[i]? with
    | some change =>
      { s with
        announcing := s.announcing.eraseIdx i
        inbox := if queued then s.inbox ++ [change] else s.inbox }
    | none => s
  | .receive =>
    match s.inbox with
    | change :: rest => { s with inbox := rest, client := s.client.handleCanvasAuthorityChanged change }
    | [] => s
  | .wait milliseconds =>
    { s with server := s.server.setTables { s.server.tables with now := s.server.now + milliseconds } }

def run (s : Floor ν δ) (events : List Event) : Floor ν δ := events.foldl (step channelId) s

variable (me : Uuid)

def IsOpen (s : Floor ν δ) : Prop :=
  ∀ entry ∈ s.server.canvasAuthority (me, channelId), entry.deviceId = s.client.deviceId

/-- The claim is the user's own, or its device number tells him what is true of his own device. -/
def Telling (s : Floor ν δ) (userId : Uuid) (deviceId : Int) : Prop :=
  userId = me ∨ (deviceId = s.client.deviceId ↔ s.IsOpen channelId me)

def Fine (s : Floor ν δ) : Event → Prop
  | .claim userId deviceId =>
    (s.server.claim (userId, channelId) deviceId).1 = true → s.Telling channelId me userId deviceId
  | .claimIfAbsent i => ∀ writer ∈ s.looked[i]?,
      (s.server.claimIfAbsent (writer.1, channelId) writer.2).1 = true → s.Telling channelId me writer.1 writer.2
  -- announcements go out in the order of the claims, and none is lost
  | .announce i queued => i = 0 ∧ queued = true
  | .write .. | .receive | .wait _ => True

def Event.IsBy : Event → Prop
  | .claim userId _ | .write userId _ => userId = me
  | _ => False

structure IsQuiet (s : Floor ν δ) : Prop where
  looked : s.looked = []
  announcing : s.announcing = []
  inbox : s.inbox = []

/-- The device the client holds to be the writing one once it has heard of all claims. -/
def latest (s : Floor ν δ) : Option Int :=
  ((s.inbox ++ s.announcing).getLast?.map AuthorityChanged.deviceId).or (s.client.authority (toString channelId))

structure Agrees (s : Floor ν δ) : Prop where
  attached : s.client.channelId = some (toString channelId)
  here : ∀ change ∈ s.inbox ++ s.announcing, change.channelId = channelId
  known : (∀ deviceId ∈ s.latest channelId, deviceId = s.client.deviceId) ↔ s.IsOpen channelId me

instance (s : Floor ν δ) : Decidable (s.IsOpen channelId me) :=
  inferInstanceAs (Decidable (∀ entry ∈ s.server.canvasAuthority (me, channelId), entry.deviceId = s.client.deviceId))

instance (s : Floor ν δ) (userId : Uuid) (deviceId : Int) : Decidable (s.Telling channelId me userId deviceId) :=
  inferInstanceAs (Decidable (userId = me ∨ (deviceId = s.client.deviceId ↔ s.IsOpen channelId me)))

instance (s : Floor ν δ) : (event : Event) → Decidable (s.Fine channelId me event)
  | .claim userId deviceId =>
    inferInstanceAs (Decidable ((s.server.claim (userId, channelId) deviceId).1 = true →
      s.Telling channelId me userId deviceId))
  | .claimIfAbsent i =>
    inferInstanceAs (Decidable (∀ writer ∈ s.looked[i]?,
      (s.server.claimIfAbsent (writer.1, channelId) writer.2).1 = true → s.Telling channelId me writer.1 writer.2))
  | .announce i queued => inferInstanceAs (Decidable (i = 0 ∧ queued = true))
  | .write .. | .receive | .wait _ => isTrue trivial

section Claims

/-- A claim that is turned down leaves the server as it is; one that takes is the device's own entry. -/
structure Takes (s : Groups.State) (key : Uuid × Uuid) (deviceId : Int) (result : Bool × Groups.State) : Prop where
  refused : result.1 = false → result.2 = s
  held : result.1 = true → ∃ entry, result.2.canvasAuthority key = some entry ∧ entry.deviceId = deviceId
  others : ∀ other, other ≠ key → result.2.canvasAuthority other = s.canvasAuthority other

variable {s : Groups.State} {key : Uuid × Uuid} {deviceId : Int}

theorem takes_update : Takes s key deviceId
    (true, { s with canvasAuthority := Function.update s.canvasAuthority key (some ⟨deviceId, s.now⟩) }) where
  refused := fun taken => by cases taken
  held := fun _ => ⟨⟨deviceId, s.now⟩, Function.update_self .., rfl⟩
  others := fun _ different => Function.update_of_ne different ..

theorem takes_refused : Takes s key deviceId (false, s) where
  refused := fun _ => rfl
  held := fun taken => by cases taken
  others := fun _ _ => rfl

theorem claim_takes : Takes s key deviceId (s.claim key deviceId) := by
  unfold Groups.State.claim
  dsimp only
  split
  · exact takes_update
  split
  · exact takes_refused
  split
  · exact takes_refused
  · exact takes_update

theorem claimIfAbsent_takes : Takes s key deviceId (s.claimIfAbsent key deviceId) := by
  unfold Groups.State.claimIfAbsent
  split
  · next entry found =>
    refine ⟨fun _ => rfl, fun taken => ?_, fun _ _ => rfl⟩
    exact ⟨entry, found, of_decide_eq_true taken⟩
  · exact takes_update

end Claims

variable {channelId me : Uuid} {s start : Floor ν δ}

theorem gateAuthority_accepts :
    (gateAuthority s.server me channelId s.client.deviceId).1 = true ↔ s.IsOpen channelId me := by
  unfold gateAuthority IsOpen
  cases found : s.server.canvasAuthority (me, channelId) with
  | none =>
    have free : (s.server.claimIfAbsent (me, channelId) s.client.deviceId).1 = true := by
      unfold Groups.State.claimIfAbsent
      rw [found]
    exact iff_of_true free fun entry inside => by cases inside
  | some entry => simp

theorem canIWrite_iff {s : CanvasController ν δ} {channelId : String} (attached : s.channelId = some channelId) :
    s.canIWrite = true ↔ ∀ deviceId ∈ s.authority channelId, deviceId = s.deviceId := by
  unfold CanvasController.canIWrite
  rw [attached]
  cases found : s.authority channelId with
  | none | some => simp [found]

theorem Agrees.settled (agrees : s.Agrees channelId me) (quiet : s.IsQuiet) :
    s.client.canIWrite = (gateAuthority s.server me channelId s.client.deviceId).1 := by
  have same : s.latest channelId = s.client.authority (toString channelId) := by
    unfold latest
    rw [quiet.inbox, quiet.announcing]
    rfl
  rw [Bool.eq_iff_iff, canIWrite_iff agrees.attached, gateAuthority_accepts, ← same]
  exact agrees.known

theorem Agrees.claimed (agrees : s.Agrees channelId me) {userId : Uuid} {deviceId : Int}
    {result : Bool × Groups.State} (takes : Takes s.server (userId, channelId) deviceId result)
    (telling : result.1 = true → s.Telling channelId me userId deviceId) :
    (s.claimed channelId userId deviceId result).Agrees channelId me := by
  cases taken : result.1 with
  | false =>
    have same : s.claimed channelId userId deviceId result = s := by
      unfold Floor.claimed
      rw [taken, takes.refused taken]
      rfl
    rw [same]
    exact agrees
  | true =>
    have announced : (s.claimed channelId userId deviceId result).announcing =
        s.announcing ++ [⟨channelId, userId, deviceId⟩] := if_pos taken
    have latest : (s.claimed channelId userId deviceId result).latest channelId = some deviceId := by
      unfold Floor.latest
      rw [announced, ← List.append_assoc, List.getLast?_append]
      rfl
    refine ⟨agrees.attached, ?_, ?_⟩
    · rw [announced, ← List.append_assoc]
      intro change inside
      rcases List.mem_append.mp inside with old | new
      · exact agrees.here change old
      · rw [List.mem_singleton.mp new]
    · rw [latest]
      have told : deviceId = s.client.deviceId ↔ (s.claimed channelId userId deviceId result).IsOpen channelId me := by
        by_cases own : userId = me
        · obtain ⟨entry, held, named⟩ := takes.held taken
          change _ ↔ ∀ entry ∈ result.2.canvasAuthority (me, channelId), entry.deviceId = s.client.deviceId
          rw [← own, held, ← named]
          exact ⟨fun same _ inside => Option.some.inj inside ▸ same, fun all => all entry rfl⟩
        · have kept : result.2.canvasAuthority (me, channelId) = s.server.canvasAuthority (me, channelId) :=
            takes.others _ fun same => own (congrArg Prod.fst same).symm
          change _ ↔ ∀ entry ∈ result.2.canvasAuthority (me, channelId), entry.deviceId = s.client.deviceId
          rw [kept]
          exact (telling taken).resolve_left own
      rw [← told]
      exact ⟨fun all => all deviceId rfl, fun same _ inside => Option.some.inj inside ▸ same⟩

theorem Agrees.receive (agrees : s.Agrees channelId me) : (s.step channelId .receive).Agrees channelId me := by
  unfold step
  dsimp only
  split
  · next change rest waiting =>
    have here : change.channelId = channelId := agrees.here change (by rw [waiting]; exact List.mem_cons_self)
    have client : s.client.handleCanvasAuthorityChanged change =
        s.client.setAuthority (toString channelId) change.deviceId := by
      have named : (toString change.channelId).isEmpty = false := by simp
      unfold CanvasController.handleCanvasAuthorityChanged
      dsimp only
      rw [named, here]
      rfl
    rw [client]
    refine ⟨agrees.attached, fun other inside => agrees.here other ?_, ?_⟩
    · rw [waiting]
      exact List.mem_cons_of_mem _ inside
    · refine Iff.trans (Iff.of_eq ?_) agrees.known
      refine congrArg (fun known => ∀ deviceId ∈ known, deviceId = s.client.deviceId) ?_
      unfold latest
      rw [waiting, List.cons_append, List.getLast?_cons]
      cases more : (rest ++ s.announcing).getLast? with
      | none => simp [CanvasController.setAuthority]
      | some last => simp
  · exact agrees

theorem Agrees.step (agrees : s.Agrees channelId me) {event : Event} (fine : s.Fine channelId me event) :
    (s.step channelId event).Agrees channelId me := by
  cases event with
  | claim userId deviceId => exact agrees.claimed claim_takes fine
  | write userId deviceId =>
    change Agrees channelId me (match s.server.canvasAuthority (userId, channelId) with
      | some _ => s
      | none => { s with looked := s.looked ++ [(userId, deviceId)] })
    split
    · exact agrees
    · exact ⟨agrees.attached, agrees.here, agrees.known⟩
  | claimIfAbsent i =>
    unfold Floor.step
    dsimp only
    split
    · next userId deviceId found =>
      have rest : Agrees channelId me { s with looked := s.looked.eraseIdx i } :=
        ⟨agrees.attached, agrees.here, agrees.known⟩
      exact rest.claimed claimIfAbsent_takes fun taken => fine (userId, deviceId) found taken
    · exact agrees
  | announce i queued =>
    obtain ⟨rfl, rfl⟩ := fine
    unfold Floor.step
    dsimp only
    split
    · next change found =>
      have parts : s.announcing = change :: s.announcing.eraseIdx 0 := by
        cases waiting : s.announcing with
        | nil => rw [waiting] at found; cases found
        | cons first rest =>
          rw [waiting] at found
          rw [← Option.some.inj found]
          rfl
      have same : (s.inbox ++ [change]) ++ s.announcing.eraseIdx 0 = s.inbox ++ s.announcing := by
        rw [List.append_assoc, List.singleton_append, ← parts]
      refine ⟨agrees.attached, ?_, ?_⟩
      · change ∀ other ∈ (s.inbox ++ [change]) ++ s.announcing.eraseIdx 0, other.channelId = channelId
        rw [same]
        exact agrees.here
      · refine Iff.trans (Iff.of_eq ?_) agrees.known
        unfold latest
        dsimp only
        rw [if_pos rfl, same]
    · exact agrees
  | receive => exact agrees.receive
  | wait milliseconds => exact ⟨agrees.attached, agrees.here, agrees.known⟩

structure IsFresh (channelId : Uuid) (s : Floor ν δ) : Prop extends s.IsQuiet where
  attached : s.client.channelId = some (toString channelId)
  unheld : ∀ userId, s.server.canvasAuthority (userId, channelId) = none
  unclaimed : s.client.authority (toString channelId) = none

theorem IsFresh.agrees (fresh : start.IsFresh channelId) : start.Agrees channelId me := by
  refine ⟨fresh.attached, fun change inside => ?_, ?_⟩
  · rw [fresh.inbox, fresh.announcing] at inside
    cases inside
  · unfold latest IsOpen
    rw [fresh.inbox, fresh.announcing, fresh.unclaimed, fresh.unheld]
    exact iff_of_true (fun deviceId known => by cases known) fun entry held => by cases held

theorem run_agrees (agrees : start.Agrees channelId me) {events : List Event}
    (fine : Along (step channelId) (Fine channelId me) start events) :
    (start.run channelId events).Agrees channelId me :=
  fine.keeps (fun _ _ agrees fine => Agrees.step agrees fine) agrees

section Aside

structure Aside (channelId me : Uuid) (entry : Option Groups.AuthorityEntry) (deviceId : Int)
    (s : Floor ν δ) : Prop where
  entry : s.server.canvasAuthority (me, channelId) = entry
  device : s.client.deviceId = deviceId
  looked : ∀ writer ∈ s.looked, writer.1 ≠ me

variable {entry : Option Groups.AuthorityEntry} {own : Int}

theorem Aside.claimed (aside : s.Aside channelId me entry own) {userId : Uuid} {deviceId : Int}
    {result : Bool × Groups.State} (takes : Takes s.server (userId, channelId) deviceId result) (other : userId ≠ me) :
    (s.claimed channelId userId deviceId result).Aside channelId me entry own where
  entry := (takes.others _ fun same => other (congrArg Prod.fst same).symm).trans aside.entry
  device := aside.device
  looked := aside.looked

theorem Aside.step (aside : s.Aside channelId me entry own) {event : Event} (others : ¬ event.IsBy me) :
    (s.step channelId event).Aside channelId me entry own := by
  cases event with
  | claim userId deviceId => exact aside.claimed claim_takes others
  | write userId deviceId =>
    unfold Floor.step
    dsimp only
    split
    · exact aside
    · refine ⟨aside.entry, aside.device, fun writer inside => ?_⟩
      rcases List.mem_append.mp inside with old | new
      · exact aside.looked writer old
      · rw [List.mem_singleton.mp new]
        exact others
  | claimIfAbsent i =>
    unfold Floor.step
    dsimp only
    split
    · next userId deviceId found =>
      have rest : Aside channelId me entry own { s with looked := s.looked.eraseIdx i } :=
        ⟨aside.entry, aside.device, fun writer inside => aside.looked writer (List.mem_of_mem_eraseIdx inside)⟩
      exact rest.claimed claimIfAbsent_takes (aside.looked _ (List.mem_of_getElem? found))
    · exact aside
  | announce i queued =>
    unfold Floor.step
    dsimp only
    split
    · exact ⟨aside.entry, aside.device, aside.looked⟩
    · exact aside
  | receive =>
    unfold Floor.step
    dsimp only
    split
    · refine ⟨aside.entry, ?_, aside.looked⟩
      rw [← aside.device]
      unfold CanvasController.handleCanvasAuthorityChanged
      dsimp only
      split <;> rfl
    · exact aside
  | wait milliseconds => exact ⟨aside.entry, aside.device, aside.looked⟩

theorem run_aside (aside : s.Aside channelId me entry own) {events : List Event}
    (others : ∀ event ∈ events, ¬ event.IsBy me) : (s.run channelId events).Aside channelId me entry own := by
  induction events generalizing s with
  | nil => exact aside
  | cons event events ih =>
    exact ih (aside.step (others event List.mem_cons_self)) fun later inside =>
      others later (List.mem_cons_of_mem _ inside)

theorem Aside.gate (aside : s.Aside channelId me entry own) {t : Floor ν δ} (same : t.Aside channelId me entry own) :
    (gateAuthority s.server me channelId s.client.deviceId).1 =
      (gateAuthority t.server me channelId t.client.deviceId).1 := by
  rw [Bool.eq_iff_iff, gateAuthority_accepts, gateAuthority_accepts]
  unfold IsOpen
  rw [aside.entry, same.entry, aside.device, same.device]

end Aside

/-- Where each claim that takes is the user's own or tells him nothing wrong about his device, and announcements
keep the order of the claims: whenever the client has heard of all claims, it holds itself to be allowed to write
exactly if the server would take a write of it, and what others then do changes nothing about that. -/
theorem write_permission_agrees (fresh : start.IsFresh channelId) {events later : List Event}
    (fine : Along (step channelId) (Fine channelId me) start (events ++ later))
    (quiet : (start.run channelId events).IsQuiet) :
    (start.run channelId events).client.canIWrite = (gateAuthority (start.run channelId events).server me channelId
        (start.run channelId events).client.deviceId).1 ∧
      ((∀ event ∈ later, ¬ event.IsBy me) → (start.run channelId (events ++ later)).IsQuiet →
        (start.run channelId (events ++ later)).client.canIWrite = (start.run channelId events).client.canIWrite) := by
  obtain ⟨first, rest⟩ := Along.append.mp fine
  have agrees := run_agrees fresh.agrees first
  refine ⟨agrees.settled quiet, fun others quietLater => ?_⟩
  have whole : start.run channelId (events ++ later) = (start.run channelId events).run channelId later := by
    exact List.foldl_append
  rw [whole] at quietLater ⊢
  have aside : (start.run channelId events).Aside channelId me
      ((start.run channelId events).server.canvasAuthority (me, channelId))
      (start.run channelId events).client.deviceId := by
    refine ⟨rfl, rfl, fun writer inside => ?_⟩
    rw [quiet.looked] at inside
    cases inside
  rw [(run_agrees agrees rest).settled quietLater, agrees.settled quiet]
  exact (run_aside aside others).gate aside

section Samples

def entrance : Floor Rat Rat where
  server := .new fun _ => none
  client := { channelId := some (toString 5), tools := .initial CanvasController.fractionMeasures, deviceId := 1 }

theorem entrance_fresh : entrance.IsFresh 5 where
  looked := rfl
  announcing := rfl
  inbox := rfl
  attached := rfl
  unheld := fun _ => rfl
  unclaimed := rfl

def handedOver : List Event :=
  [.write 1 1, .claimIfAbsent 0, .announce 0 true, .receive, .wait 1000, .claim 1 2, .announce 0 true, .receive]

def joinedIn : List Event := [.write 2 3, .claimIfAbsent 0, .announce 0 true, .receive]

theorem write_permission_agrees_handedOver :
    (entrance.run 5 handedOver).client.canIWrite =
        (gateAuthority (entrance.run 5 handedOver).server 1 5 (entrance.run 5 handedOver).client.deviceId).1 ∧
      ((∀ event ∈ joinedIn, ¬ event.IsBy 1) → (entrance.run 5 (handedOver ++ joinedIn)).IsQuiet →
        (entrance.run 5 (handedOver ++ joinedIn)).client.canIWrite = (entrance.run 5 handedOver).client.canIWrite) :=
  write_permission_agrees entrance_fresh (by decide +kernel) ⟨by decide +kernel, by decide +kernel, by decide +kernel⟩

/-- Device 7 of another user takes the canvas. -/
theorem write_permission_disagrees :
    ¬ ∀ events, (entrance.run 5 events).IsQuiet → (entrance.run 5 events).client.canIWrite =
      (gateAuthority (entrance.run 5 events).server 1 5 (entrance.run 5 events).client.deviceId).1 := fun claim =>
  absurd (claim [.claim 2 7, .announce 0 true, .receive] ⟨by decide +kernel, by decide +kernel, by decide +kernel⟩)
    (by decide +kernel)

end Samples
end Floor
end Echo.Canvas
