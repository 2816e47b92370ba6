import Echo.Devices.Tickets
import Echo.Lib.Contract
import Echo.Server.Accesses

/-! What reaches a revoked device. Neither the revocation nor the upgrade touches the other's
side: a device that is connected, or about to be, when it is revoked stays connected. -/
namespace Echo.Server
open Echo.Lib

section Hub

theorem AppState.trySend_now (s : AppState) (userId : Uuid) (deviceId : Int) (tx : Nat) (frame : Frame) :
    (s.trySend userId deviceId tx frame).2.now = s.now := by
  unfold trySend
  split
  · rfl
  · split
    · rfl
    · split <;> rfl

theorem Hub.connection_congr {hub hub' : Hub} (same : hub'.connections = hub.connections) (user : Uuid)
    (device : Int) : hub'.connection user device = hub.connection user device := by
  unfold Hub.connection
  rw [same]

variable {r : Request}

theorem AppState.perform_absent {s s' : AppState} {a : Answer r}
    (answered : perform r s = some (a, s')) {user : Uuid} {device : Int}
    (absent : s.hub.connection user device = none) (other : r ≠ .register user device) :
    s'.hub.connection user device = none := by
  cases r with
  | trySend userId deviceId tx frame =>
    have sent : s.trySend userId deviceId tx frame = (a, s') := Option.some.inj answered
    cases a with
    | true =>
      obtain ⟨-, -, -, -, -, same⟩ := trySend_true sent
      rw [Hub.connection_congr same]
      exact absent
    | false =>
      rcases (trySend_false sent).2 with same | ⟨-, removed⟩
      · rw [Hub.connection_congr same]
        exact absent
      · rw [Hub.connection_congr removed, Hub.connection_unregister]
        split
        · rfl
        · exact absent
  | register userId deviceId =>
    obtain ⟨-, rfl⟩ := Prod.mk.inj (Option.some.inj answered)
    rw [Hub.connection_register, if_neg]
    · exact absent
    · rintro ⟨rfl, rfl⟩
      exact other rfl
  | unregister userId deviceId =>
    obtain ⟨-, rfl⟩ := Prod.mk.inj (Option.some.inj answered)
    rw [Hub.connection_unregister]
    split
    · rfl
    · exact absent
  | unregisterAll userId =>
    obtain ⟨-, rfl⟩ := Prod.mk.inj (Option.some.inj answered)
    rw [Hub.connection_unregisterAll]
    split
    · rfl
    · exact absent
  | clock _ | serve _ | recv _ | hangUp _ | close _ =>
    obtain ⟨-, rfl⟩ := Prod.mk.inj (Option.some.inj answered)
    exact absent
  | query _ | findOrCreateDm _ _ | storeMessage _ | storeDeviceContents _ _ | recordDeliveries _ | cachedMemberIds _
  | cacheMemberIds _ _ | invalidateMemberCache _ | deviceCount _ | devicesOf _ | connectionOf _ _ | ended _ | change _ =>
    rw [(perform_aside rfl answered).1]
    exact absent

theorem AppState.perform_now {s s' : AppState} {a : Answer r}
    (answered : perform r s = some (a, s')) : s.now ≤ s'.now := by
  cases r with
  | trySend userId deviceId tx frame =>
    have after : (s.trySend userId deviceId tx frame).2 = s' := congrArg Prod.snd (Option.some.inj answered)
    rw [← after]
    exact (trySend_now _ _ _ _ _).ge
  | clock elapsed =>
    obtain ⟨-, rfl⟩ := Prod.mk.inj (Option.some.inj answered)
    exact Nat.le_add_right _ _
  | register _ _ | unregister _ _ | unregisterAll _ | serve _ | recv _ | hangUp _ | close _ =>
    obtain ⟨-, rfl⟩ := Prod.mk.inj (Option.some.inj answered)
    exact Nat.le_refl _
  | query _ | findOrCreateDm _ _ | storeMessage _ | storeDeviceContents _ _ | recordDeliveries _ | cachedMemberIds _
  | cacheMemberIds _ _ | invalidateMemberCache _ | deviceCount _ | devicesOf _ | connectionOf _ _ | ended _ | change _ =>
    exact (perform_aside rfl answered).2.2.ge

theorem Connection.take_kept (c : Connection) :
    c.take.userId = c.userId ∧ c.take.deviceId = c.deviceId ∧ c.take.isOpen = c.isOpen := by
  unfold Connection.take
  split
  · exact ⟨rfl, rfl, rfl⟩
  · split <;> exact ⟨rfl, rfl, rfl⟩

theorem ConnStep.opened_or {cs cs' : List Connection} (step : ConnStep cs r cs') {c' : Connection}
    (inside : c' ∈ cs') (isOpen : c'.isOpen = true) :
    (∃ c ∈ cs, c.userId = c'.userId ∧ c.deviceId = c'.deviceId ∧ c.isOpen = true) ∨
      r = .register c'.userId c'.deviceId := by
  have modified : ∀ {g : Connection → Connection} {k : Nat},
      (∀ c, (g c).userId = c.userId ∧ (g c).deviceId = c.deviceId ∧ ((g c).isOpen = true → c.isOpen = true)) →
      c' ∈ cs.modify k g → ∃ c ∈ cs, c.userId = c'.userId ∧ c.deviceId = c'.deviceId ∧ c.isOpen = true := by
    intro g k kept inside
    obtain ⟨i, there⟩ := List.mem_iff_getElem?.mp inside
    rw [List.getElem?_modify] at there
    obtain ⟨c, found, same⟩ := Option.map_eq_some_iff.mp there
    refine ⟨c, List.mem_of_getElem? found, ?_⟩
    split at same
    · subst same
      exact ⟨(kept c).1.symm, (kept c).2.1.symm, (kept c).2.2 isOpen⟩
    · subst same
      exact ⟨rfl, rfl, isOpen⟩
  cases step with
  | same _ => exact .inl ⟨c', inside, rfl, rfl, isOpen⟩
  | opened userId deviceId =>
    rcases List.mem_append.mp inside with old | new
    · exact .inl ⟨c', old, rfl, rfl, isOpen⟩
    · rw [List.mem_singleton.mp new]
      exact .inr rfl
  | @pushed tx c userId deviceId frame there wasOpen _ =>
    rcases List.mem_or_eq_of_mem_set inside with old | rfl
    · exact .inl ⟨c', old, rfl, rfl, isOpen⟩
    · exact .inl ⟨c, List.mem_of_getElem? there, rfl, rfl, wasOpen⟩
  | served | hungUp =>
    refine .inl (modified (fun _ => ?_) inside)
    exact ⟨rfl, rfl, id⟩
  | taken k =>
    refine .inl (modified (fun c => ⟨c.take_kept.1, c.take_kept.2.1, fun isOpen => ?_⟩) inside)
    rwa [← c.take_kept.2.2]
  | closed k =>
    refine .inl (modified (fun c => ?_) inside)
    exact ⟨rfl, rfl, fun isOpen => absurd isOpen Bool.false_ne_true⟩

end Hub
end Echo.Server

namespace Echo.Devices
open Echo.Lib
open Echo.Server (Uuid AppState UuidFormat Connection Frame)
open Echo.Groups (AppError)

section Statements

/-- Nothing leads to the device: no entry of the hub, no open socket, no ticket to redeem. -/
structure CutOff (s : State) (userId : Uuid) (deviceId : Int) : Prop where
  absent : s.app.hub.connection userId deviceId = none
  closed : ∀ c ∈ s.app.connections, c.userId = userId → c.deviceId = deviceId → c.isOpen = false
  stale : ∀ e ∈ s.ticketStore.entries, e.2.userId = userId → e.2.deviceId = deviceId → e.2.isFresh s.now = false

instance CutOff.decidable (s : State) (userId : Uuid) (deviceId : Int) : Decidable (CutOff s userId deviceId) :=
  decidable_of_iff (_ ∧ _ ∧ _) ⟨fun ⟨a, b, c⟩ => ⟨a, b, c⟩, fun ⟨a, b, c⟩ => ⟨a, b, c⟩⟩

/-- The device whose ticket a call holds, from redeeming it to the registration. -/
def nextUpgrade (held : Option (Uuid × Int)) : (r : Request) → Answer r → Option (Uuid × Int)
  | .takeTicket _, taken => taken
  | .findUser _, .ok (some _) => held
  | .findUser _, _ => none
  | .server (.register _ _), _ => none
  | _, _ => held

/-- The same, read off what the call has done since the process was started. -/
def upgrading (starts who : Nat) : List (Event machine) → Option (Uuid × Int)
  | [] => none
  | ⟨who', r, before, _⟩ :: trace =>
    if who' = who ∧ State.starts before = starts then
      match State.perform r before with
      | some (a, _) => nextUpgrade (upgrading starts who trace) r a
      | none => upgrading starts who trace
    else upgrading starts who trace

def Request.issues : Request → Option (Uuid × Int)
  | .insertTicket _ userId deviceId => some (userId, deviceId)
  | _ => none

/-- A device is revoked while nothing leads to it and no call is about to register it, and a
ticket is issued for a device that is not revoked. -/
def Detached (trace : List (Event machine)) (e : Event machine) : Prop :=
  (∀ k ∈ (State.app e.after).db.revokedDevices, k ∉ (State.app e.before).db.revokedDevices →
    CutOff e.before k.1 k.2 ∧ ∀ e' ∈ trace, upgrading (State.starts e.before) e'.who trace ≠ some k) ∧
  ∀ k ∈ Request.issues e.request, k ∉ (State.app e.before).db.revokedDevices

instance (trace : List (Event machine)) (e : Event machine) : Decidable (Detached trace e) := by
  have (k : Uuid × Int) : Decidable (CutOff e.before k.1 k.2) := CutOff.decidable e.before k.1 k.2
  exact inferInstanceAs (Decidable (_ ∧ _))

def enqueued (e : Event machine) : Option (Connection × Frame) :=
  match e.request with
  | .server (.trySend userId deviceId tx frame) =>
    if ((State.app e.before).trySend userId deviceId tx frame).1 then
      ((State.app e.before).connections[tx]?).map (·, frame)
    else none
  | _ => none

def isMessage : Frame → Bool
  | .newMessage _ | .selfMessage _ => true
  | _ => false

/-- No message goes to a revoked device, and the call that revoked it leaves no entry of it. -/
structure Severed (w : World machine AppError Response) : Prop where
  unsent : ∀ e ∈ w.trace, ∀ sent ∈ enqueued e, isMessage sent.2 = true →
    ¬ State.IsRevoked e.before sent.1.userId sent.1.deviceId
  gone : ∀ e ∈ w.trace, ∀ userId deviceId, State.IsRevoked e.after userId deviceId →
    ¬ State.IsRevoked e.before userId deviceId → w.pending e.who = none →
    State.IsRevoked w.state userId deviceId → (State.app w.state).hub.connection userId deviceId = none

end Statements

section Steps
variable {s s' : State} {r : Request} {a : Answer r}

structure Kept (s s' : State) : Prop where
  hub : s'.app.hub = s.app.hub
  connections : s'.app.connections = s.app.connections
  now : s'.app.now = s.app.now
  tickets : ∀ e ∈ s'.ticketStore.entries, e ∈ s.ticketStore.entries
  starts : s'.starts = s.starts

variable {userId : Uuid} {deviceId : Int}

theorem CutOff.kept (cut : CutOff s userId deviceId) (kept : Kept s s') :
    CutOff s' userId deviceId where
  absent := by
    rw [kept.hub]
    exact cut.absent
  closed := by
    rw [kept.connections]
    exact cut.closed
  stale e inside user device := by
    unfold State.now
    rw [kept.now]
    exact cut.stale e (kept.tickets e inside) user device

theorem access_kept {α : Type} (s : State) {f : State → α × State} (kept : ∀ s : State, Kept s (f s).2) :
    Kept s (s.access f).2 := by
  unfold State.access
  split
  · exact ⟨rfl, rfl, rfl, fun _ inside => inside, rfl⟩
  · obtain ⟨hub, connections, now, tickets, starts⟩ := kept s.faulted
    exact ⟨hub, connections, now, tickets, starts⟩

theorem setRevoked_kept (s : State) (revoked : List (Uuid × Int)) : Kept s (s.setRevoked revoked) :=
  ⟨rfl, rfl, rfl, fun _ inside => inside, rfl⟩

theorem revokeDevice_kept (s : State) (userId : Uuid) (deviceId : Int) : Kept s (s.revokeDevice userId deviceId).2 := by
  unfold State.revokeDevice
  split
  · exact setRevoked_kept s _
  · exact ⟨rfl, rfl, rfl, fun _ inside => inside, rfl⟩

theorem takeTicket_kept (s : State) (ticket : String) : Kept s (s.takeTicket ticket).2 := by
  unfold State.takeTicket
  split
  · exact ⟨rfl, rfl, rfl, fun _ inside => (List.mem_filter.mp inside).1, rfl⟩
  · exact ⟨rfl, rfl, rfl, fun _ inside => inside, rfl⟩

theorem perform_kept (answered : State.perform r s = some (a, s')) (served : ∀ r', r ≠ .server r')
    (issued : r.issues = none) : Kept s s' := by
  cases r with
  | server r => exact (served r rfl).elim
  | insertTicket ticket userId deviceId => cases issued
  | randomTicket | ticketCount =>
    obtain ⟨-, rfl⟩ := Prod.mk.inj (Option.some.inj answered)
    exact ⟨rfl, rfl, rfl, fun _ inside => inside, rfl⟩
  | retainTickets =>
    obtain ⟨-, rfl⟩ := Prod.mk.inj (Option.some.inj answered)
    exact ⟨rfl, rfl, rfl, fun _ inside => (List.mem_filter.mp inside).1, rfl⟩
  | takeTicket ticket =>
    have after : (s.takeTicket ticket).2 = s' := congrArg Prod.snd (Option.some.inj answered)
    rw [← after]
    exact takeTicket_kept s ticket
  | findUser userId =>
    have after : (s.access fun s => (s.usernames userId, s)).2 = s' := congrArg Prod.snd (Option.some.inj answered)
    rw [← after]
    exact access_kept s fun _ => ⟨rfl, rfl, rfl, fun _ inside => inside, rfl⟩
  | userDevices userId =>
    have after : (s.access fun s => (s.userDevices userId, s)).2 = s' := congrArg Prod.snd (Option.some.inj answered)
    rw [← after]
    exact access_kept s fun _ => ⟨rfl, rfl, rfl, fun _ inside => inside, rfl⟩
  | revokeDevice userId deviceId =>
    have after : (s.access fun s => s.revokeDevice userId deviceId).2 = s' :=
      congrArg Prod.snd (Option.some.inj answered)
    rw [← after]
    exact access_kept s fun s => revokeDevice_kept s userId deviceId
  | revokeDevicesExcept userId keepDeviceId =>
    have after : (s.access fun s => s.revokeDevicesExcept userId keepDeviceId).2 = s' :=
      congrArg Prod.snd (Option.some.inj answered)
    rw [← after]
    exact access_kept s fun s => setRevoked_kept s _
  | storeIdentityKey userId deviceId =>
    have after : (s.access fun s => ((), s.storeIdentityKey userId deviceId)).2 = s' :=
      congrArg Prod.snd (Option.some.inj answered)
    rw [← after]
    exact access_kept s fun _ => ⟨rfl, rfl, rfl, fun _ inside => inside, rfl⟩
  | deleteUser userId =>
    have after : (s.access fun s => s.deleteUser userId).2 = s' := congrArg Prod.snd (Option.some.inj answered)
    rw [← after]
    exact access_kept s fun _ => ⟨rfl, rfl, rfl, fun _ inside => inside, rfl⟩

theorem Request.leads (r : Request) :
    (∃ r', r = .server r') ∨ (∃ ticket userId deviceId, r = .insertTicket ticket userId deviceId) ∨
      (∀ r', r ≠ .server r') ∧ r.issues = none := by
  cases r with
  | server r => exact .inl ⟨r, rfl⟩
  | insertTicket ticket userId deviceId => exact .inr (.inl ⟨ticket, userId, deviceId, rfl⟩)
  | _ =>
    refine .inr (.inr ⟨fun _ same => ?_, rfl⟩)
    cases same

theorem server_answered {r : Server.Request} {a : Answer (.server r)}
    (answered : State.perform (.server r) s = some (a, s')) :
    ∃ app, s.app.perform r = some (a, app) ∧ s' = { s with app } := by
  obtain ⟨⟨b, app⟩, performed, same⟩ := Option.map_eq_some_iff.mp answered
  obtain ⟨rfl, rfl⟩ := Prod.mk.inj same
  exact ⟨app, performed, rfl⟩

theorem perform_starts (answered : State.perform r s = some (a, s')) : s'.starts = s.starts := by
  obtain ⟨r, rfl⟩ | ⟨ticket, userId, deviceId, rfl⟩ | ⟨served, issued⟩ := r.leads
  · obtain ⟨app, -, rfl⟩ := server_answered answered
    rfl
  · obtain ⟨-, rfl⟩ := Prod.mk.inj (Option.some.inj answered)
    rfl
  · exact (perform_kept answered served issued).starts

theorem stale_later {t : Ticket} {now now' : Nat} (stale : t.isFresh now = false) (later : now ≤ now') :
    t.isFresh now' = false := by
  unfold Ticket.isFresh at stale ⊢
  have old := of_decide_eq_false stale
  exact decide_eq_false (by omega)

theorem CutOff.step (cut : CutOff s userId deviceId)
    (answered : State.perform r s = some (a, s')) (unregistered : r ≠ .server (.register userId deviceId))
    (unissued : r.issues ≠ some (userId, deviceId)) : CutOff s' userId deviceId := by
  obtain ⟨r, rfl⟩ | ⟨ticket, u, d, rfl⟩ | ⟨served, issued⟩ := r.leads
  · obtain ⟨app, performed, rfl⟩ := server_answered answered
    have other : r ≠ .register userId deviceId := fun same => unregistered (congrArg _ same)
    refine ⟨AppState.perform_absent performed cut.absent other, ?_, ?_⟩
    · intro c inside user device
      by_contra isOpen
      rcases (AppState.perform_conn performed).opened_or inside (by simpa using isOpen) with
        ⟨old, there, sameUser, sameDevice, wasOpen⟩ | registered
      · have closed := cut.closed old there (sameUser.trans user) (sameDevice.trans device)
        rw [wasOpen] at closed
        cases closed
      · rw [user, device] at registered
        exact other registered
    · intro e inside user device
      have stale := cut.stale e inside user device
      exact stale_later stale (AppState.perform_now performed)
  · obtain ⟨-, rfl⟩ := Prod.mk.inj (Option.some.inj answered)
    refine ⟨cut.absent, cut.closed, fun e inside user device => ?_⟩
    rcases List.mem_append.mp inside with old | new
    · exact cut.stale e (List.mem_filter.mp old).1 user device
    · rw [List.mem_singleton.mp new] at user device
      exact (unissued (congrArg some (Prod.ext user device))).elim
  · exact cut.kept (perform_kept answered served issued)

theorem perform_revoked (answered : State.perform r s = some (a, s'))
    (leads : r = .server (.register userId deviceId) ∨ r.issues = some (userId, deviceId)) :
    s'.app.db.revokedDevices = s.app.db.revokedDevices := by
  rcases leads with rfl | issued
  · obtain ⟨app, performed, rfl⟩ := server_answered answered
    obtain ⟨-, rfl⟩ := Prod.mk.inj (Option.some.inj performed)
    rfl
  · cases r with
    | insertTicket ticket u d =>
      obtain ⟨-, rfl⟩ := Prod.mk.inj (Option.some.inj answered)
      rfl
    | _ => cases issued

theorem takeTicket_app (s : State) (ticket : String) : (s.takeTicket ticket).2.app = s.app := by
  unfold State.takeTicket
  split <;> rfl

theorem takeTicket_some {ticket : String} {k : Uuid × Int} (taken : (s.takeTicket ticket).1 = some k) :
    ∃ e ∈ s.ticketStore.entries, e.2.userId = k.1 ∧ e.2.deviceId = k.2 ∧ e.2.isFresh s.now = true := by
  unfold State.takeTicket at taken
  split at taken
  · rename_i t found
    obtain ⟨there, fresh⟩ := Option.filter_eq_some_iff.mp found
    cases taken
    exact ⟨(ticket, t), LinkedMap.find_eq_some.mp there, rfl, rfl, fresh⟩
  · cases taken

theorem enqueued_open {e : Event machine} {sent : Connection × Frame} (enqueues : enqueued e = some sent) :
    sent.1 ∈ (State.app e.before).connections ∧ sent.1.isOpen = true := by
  unfold enqueued at enqueues
  split at enqueues
  · rename_i userId deviceId tx frame asked
    split at enqueues
    · rename_i accepted
      obtain ⟨c, there, rfl⟩ := Option.map_eq_some_iff.mp enqueues
      obtain ⟨c', found, isOpen, -⟩ := AppState.trySend_true (Prod.ext accepted rfl)
      rw [there] at found
      cases found
      exact ⟨List.mem_of_getElem? there, isOpen⟩
    · cases enqueues
  · cases enqueues

end Steps

section Runs

def upgrades : Contract machine where
  Mode := Option (Uuid × Int)
  finished := none
  Permit m r := ∀ userId deviceId, r = .server (.register userId deviceId) → m = some (userId, deviceId)
  Next m r a m' := m' = nextUpgrade m r a
  Rest _ := True
  Final _ := True

structure Fits (trace : List (Event machine)) (modes : Nat → Option (Uuid × Int)) (s : State) : Prop where
  cut : ∀ userId deviceId, s.IsRevoked userId deviceId → CutOff s userId deviceId
  held : ∀ {i k}, modes i = some k → upgrading s.starts i trace = some k ∧ ¬ s.IsRevoked k.1 k.2
  unsent : ∀ e ∈ trace, ∀ sent ∈ enqueued e, ¬ State.IsRevoked e.before sent.1.userId sent.1.deviceId

variable {trace : List (Event machine)}

theorem upgrading_mem {starts who : Nat} {k : Uuid × Int}
    (holds : upgrading starts who trace = some k) : ∃ e ∈ trace, e.who = who := by
  induction trace with
  | nil => cases holds
  | cons e trace ih =>
    unfold upgrading at holds
    split at holds
    · rename_i mine
      exact ⟨e, List.mem_cons_self, mine.1⟩
    · obtain ⟨e', inside, mine⟩ := ih holds
      exact ⟨e', List.mem_cons_of_mem _ inside, mine⟩

theorem nextUpgrade_some {held : Option (Uuid × Int)} {r : Request} {a : Answer r} {k : Uuid × Int}
    (next : nextUpgrade held r a = some k) : held = some k ∨ ∃ ticket, r = .takeTicket ticket := by
  cases r with
  | takeTicket ticket => exact .inr ⟨ticket, rfl⟩
  | findUser userId =>
    cases a with
    | error e => cases next
    | ok user =>
      cases user with
      | none => cases next
      | some name => exact .inl next
  | server r =>
    cases r with
    | register _ _ => cases next
    | _ => exact .inl next
  | _ => exact .inl next

theorem Fits.step {modes : Nat → Option (Uuid × Int)} {s s' : State} {r : Request}
    {a : Answer r} {who : Nat} (fits : Fits trace modes s) (permit : upgrades.Permit (modes who) r)
    (answered : State.perform r s = some (a, s')) (ok : Detached trace ⟨who, r, s, s'⟩) :
    Fits (⟨who, r, s, s'⟩ :: trace) (Function.update modes who (nextUpgrade (modes who) r a)) s' := by
  -- A device that a call holds was not revoked before, and is not revoked by this step.
  have spared : ∀ {i k}, upgrading s.starts i trace = some k → ¬ s.IsRevoked k.1 k.2 → ¬ s'.IsRevoked k.1 k.2 := by
    intro i k holds unrevoked revoked
    obtain ⟨e, inside, rfl⟩ := upgrading_mem holds
    exact (ok.1 k revoked unrevoked).2 e inside holds
  have mine : upgrading s'.starts who (⟨who, r, s, s'⟩ :: trace) =
      nextUpgrade (upgrading s.starts who trace) r a := by
    simp only [upgrading, perform_starts answered, and_self, if_true, answered]
  refine ⟨fun userId deviceId revoked => ?_, fun {i k} holds => ?_, ?_⟩
  · have led : r ≠ .server (.register userId deviceId) ∧ r.issues ≠ some (userId, deviceId) := by
      constructor
      · intro registers
        have same := perform_revoked answered (.inl registers)
        have unrevoked := (fits.held (permit userId deviceId registers)).2
        unfold State.IsRevoked at revoked unrevoked
        rw [same] at revoked
        exact unrevoked revoked
      · intro issues
        have same := perform_revoked answered (.inr issues)
        unfold State.IsRevoked at revoked
        rw [same] at revoked
        exact ok.2 _ issues revoked
    by_cases already : s.IsRevoked userId deviceId
    · exact (fits.cut userId deviceId already).step answered led.1 led.2
    · exact (ok.1 _ revoked already).1.step answered led.1 led.2
  · by_cases same : i = who
    · subst same
      rw [Function.update_self] at holds
      rw [mine]
      rcases nextUpgrade_some holds with before | ⟨ticket, rfl⟩
      · have held := fits.held before
        rw [held.1]
        rw [before] at holds
        exact ⟨holds, spared held.1 held.2⟩
      · refine ⟨holds, ?_⟩
        have taken : s.takeTicket ticket = (a, s') := Option.some.inj answered
        have a_some : a = some k := holds
        obtain ⟨e, inside, user, device, fresh⟩ := takeTicket_some (congrArg Prod.fst taken |>.trans a_some)
        intro revoked
        have unchanged : s'.app = s.app := (congrArg (fun x => x.2.app) taken).symm.trans (takeTicket_app s ticket)
        have before : s.IsRevoked k.1 k.2 := by
          unfold State.IsRevoked at revoked ⊢
          rwa [unchanged] at revoked
        have stale := (fits.cut _ _ before).stale e inside user device
        rw [fresh] at stale
        cases stale
    · rw [Function.update_of_ne same] at holds
      have held := fits.held holds
      refine ⟨?_, spared held.1 held.2⟩
      simp only [upgrading, Ne.symm same, false_and, if_false, perform_starts answered]
      exact held.1
  · intro e inside sent enqueues revoked
    rcases List.mem_cons.mp inside with rfl | old
    · obtain ⟨there, isOpen⟩ := enqueued_open enqueues
      have closed := (fits.cut _ _ revoked).closed sent.1 there rfl rfl
      rw [isOpen] at closed
      cases closed
    · exact fits.unsent e old sent enqueues revoked

theorem Fits.restart {modes : Nat → Option (Uuid × Int)} {s : State}
    (fits : Fits trace modes s) : Fits trace (fun _ => none) s.restart where
  cut userId deviceId _ := by
    refine ⟨rfl, fun c inside _ _ => ?_, nofun⟩
    obtain ⟨c, -, rfl⟩ := List.mem_map.mp inside
    rfl
  held holds := by cases holds
  unsent := fits.unsent

theorem upgrades_sound : upgrades.Sound Detached Fits where
  turns _ := ⟨fun fits permit answered ok => ⟨_, rfl, fits.step permit answered ok⟩, fun _ _ _ => trivial⟩
  finish := by
    intro trace modes s i fits _
    refine ⟨fits.cut, fun {j k} holds => ?_, fits.unsent⟩
    by_cases same : j = i
    · subst same
      rw [Function.update_self] at holds
      cases holds
    · rw [Function.update_of_ne same] at holds
      exact fits.held holds
  restart fits _ := fits.restart
  finished_rest := trivial

end Runs

section Calls
variable {α : Type}

def Quiet (r : Request) : Prop :=
  (∀ userId deviceId, r ≠ .server (.register userId deviceId)) ∧ (∀ ticket, r ≠ .takeTicket ticket) ∧
    ∀ userId, r ≠ .findUser userId

variable {r : Request}

theorem Quiet.next (quiet : Quiet r) (held : Option (Uuid × Int)) (a : Answer r) :
    nextUpgrade held r a = held := by
  cases r with
  | server r =>
    cases r with
    | register userId deviceId => exact (quiet.1 userId deviceId rfl).elim
    | _ => rfl
  | takeTicket ticket => exact (quiet.2.1 ticket rfl).elim
  | findUser userId => exact (quiet.2.2 userId rfl).elim
  | _ => rfl

theorem quiet_keeps {t : Task α} {m : Option (Uuid × Int)} (only : t.Only Quiet) :
    t.Keeps upgrades m fun m' _ => m' = m :=
  only.keeps (fun quiet userId deviceId same => (quiet.1 userId deviceId same).elim)
    (fun quiet moved => moved.trans (quiet.next _ _)) trivial

theorem ask_quiet (quiet : Quiet r) : (ask r).Only Quiet := ⟨quiet, fun _ => trivial⟩

theorem served_quiet {t : Server.Task α} (only : t.Only Server.Unregistering) : (served t).Only Quiet := by
  refine only.lift fun r unregistering => ⟨fun userId deviceId same => ?_, nofun, nofun⟩
  exact unregistering userId deviceId (Request.server.inj same)

theorem sendTo_quiet (userId : Uuid) (frame : Frame) : (served (Server.sendTo userId frame)).Only Quiet :=
  served_quiet ((Server.sendTo_messaging userId frame).mono fun _ => Server.Messaging.unregistering)

theorem dbCtx_quiet {access : Task (Except Unit α)} (only : access.Only Quiet) : (dbCtx access).Only Quiet := by
  refine Async.Only.bind only fun answer => ?_
  cases answer <;> exact trivial

theorem wsTicket_quiet (userId : Uuid) (deviceId : Option Int) : (wsTicket userId deviceId).Only Quiet := by
  refine Async.Only.bind (ask_quiet ⟨nofun, nofun, nofun⟩) fun (ticket : String) => ?_
  refine Async.Only.bind (ask_quiet ⟨nofun, nofun, nofun⟩) fun _ => ?_
  refine Async.Only.bind (ask_quiet ⟨nofun, nofun, nofun⟩) fun (count : Nat) => ?_
  split
  · exact trivial
  · exact Async.Only.bind (ask_quiet ⟨nofun, nofun, nofun⟩) fun _ => trivial

theorem announceRevoked_quiet (userId : Uuid) (revoked : List Int) : (announceRevoked userId revoked).Only Quiet := by
  induction revoked with
  | nil => exact trivial
  | cons deviceId revoked ih => exact Async.Only.bind (sendTo_quiet userId _) fun _ => ih

theorem revokeDevice_quiet (userId : Uuid) (deviceId : Int) : (revokeDevice userId deviceId).Only Quiet := by
  refine Async.Only.bind (dbCtx_quiet (ask_quiet ⟨nofun, nofun, nofun⟩)) fun (found : Bool) => ?_
  split
  · exact announceRevoked_quiet userId _
  · exact trivial

theorem revokeOtherDevices_quiet (userId : Uuid) (currentDeviceId : Int) :
    (revokeOtherDevices userId currentDeviceId).Only Quiet := by
  refine Async.Only.bind (dbCtx_quiet (ask_quiet ⟨nofun, nofun, nofun⟩)) fun (devices : List Int) => ?_
  split
  · refine Async.Only.bind (dbCtx_quiet (ask_quiet ⟨nofun, nofun, nofun⟩)) fun (revokedIds : List Int) => ?_
    exact Async.Only.bind (announceRevoked_quiet userId _) fun _ => trivial
  · exact trivial

theorem deleteAccount_quiet (userId : Uuid) : (deleteAccount userId).Only Quiet := by
  refine Async.Only.bind (ask_quiet ⟨nofun, nofun, nofun⟩) fun _ => ?_
  refine Async.Only.bind (dbCtx_quiet (ask_quiet ⟨nofun, nofun, nofun⟩)) fun (deleted : Bool) => ?_
  split <;> exact trivial

theorem ofServer_quiet (F : UuidFormat) (i : Server.Input) : (ofServer F i).Only Quiet := by
  cases i with
  | connect _ _ | deleteAccount _ => exact trivial
  | change c =>
    cases c with
    | revokeDevice _ _ => exact trivial
    | _ => exact served_quiet (Server.program_unregistering F nofun)
  | _ => exact served_quiet (Server.program_unregistering F nofun)

theorem ask_bind_keeps {f : Answer r → Task α} {m : Option (Uuid × Int)}
    {post : Option (Uuid × Int) → Except AppError α → Prop} (permit : upgrades.Permit m r)
    (rest : ∀ a, (f a).Keeps upgrades (nextUpgrade m r a) post) : ((ask r).bind f).Keeps upgrades m post :=
  ⟨permit, fun a _ moved => ⟨trivial, moved ▸ rest a⟩⟩

theorem handleSocket_keeps (userId : Uuid) (deviceId : Int) :
    (served (Server.handleSocket userId deviceId)).Keeps upgrades (some (userId, deviceId)) fun _ _ => True := by
  obtain ⟨rest, socket, only⟩ := Server.handleSocket_registers userId deviceId
  rw [socket]
  refine ⟨fun u d same => ?_, fun connection _ _ => ⟨trivial, ?_⟩⟩
  · cases same
    rfl
  · exact (quiet_keeps (served_quiet (only connection))).mono fun _ _ _ => trivial

theorem wsUpgrade_keeps (ticket : String) : (wsUpgrade ticket).Keeps upgrades none fun _ _ => True := by
  refine ask_bind_keeps nofun fun (entry : Option (Uuid × Int)) => ?_
  cases entry with
  | none => exact ask_bind_keeps nofun fun _ => trivial
  | some k =>
    refine Async.Keeps.bind (ask_bind_keeps nofun fun (user : Except Unit (Option String)) => ?_)
    cases user with
    | error e => exact trivial
    | ok user =>
      cases user with
      | none => exact trivial
      | some name => exact handleSocket_keeps k.1 k.2

theorem program_keeps (F : UuidFormat) (i : Input) :
    (program F i).Keeps upgrades upgrades.finished fun m _ => upgrades.Final m := by
  have quiet : ∀ {t : Task Response}, t.Only Quiet → t.Keeps upgrades upgrades.finished fun m _ => upgrades.Final m :=
    fun only => (quiet_keeps only).mono fun _ _ _ => trivial
  cases i with
  | wsTicket userId deviceId => exact quiet (Async.Only.bind (wsTicket_quiet _ _) fun _ => trivial)
  | wsUpgrade ticket =>
    refine Async.Keeps.bind ((wsUpgrade_keeps ticket).mono fun m r _ => ?_)
    cases r <;> exact trivial
  | revokeDevice userId deviceId => exact quiet (Async.Only.bind (revokeDevice_quiet _ _) fun _ => trivial)
  | revokeOtherDevices userId currentDeviceId =>
    exact quiet (Async.Only.bind (revokeOtherDevices_quiet _ _) fun _ => trivial)
  | storeIdentityKey userId deviceId =>
    exact quiet (Async.Only.bind (dbCtx_quiet (ask_quiet ⟨nofun, nofun, nofun⟩)) fun _ => trivial)
  | deleteAccount userId => exact quiet (Async.Only.bind (deleteAccount_quiet _) fun _ => trivial)
  | server i => exact quiet (Async.Only.bind (ofServer_quiet F i) fun _ => trivial)

end Calls

section Claim

def Calls (F : UuidFormat) : Move machine AppError Response → Prop := World.Makes fun t => ∃ i, t = program F i

structure State.Started (s : State) : Prop where
  hub : s.app.hub = .new
  connections : s.app.connections = []
  tickets : s.ticketStore = .empty

theorem State.Started.fits {s : State} (started : s.Started) : Fits [] (fun _ => none) s where
  cut userId deviceId _ := by
    refine ⟨?_, ?_, ?_⟩
    · rw [started.hub]
      rfl
    · intro c inside
      rw [started.connections] at inside
      cases inside
    · intro e inside
      rw [started.tickets] at inside
      cases inside
  held holds := by cases holds
  unsent e inside := by cases inside

theorem Calls.follow {F : UuidFormat} {move : Move machine AppError Response} (calls : Calls F move) :
    World.Makes (fun t => t.Keeps upgrades upgrades.finished fun m _ => upgrades.Final m) move := by
  cases move with
  | call t =>
    obtain ⟨i, rfl⟩ := calls
    exact program_keeps F i
  | resume | restart => exact trivial
  | alone t => exact calls.elim

theorem revoked_device_severed (F : UuidFormat) {s : State} (started : s.Started)
    {run : List (Move machine AppError Response)} (calls : ∀ move ∈ run, Calls F move)
    (clear : Clear Detached ((World.start (M := machine) s).after run).trace) :
    Severed ((World.start (M := machine) s).after run) := by
  obtain ⟨modes, governs⟩ := World.after_governed upgrades_sound
    (World.start_governed (C := upgrades) started.fits) (fun move inside => (calls move inside).follow) clear
  have fits : Fits _ modes _ := governs.fit
  exact ⟨fun e inside sent enqueues _ => fits.unsent e inside sent enqueues,
    fun _ _ userId deviceId _ _ _ revoked => (fits.cut userId deviceId revoked).absent⟩

section Examples

def unary : UuidFormat where
  text id := String.ofList (List.replicate id 'x')
  parse text := some text.length
  parse_text := Server.tally_length

/-- Users 1 and 2 are in the group 1, which is not encrypted; user 1 has two devices. -/
def groupOfTwo : State where
  app :=
    { db :=
        { username := toString
          conversations := LinkedMap.empty.insert 1 ⟨.group, false, none⟩
          members := fun _ => (LinkedMap.empty.insert 1 false).insert 2 false
          contacts := []
          directConversations := .empty
          channels := [⟨5, 1, true, 0, 0, false⟩]
          messages := []
          deviceContents := []
          deliveries := []
          blockedUsers := []
          revokedDevices := [] }
      hub := .new
      connections := []
      memberIdsCache := fun _ => none
      now := 7
      faults := []
      uuids := fun n => 20 + n }
  ticketStore := .empty
  random n := String.ofList (List.replicate n 'x')
  identityKeys := [(1, 1), (1, 2)]
  usernames _ := some "user"
  starts := 0

def played (calls : List (Input ⊕ Nat)) : World machine AppError Response :=
  (World.start (M := machine) groupOfTwo).after (World.schedule (program unary) calls)

def hello : Input := .server (.send ⟨2, 1, "2", some 1, none, none, "hello", none, none, none, none, none⟩)

/-- The device of the other session is revoked; what is said later stays in the group. -/
theorem revoked_device_severed_offline :
    let calls := World.oneByOne 40 [.wsTicket 1 (some 2), .wsUpgrade "", .revokeDevice 1 1, hello]
    (1, 1) ∈ (State.app (played calls).state).db.revokedDevices ∧ Severed (played calls) := by
  have fine : ∀ calls, Clear Detached (played calls).trace → Severed (played calls) :=
    fun calls clear => revoked_device_severed unary ⟨rfl, rfl, rfl⟩ (World.schedule_makes _ _) clear
  exact ⟨by decide +kernel, fine _ (by decide +kernel)⟩

/-- The device is connected when it is revoked and gets what is said afterwards; and a ticket from
before the revocation brings a device back into the hub. -/
theorem revoked_device_still_served :
    (∃ run, (∀ move ∈ run, Calls unary move) ∧ ¬ Severed ((World.start (M := machine) groupOfTwo).after run)) ∧
      ∃ before after, (∀ move ∈ before ++ after, Calls unary move) ∧
        (1, 1) ∈ (State.app ((World.start (M := machine) groupOfTwo).after before).state).db.revokedDevices ∧
        (State.app ((World.start (M := machine) groupOfTwo).after before).state).hub.connection 1 1 = none ∧
        ((State.app ((World.start (M := machine) groupOfTwo).after (before ++ after)).state).hub.connection 1
          1).isSome := by
  constructor
  · refine ⟨World.schedule (program unary) (World.oneByOne 40 [.wsTicket 1 (some 1), .wsUpgrade "",
      .revokeDevice 1 1, hello]), World.schedule_makes _ _, fun severed => ?_⟩
    have served : ∃ e ∈ (played (World.oneByOne 40 [.wsTicket 1 (some 1), .wsUpgrade "", .revokeDevice 1 1,
        hello])).trace, ∃ sent ∈ enqueued e, isMessage sent.2 = true ∧
        (sent.1.userId, sent.1.deviceId) ∈ (State.app e.before).db.revokedDevices := by
      decide +kernel
    obtain ⟨e, inside, sent, enqueues, message, revoked⟩ := served
    exact severed.unsent e inside sent enqueues message revoked
  · refine ⟨World.schedule (program unary) (World.oneByOne 40 [.wsTicket 1 (some 1), .revokeDevice 1 1]),
      World.schedule (program unary) (.inl (.wsUpgrade "") :: List.replicate 40 (.inr 2)), ?_, ?_, ?_, ?_⟩
    · intro move inside
      rcases List.mem_append.mp inside with early | late
      · exact World.schedule_makes _ _ move early
      · exact World.schedule_makes _ _ move late
    · decide +kernel
    · decide +kernel
    · decide +kernel

end Examples

end Claim
end Echo.Devices
