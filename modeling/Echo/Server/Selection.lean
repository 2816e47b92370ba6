import Echo.Server.Backlog
import Echo.Server.Ciphertexts

/-! Whom a message reaches: by the fan-out if the device is online, by the replay if it is not. -/
namespace Echo.Server
open Echo.Lib

section Online

/-- Connection `k` is the one of the device, and of no other. -/
structure Online (s : AppState) (u : Uuid) (d : Int) (k : Nat) (c : Connection) : Prop where
  registered : s.hub.connection u d = some k
  own : ∀ u' d', s.hub.connection u' d' = some k → u' = u ∧ d' = d
  there : s.connections[k]? = some c

def Received (s : AppState) (k : Nat) (id : Uuid) : Prop :=
  ∃ c n, s.connections[k]? = some c ∧ .newMessage n ∈ c.log ∧ n.messageId = id

def Connection.hasRoom (c : Connection) : Bool := c.isOpen && !c.isFull

def noOne (_ _ : AppState) : Prop := False

theorem noOne_path {s s' : AppState} (path : Relation.ReflTransGen noOne s s') : s = s' := by
  cases path with
  | refl => rfl
  | tail _ moved => exact moved.elim

variable {s s' : AppState} {u : Uuid} {d : Int} {k : Nat} {c : Connection} {β : Type}

variable {r : Request}

theorem alone_ask_bind {f : Answer r → Task β} {result : Except Empty β}
    (ran : Async.Runs noOne ((ask r).bind f) s result s') :
    ∃ (a : Answer r) (after : AppState), AppState.perform r s = some (a, after) ∧
      Async.Runs noOne (f a) after result s' := by
  obtain ⟨before, a, after, path, answered, rest⟩ := Runs.of_ask_bind ran
  cases noOne_path path
  exact ⟨a, after, answered, rest⟩

theorem alone_ask {result : Except Empty (Answer r)} (ran : Async.Runs noOne (ask r) s result s') :
    ∃ (a : Answer r) (after : AppState), AppState.perform r s = some (a, after) ∧ after = s' := by
  have ran : Async.Runs noOne (.call (M := machine) r fun a => .await (.done (.ok a))) s result s' := ran
  obtain ⟨before, a, after, path, answered, rest⟩ := ran.of_call
  cases noOne_path path
  exact ⟨a, after, answered, noOne_path rest.of_await.of_done.2⟩

theorem Online.congr (online : Online s u d k c) (hub : s'.hub.connections = s.hub.connections)
    (there : s'.connections[k]? = some c) : Online s' u d k c := by
  have same : s'.hub.connection = s.hub.connection := by
    unfold Hub.connection
    rw [hub]
  exact ⟨same ▸ online.registered, same ▸ online.own, there⟩

theorem Online.trySend (online : Online s u d k c) {u' : Uuid} {d' : Int} {tx : Nat} {frame : Frame} {sent : Bool}
    (other : ¬ (u' = u ∧ d' = d)) (apart : tx ≠ k) (answered : s.trySend u' d' tx frame = (sent, s')) :
    Online s' u d k c := by
  cases sent with
  | true =>
    obtain ⟨c', -, -, -, connections, hub⟩ := AppState.trySend_true answered
    refine online.congr hub ?_
    rw [connections, List.getElem?_set_ne apart]
    exact online.there
  | false =>
    obtain ⟨connections, hub | ⟨-, hub⟩⟩ := AppState.trySend_false answered
    · exact online.congr hub (connections ▸ online.there)
    · have removed : ∀ u₁ d₁, s'.hub.connection u₁ d₁ = if u₁ = u' ∧ d₁ = d' then none else s.hub.connection u₁ d₁ := by
        intro u₁ d₁
        rw [← Hub.connection_unregister]
        unfold Hub.connection
        rw [hub]
      refine ⟨?_, ?_, connections ▸ online.there⟩
      · rw [removed, if_neg fun same => other ⟨same.1.symm, same.2.symm⟩]
        exact online.registered
      · intro u₁ d₁ found
        rw [removed] at found
        split at found
        · cases found
        · exact online.own u₁ d₁ found

theorem Online.trySend_self (online : Online s u d k c) (room : c.hasRoom = true) {frame : Frame} {sent : Bool}
    (answered : s.trySend u d k frame = (sent, s')) : s'.connections[k]? = some (c.push frame) := by
  simp only [Connection.hasRoom, Bool.and_eq_true, Bool.not_eq_true'] at room
  cases sent with
  | true =>
    obtain ⟨c', there, -, -, connections, -⟩ := AppState.trySend_true answered
    rw [online.there] at there
    cases there
    rw [connections, List.getElem?_set_self (List.getElem?_eq_some_iff.mp online.there).1]
  | false =>
    simp [AppState.trySend, online.there, room] at answered

theorem Received.push {s' : AppState} {n : NewMessage} (pushed : s'.connections[k]? = some (c.push (.newMessage n))) :
    Received s' k n.messageId :=
  ⟨_, n, pushed, by simp [Connection.log, Connection.push], rfl⟩

theorem Received.step {a : Answer r} {id : Uuid} (answered : AppState.perform r s = some (a, s'))
    (received : Received s k id) : Received s' k id := by
  obtain ⟨c, n, there, inside, named⟩ := received
  obtain ⟨c', there', -, -, kept⟩ := (AppState.perform_conn answered).kept there
  exact ⟨c', n, there', kept _ inside, named⟩

theorem Received.run {t : Task β} {result : Except Empty β} {id : Uuid} (received : Received s k id)
    (ran : Async.Runs noOne t s result s') : Received s' k id :=
  ran.keeps (I := fun s => Received s k id) received
    (fun {r a s s'} (answered : AppState.perform r s = some (a, s')) received => received.step answered)
    fun moved => moved.elim

end Online

section Live
variable {s s' : AppState} {u : Uuid} {d : Int} {k : Nat} {c : Connection} {id : Uuid} {β : Type}

variable {u' : Uuid} {n message : NewMessage} {result : Except Empty (List Int)}
variable {rdc : Option ParsedRecipientDeviceContents}

theorem sendToDevice_other (online : Online s u d k c) {d' : Int} (other : ¬ (u' = u ∧ d' = d))
    {frame : Frame} {result : Except Empty Bool} (ran : Async.Runs noOne (sendToDevice u' d' frame) s result s') :
    Online s' u d k c := by
  obtain ⟨tx, after, answered, rest⟩ := alone_ask_bind ran
  obtain ⟨found, rfl⟩ := Prod.mk.inj (Option.some.inj answered)
  cases tx with
  | none =>
    cases noOne_path rest.of_done.2
    exact online
  | some tx =>
    obtain ⟨sent, after, answered, rfl⟩ := alone_ask rest
    refine online.trySend other ?_ (Option.some.inj answered)
    rintro rfl
    exact other (online.own u' d' found)

theorem sendToDevice_self (online : Online s u d k c) (room : c.hasRoom = true)
    {result : Except Empty Bool} (ran : Async.Runs noOne (sendToDevice u d (.newMessage n)) s result s') :
    Received s' k n.messageId := by
  obtain ⟨tx, after, answered, rest⟩ := alone_ask_bind ran
  obtain ⟨found, rfl⟩ := Prod.mk.inj (Option.some.inj answered)
  cases online.registered.symm.trans found
  obtain ⟨sent, after, answered, rfl⟩ := alone_ask rest
  exact Received.push (online.trySend_self room (Option.some.inj answered))

/-- What a part of the fan-out does for the device: it is given the message if it is meant, and
else left as it is. -/
structure Handled (meant : Prop) (u : Uuid) (d : Int) (k : Nat) (c : Connection) (id : Uuid) (s : AppState) :
    Prop where
  given : meant → Received s k id
  left : ¬ meant → Online s u d k c

theorem Handled.andThen {first second both : Prop} {t : Task β} {result : Except Empty β}
    (handled : Handled first u d k c id s) (ran : Async.Runs noOne t s result s')
    (next : Online s u d k c → Handled second u d k c id s') (split : both ↔ first ∨ second) :
    Handled both u d k c id s' := by
  by_cases now : first
  · exact ⟨fun _ => (handled.given now).run ran, fun not => (not (split.mpr (.inl now))).elim⟩
  · have later := next (handled.left now)
    exact ⟨fun meant => later.given ((split.mp meant).resolve_left now),
      fun not => later.left fun meant => not (split.mpr (.inr meant))⟩

theorem sendEach_handled (online : Online s u d k c) (room : c.hasRoom = true)
    {frames : List (Int × Frame)} (ours : ∀ f ∈ frames, ∃ n, f.2 = .newMessage n ∧ n.messageId = id)
    (ran : Async.Runs noOne (sendEach u' frames) s result s') :
    Handled (u' = u ∧ d ∈ frames.map Prod.fst) u d k c id s' := by
  induction frames generalizing s result with
  | nil =>
    cases noOne_path ran.of_done.2
    exact ⟨fun meant => by simp at meant, fun _ => online⟩
  | cons frame frames ih =>
    obtain ⟨first, rest⟩ := List.forall_mem_cons.mp ours
    obtain ⟨n, new, named⟩ := first
    obtain ⟨d', f⟩ := frame
    obtain rfl : f = .newMessage n := new
    obtain ⟨sent, between, first, ran⟩ := Runs.of_bind ran
    have handled : Handled (u' = u ∧ d' = d) u d k c id between := by
      constructor
      · rintro ⟨rfl, rfl⟩
        exact named ▸ sendToDevice_self online room first
      · intro other
        exact sendToDevice_other online other first
    have next : Online between u d k c → Handled (u' = u ∧ d ∈ frames.map Prod.fst) u d k c id s' := by
      intro online
      obtain ⟨accepted, final, others, last⟩ := Runs.of_bind ran
      cases noOne_path last.of_done.2
      exact ih online rest others
    refine handled.andThen ran next ?_
    rw [List.map_cons, List.mem_cons, and_or_left, eq_comm (a := d)]

theorem trySendEach_handled (online : Online s u d k c) (room : c.hasRoom = true)
    {devices : List (Int × Nat)} (known : ∀ e ∈ devices, e.2 = k ↔ u' = u ∧ e.1 = d)
    (ran : Async.Runs noOne (trySendEach u' (.newMessage n) devices) s result s') :
    Handled (u' = u ∧ d ∈ devices.map Prod.fst) u d k c n.messageId s' := by
  induction devices generalizing s result with
  | nil =>
    cases noOne_path ran.of_done.2
    exact ⟨fun meant => by simp at meant, fun _ => online⟩
  | cons device devices ih =>
    obtain ⟨first, rest⟩ := List.forall_mem_cons.mp known
    obtain ⟨d', tx⟩ := device
    obtain ⟨sent, between, answered, ran⟩ := alone_ask_bind ran
    have handled : Handled (u' = u ∧ d' = d) u d k c n.messageId between := by
      constructor
      · intro ours
        obtain rfl : tx = k := first.mpr ours
        obtain ⟨rfl, rfl⟩ := ours
        exact Received.push (online.trySend_self room (Option.some.inj answered))
      · intro other
        exact online.trySend other (fun same => other (first.mp same)) (Option.some.inj answered)
    have next : Online between u d k c → Handled (u' = u ∧ d ∈ devices.map Prod.fst) u d k c n.messageId s' := by
      intro online
      obtain ⟨accepted, final, others, last⟩ := Runs.of_bind ran
      cases noOne_path last.of_done.2
      exact ih online rest others
    refine handled.andThen ran next ?_
    rw [List.map_cons, List.mem_cons, and_or_left, eq_comm (a := d)]

theorem mem_devicesOf {hub : Hub} {u : Uuid} {e : Int × Nat} :
    e ∈ ((hub.connections.find u).map LinkedMap.entries).getD [] ↔ hub.connection u e.1 = some e.2 := by
  unfold Hub.connection
  cases hub.connections.find u with
  | none => simp
  | some devices => exact LinkedMap.find_eq_some.symm

theorem Online.devicesOf (online : Online s u d k c) (u' : Uuid) :
    ∀ e ∈ ((s.hub.connections.find u').map LinkedMap.entries).getD [], e.2 = k ↔ u' = u ∧ e.1 = d := by
  intro e inside
  have found := mem_devicesOf.mp inside
  constructor
  · intro same
    exact online.own u' e.1 (same ▸ found)
  · rintro ⟨rfl, same⟩
    rw [same, online.registered] at found
    exact (Option.some.inj found).symm

theorem Online.mem_devicesOf (online : Online s u d k c) :
    d ∈ (((s.hub.connections.find u).map LinkedMap.entries).getD []).map Prod.fst :=
  List.mem_map.mpr ⟨(d, k), Echo.Server.mem_devicesOf.mpr online.registered, rfl⟩

theorem sendToUserCollecting_handled (online : Online s u d k c) (room : c.hasRoom = true)
    (ran : Async.Runs noOne (sendToUserCollecting u' (.newMessage n)) s result s') :
    Handled (u' = u) u d k c n.messageId s' := by
  obtain ⟨devices, after, answered, rest⟩ := alone_ask_bind ran
  obtain ⟨rfl, rfl⟩ := Prod.mk.inj (Option.some.inj answered)
  have handled := trySendEach_handled online room (online.devicesOf u') rest
  refine ⟨fun same => handled.given ⟨same, ?_⟩, fun other => handled.left fun meant => other meant.1⟩
  subst same
  exact online.mem_devicesOf

def Names (rdc : Option ParsedRecipientDeviceContents) (u : Uuid) (d : Int) : Prop :=
  ∀ r, rdc = some r → ∀ devices, r.byUser.find u = some devices → (devices.find d).isSome

theorem deliverToMember_handled (online : Online s u d k c) (room : c.hasRoom = true)
    (ran : Async.Runs noOne (deliverToMember message rdc u') s result s') :
    Handled (u' = u ∧ Names rdc u d) u d k c message.messageId s' := by
  unfold deliverToMember at ran
  split at ran
  · rename_i frames framed
    obtain ⟨r, rfl, framed⟩ := Option.bind_eq_some_iff.mp framed
    obtain ⟨devices, named, rfl⟩ := Option.map_eq_some_iff.mp framed
    have ours : ∀ f ∈ devices.entries.map fun e => (e.1, Frame.newMessage
        { message with content := e.2, undecryptable := none }),
        ∃ n, f.2 = .newMessage n ∧ n.messageId = message.messageId := by
      intro f inside
      obtain ⟨e, -, rfl⟩ := List.mem_map.mp inside
      exact ⟨_, rfl, rfl⟩
    have handled := sendEach_handled online room ours ran
    rw [List.map_map] at handled
    have meant : (u' = u ∧ Names (some r) u d) ↔ u' = u ∧ d ∈ devices.entries.map Prod.fst := by
      refine and_congr_right fun same => ?_
      subst same
      rw [← LinkedMap.find_isSome]
      constructor
      · intro names
        exact names r rfl devices named
      · rintro there r' same devices' named'
        cases same
        cases named.symm.trans named'
        exact there
    rw [meant]
    exact handled
  · rename_i unnamed
    have handled := sendToUserCollecting_handled online room ran
    refine ⟨fun meant => handled.given meant.1, fun not => handled.left ?_⟩
    rintro rfl
    refine not ⟨rfl, fun r given devices found => ?_⟩
    subst given
    simp [perDeviceFrames, found] at unnamed

theorem deliverToMembers_handled (online : Online s u d k c) (room : c.hasRoom = true) {members : List Uuid}
    {result : Except Empty (List (Uuid × Int))}
    (ran : Async.Runs noOne (deliverToMembers message rdc members) s result s') :
    Handled (u ∈ members ∧ Names rdc u d) u d k c message.messageId s' := by
  induction members generalizing s result with
  | nil =>
    cases noOne_path ran.of_done.2
    exact ⟨fun meant => by simp at meant, fun _ => online⟩
  | cons member members ih =>
    obtain ⟨accepted, between, first, ran⟩ := Runs.of_bind ran
    have next : Online between u d k c →
        Handled (u ∈ members ∧ Names rdc u d) u d k c message.messageId s' := by
      intro online
      obtain ⟨accepted, final, others, last⟩ := Runs.of_bind ran
      cases noOne_path last.of_done.2
      exact ih online others
    refine (deliverToMember_handled online room first).andThen ran next ?_
    rw [List.mem_cons, or_and_right, eq_comm (a := u)]

theorem trySendEach_other (online : Online s u d k c) (other : u' ≠ u) {frame : Frame}
    {devices : List (Int × Nat)} (known : ∀ e ∈ devices, e.2 ≠ k)
    (ran : Async.Runs noOne (trySendEach u' frame devices) s result s') : Online s' u d k c := by
  induction devices generalizing s result with
  | nil =>
    cases noOne_path ran.of_done.2
    exact online
  | cons device devices ih =>
    obtain ⟨first, rest⟩ := List.forall_mem_cons.mp known
    obtain ⟨sent, between, answered, ran⟩ := alone_ask_bind ran
    obtain ⟨accepted, final, others, last⟩ := Runs.of_bind ran
    cases noOne_path last.of_done.2
    exact ih (online.trySend (fun same => other same.1) first (Option.some.inj answered)) rest others

theorem deliverToSenderOtherDevices_other (online : Online s u d k c)
    (other : message.fromUserId ≠ u) {senderDeviceId : Int}
    {result : Except Empty Unit}
    (ran : Async.Runs noOne (deliverToSenderOtherDevices message senderDeviceId rdc) s result s') :
    Online s' u d k c := by
  unfold deliverToSenderOtherDevices at ran
  split at ran
  · cases noOne_path ran.of_done.2
    exact online
  · obtain ⟨accepted, between, ran, last⟩ := Runs.of_bind ran
    cases noOne_path last.of_done.2
    obtain ⟨devices, after, answered, rest⟩ := alone_ask_bind ran
    obtain ⟨rfl, rfl⟩ := Prod.mk.inj (Option.some.inj answered)
    refine trySendEach_other online other (fun e inside same => ?_) rest
    exact other ((online.devicesOf message.fromUserId e (List.mem_filter.mp inside).1).mp same).1

theorem markDevicesDeliveredPairs_other (online : Online s u d k c) {messageId : Uuid} {pairs : List (Uuid × Int)}
    {result : Except Empty Unit} (ran : Async.Runs noOne (markDevicesDeliveredPairs messageId pairs) s result s') :
    Online s' u d k c := by
  unfold markDevicesDeliveredPairs at ran
  split at ran
  · cases noOne_path ran.of_done.2
    exact online
  · obtain ⟨a, after, answered, last⟩ := alone_ask_bind ran
    cases noOne_path last.of_done.2
    simp only [AppState.perform] at answered
    split at answered <;> obtain ⟨-, rfl⟩ := Prod.mk.inj (Option.some.inj answered) <;>
      exact online.congr rfl online.there

end Live

section Fanout

/-- The member list the fan-out works with: the cached one while it is fresh. -/
def memberIdsAt (s : AppState) (conversationId : Uuid) : List Uuid :=
  (((s.memberIdsCache conversationId).filter fun e => s.now - e.2 < membershipCacheTtl).map Prod.fst).getD
    (s.db.getConversationMemberIds conversationId)

variable {s s' : AppState} {u : Uuid} {d : Int} {k : Nat} {c : Connection}

theorem getMemberIdsCached_run (online : Online s u d k c) (working : s.faults = []) {conversationId : Uuid}
    {result : Except Empty (Except Unit (List Uuid))}
    (ran : Async.Runs noOne (getMemberIdsCached conversationId) s result s') :
    result = .ok (.ok (memberIdsAt s conversationId)) ∧ Online s' u d k c ∧ s'.db = s.db ∧ s'.faults = [] := by
  obtain ⟨cached, after, answered, rest⟩ := alone_ask_bind ran
  obtain ⟨found, rfl⟩ := Prod.mk.inj (Option.some.inj answered)
  unfold memberIdsAt
  rw [found]
  cases cached with
  | some ids =>
    obtain ⟨rfl, path⟩ := rest.of_done
    cases noOne_path path
    exact ⟨rfl, online, rfl, working⟩
  | none =>
    have fine : s.fault = false := by simp [AppState.fault, working]
    obtain ⟨before, path, rest⟩ := Runs.of_query_bind rest
    cases noOne_path path
    rw [fine] at rest
    obtain ⟨a, after, answered, last⟩ := alone_ask_bind rest
    obtain ⟨-, rfl⟩ := Prod.mk.inj (Option.some.inj answered)
    obtain ⟨rfl, path⟩ := last.of_done
    cases noOne_path path
    exact ⟨rfl, online.congr rfl online.there, rfl, by simp [AppState.faulted, working]⟩

theorem fanoutTo_handled (online : Online s u d k c) (room : c.hasRoom = true) {message : NewMessage}
    (other : message.fromUserId ≠ u) {senderDeviceId : Int} {rdc : Option ParsedRecipientDeviceContents}
    {recipients : List Uuid} {result : Except Empty Unit}
    (ran : Async.Runs noOne (fanoutTo message senderDeviceId rdc recipients) s result s') :
    Handled (u ∈ recipients ∧ Names rdc u d) u d k c message.messageId s' := by
  obtain ⟨accepted, s₁, delivered, ran⟩ := Runs.of_bind ran
  have next : Online s₁ u d k c → Handled False u d k c message.messageId s' := by
    intro online
    refine ⟨False.elim, fun _ => ?_⟩
    obtain ⟨_, s₂, marked, ran⟩ := Runs.of_bind ran
    obtain ⟨_, s₃, others, ran⟩ := Runs.of_bind ran
    have online := deliverToSenderOtherDevices_other (markDevicesDeliveredPairs_other online marked) other others
    split at ran
    · cases noOne_path ran.of_done.2
      exact online
    · obtain ⟨_, s₄, confirmed, last⟩ := Runs.of_bind ran
      cases noOne_path last.of_done.2
      exact sendToDevice_other online (fun same => other same.1) confirmed
  exact (deliverToMembers_handled online room delivered).andThen ran next (or_iff_left id).symm

/-- The device gets a ciphertext of its own, or its user is not in the map. -/
def Serves (db : Database) (rdc : Option ParsedRecipientDeviceContents) (u : Uuid) (d : Int) : Prop :=
  ∀ r, rdc = some r → ∀ devices, r.byUser.find u = some devices →
    (devices.find d).isSome ∧ (u, d) ∉ db.revokedDevices

theorem names_withoutRevoked (db : Database) (r : ParsedRecipientDeviceContents) :
    Names (some (withoutRevoked r (db.getRevokedDevicesForUsers r.recipientIds))) u d ↔ Serves db (some r) u d := by
  have spared : ∀ devices : DeviceContents, r.byUser.find u = some devices →
      (((devices.keep fun e => (u, e.1) ∉ db.getRevokedDevicesForUsers r.recipientIds).find d).isSome ↔
        (devices.find d).isSome ∧ (u, d) ∉ db.revokedDevices) := by
    intro devices found
    have named : u ∈ r.recipientIds := LinkedMap.find_isSome.mp (found ▸ rfl)
    rw [LinkedMap.find_keep]
    cases devices.find d with
    | none => simp
    | some ct => simp [Option.filter, Database.getRevokedDevicesForUsers, named]
  constructor
  · rintro names _ ⟨⟩ devices found
    refine (spared devices found).mp (names _ rfl _ ?_)
    rw [withoutRevoked_find, found]
    rfl
  · rintro serves _ ⟨⟩ devices found
    rw [withoutRevoked_find] at found
    obtain ⟨whole, named, rfl⟩ := Option.map_eq_some_iff.mp found
    exact (spared whole named).mpr (serves r rfl whole named)

theorem mem_getBlockersOf {db : Database} {ids : List Uuid} {target : Uuid} :
    u ∈ db.getBlockersOf ids target ↔ u ∈ ids ∧ (u, target) ∈ db.blockedUsers := by
  simp only [Database.getBlockersOf, List.mem_map, List.mem_filter, decide_eq_true_eq]
  constructor
  · rintro ⟨⟨_, _⟩, ⟨inside, member, rfl⟩, rfl⟩
    exact ⟨member, inside⟩
  · rintro ⟨member, inside⟩
    exact ⟨_, ⟨inside, member, rfl⟩, rfl⟩

theorem mem_eligible {db : Database} {sender : Uuid} {memberIds : List Uuid} (other : sender ≠ u) :
    u ∈ eligible sender memberIds (db.getBlockersOf memberIds sender) ↔
      u ∈ memberIds ∧ (u, sender) ∉ db.blockedUsers := by
  simp only [eligible, List.mem_filter, decide_eq_true_eq, mem_getBlockersOf, not_and]
  exact and_congr_right fun member => ⟨fun apart => apart.2 member, fun open_ => ⟨other.symm, fun _ => open_⟩⟩

theorem fanoutMessage_handled (online : Online s u d k c) (room : c.hasRoom = true) (working : s.faults = [])
    {message : NewMessage} (other : message.fromUserId ≠ u) {senderDeviceId : Int}
    {rdc : Option ParsedRecipientDeviceContents} {result : Except Empty Unit}
    (ran : Async.Runs noOne (fanoutMessage message senderDeviceId rdc) s result s') :
    Handled (u ∈ memberIdsAt s message.conversationId ∧ (u, message.fromUserId) ∉ s.db.blockedUsers ∧
      Serves s.db rdc u d) u d k c message.messageId s' := by
  obtain ⟨ids, s₁, first, ran⟩ := Runs.of_bind ran
  obtain ⟨same, online, db, fine⟩ := getMemberIdsCached_run online working first
  cases same
  obtain ⟨blockers, s₂, asked, ran⟩ := Runs.of_bind ran
  obtain ⟨answer, between, asked, path, read⟩ := Runs.of_unwrapOrDefault asked
  cases noOne_path path
  obtain ⟨before, path, same, path'⟩ := Runs.of_query asked
  cases noOne_path path
  cases noOne_path path'
  cases same
  have calm : s₁.fault = false := by simp [AppState.fault, fine]
  obtain rfl : blockers = s.db.getBlockersOf (memberIdsAt s message.conversationId) message.fromUserId := by
    rw [calm, db] at read
    exact Except.ok.inj read
  have here : Online s₁.faulted u d k c := online.congr rfl online.there
  cases rdc with
  | none =>
    have handled := fanoutTo_handled here room other ran
    rw [mem_eligible other] at handled
    refine ⟨fun meant => handled.given ⟨⟨meant.1, meant.2.1⟩, nofun⟩, fun not => handled.left fun meant => not ?_⟩
    exact ⟨meant.1.1, meant.1.2, nofun⟩
  | some r =>
    obtain ⟨r', s₃, filtered, ran⟩ := Runs.of_bind ran
    obtain ⟨before, path, filtered⟩ := Runs.of_query_bind filtered
    cases noOne_path path
    have still : s₁.faulted.fault = false := by simp [AppState.fault, AppState.faulted, fine]
    rw [still] at filtered
    obtain ⟨same, path⟩ := filtered.of_done
    cases noOne_path path
    cases same
    have here : Online s₁.faulted.faulted u d k c := online.congr rfl online.there
    have handled := fanoutTo_handled here room other ran
    have same : (AppState.faulted s₁).db = s.db := db
    rw [mem_eligible other, Query.eval, same, names_withoutRevoked, and_assoc] at handled
    exact handled

end Fanout

section Offline
variable {m : SendMessage} {rdc : Option ParsedRecipientDeviceContents} {blockers : List Uuid} {inserted : Bool}
  {row row' : MessageRow} {s s' : AppState} {u : Uuid} {d : Int}

def Replayed (db : Database) (u : Uuid) (d : Int) (id : Uuid) : Prop :=
  ∃ cursor, ∃ msg ∈ db.getUndelivered u d cursor, msg.id = id ∧
    let ids := (db.getUndelivered u d cursor).map MessageWithSender.id
    (classifyReplayContent msg.id msg.content (db.getDeviceContentsBatch ids u d)
      (db.messageIdsWithAnyDeviceContent ids u)).2 = none

/-- What `get_undelivered` asks of the message and its reader. -/
structure Entitled (db : Database) (u : Uuid) (row : MessageRow) : Prop where
  member : db.isMember row.conversationId u = true
  standing : row.isDeleted = false
  ordinary : isSystem row.content = false

def Marked (rdc : Option ParsedRecipientDeviceContents) (blockers : List Uuid) (inserted : Bool) (u : Uuid) (d : Int) :
    Prop := Stored rdc blockers inserted u ∧ ciphertextOf rdc u d = none

theorem isUndelivered_iff {db : Database} (other : row.senderId ≠ u) (offline : db.isRecorded row.id u d = false) :
    db.isUndelivered u d row = true ↔ Entitled db u row := by
  simp only [Database.isUndelivered, offline, Bool.and_eq_true, Bool.not_eq_true', Bool.not_false, and_true,
    decide_eq_true_eq]
  exact ⟨fun ⟨⟨⟨member, _⟩, standing⟩, ordinary⟩ => ⟨member, standing, ordinary⟩,
    fun entitled => ⟨⟨⟨entitled.member, other⟩, entitled.standing⟩, entitled.ordinary⟩⟩

theorem Persisted.classified (persisted : Persisted m rdc blockers inserted row s)
    (later : Later (Unwritten row.id) row.id s s') {ids : List Uuid} (asked : row.id ∈ ids) (canonical : String) :
    (classifyReplayContent row.id canonical (s'.db.getDeviceContentsBatch ids u d)
      (s'.db.messageIdsWithAnyDeviceContent ids u)).2 = none ↔ ¬ Marked rdc blockers inserted u d := by
  have own := persisted.own (u := u) (d := d) later asked
  have any := persisted.anyOf (u := u) later asked
  unfold classifyReplayContent
  split
  · rename_i e first
    rw [first, Option.map_some] at own
    refine iff_of_true rfl ?_
    rintro ⟨stored, unnamed⟩
    rw [if_pos ⟨stored.inserted, stored.unblocked⟩, unnamed] at own
    cases own
  · rename_i first
    rw [first, Option.map_none] at own
    by_cases inside : row.id ∈ s'.db.messageIdsWithAnyDeviceContent ids u
    · have stored := any.mp inside
      rw [if_pos ⟨stored.inserted, stored.unblocked⟩] at own
      rw [if_pos inside]
      exact iff_of_false (by simp) fun not => not ⟨stored, own.symm⟩
    · rw [if_neg inside]
      exact iff_of_true rfl fun marked => inside (any.mpr marked.1)

theorem replayed_iff (persisted : Persisted m rdc blockers inserted row s)
    (later : Later (Unwritten row.id) row.id s s') (unique : s'.db.Unique) (there : row' ∈ s'.db.messages)
    (same : row'.id = row.id) (other : m.senderId ≠ u) (offline : s'.db.isRecorded row.id u d = false) :
    Replayed s'.db u d row.id ↔ Entitled s'.db u row' ∧ ¬ Marked rdc blockers inserted u d := by
  obtain ⟨_, only⟩ := persisted.only
  have sender : row'.senderId ≠ u := by
    obtain ⟨s₁, s₂, s₃, conversationId, channelId, ttl, -, stored, -⟩ := persisted
    obtain ⟨made, -⟩ := Database.storeMessage_ok (stored_inserted stored)
    rw [((later.origin ‹_› only).2 row' there same).senderId, made]
    exact other
  have waiting := isUndelivered_iff sender (same ▸ offline)
  constructor
  · rintro ⟨cursor, msg, inside, named, plain⟩
    have asked := List.mem_map_of_mem (f := MessageWithSender.id) inside
    rw [named] at asked plain
    refine ⟨?_, (persisted.classified later asked _).mp plain⟩
    obtain ⟨found, page, rfl⟩ := List.mem_map.mp inside
    obtain ⟨here, undelivered, -⟩ := Database.mem_backlog.mp (List.mem_of_mem_take page)
    have alike : found.id = row'.id := named.trans same.symm
    rw [unique.eq here there alike] at undelivered
    exact waiting.mp undelivered
  · rintro ⟨entitled, unmarked⟩
    obtain ⟨cursor, page⟩ := Database.exists_page unique there (waiting.mpr entitled)
    have inside : s'.db.withSender row' ∈ s'.db.getUndelivered u d cursor := List.mem_map_of_mem page
    have asked := List.mem_map_of_mem (f := MessageWithSender.id) inside
    have named : (s'.db.withSender row').id = row.id := same
    rw [named] at asked
    refine ⟨cursor, _, inside, named, ?_⟩
    rw [named]
    exact (persisted.classified later asked _).mpr unmarked

end Offline

section Claim
variable {m : SendMessage} {rdc : Option ParsedRecipientDeviceContents} {blockers : List Uuid} {inserted : Bool}
  {row row' : MessageRow} {s offline s' live : AppState} {u : Uuid} {d : Int}

def AppState.Hubbed (s : AppState) : Prop :=
  ∀ u d tx, s.hub.connection u d = some tx → tx < s.connections.length

def AppState.connected (s : AppState) (u : Uuid) (d : Int) : AppState :=
  { s with
    hub := s.hub.register u d s.connections.length
    connections := s.connections ++ [.fresh u d] }

theorem Online.connected (hubbed : s.Hubbed) (u : Uuid) (d : Int) :
    Online (s.connected u d) u d s.connections.length (.fresh u d) := by
  refine ⟨by simp [AppState.connected, Hub.connection_register], ?_, by simp [AppState.connected]⟩
  intro u' d' found
  simp only [AppState.connected, Hub.connection_register] at found
  split at found
  · assumption
  · exact absurd (hubbed u' d' _ found) (lt_irrefl _)

/-- If the sender is blocked or the map does not serve the device, the reader must not be
entitled any more or get a marker; else it must be a member exactly if it was one. -/
structure SelectsAlike (offline : AppState) (later : Database) (conversationId sender : Uuid)
    (rdc : Option ParsedRecipientDeviceContents) (blockers : List Uuid) (inserted : Bool) (u : Uuid) (d : Int)
    (row : MessageRow) : Prop where
  passedOver : (u, sender) ∈ offline.db.blockedUsers ∨ ¬ Serves offline.db rdc u d →
    Entitled later u row → Marked rdc blockers inserted u d
  served : (u, sender) ∉ offline.db.blockedUsers → Serves offline.db rdc u d →
    (Entitled later u row ↔ u ∈ memberIdsAt offline conversationId)

theorem Serves.unmarked {db : Database} (serves : Serves db rdc u d) : ¬ Marked rdc blockers inserted u d := by
  rintro ⟨⟨-, -, device, some_⟩, unnamed⟩
  obtain ⟨ct, named⟩ := Option.isSome_iff_exists.mp some_
  simp only [ciphertextOf, ParsedRecipientDeviceContents.ciphertext, Option.bind_eq_some_iff] at named
  obtain ⟨r, rfl, devices, found, -⟩ := named
  have own := (serves r rfl devices found).1
  simp only [ciphertextOf, ParsedRecipientDeviceContents.ciphertext, found, Option.bind_some] at unnamed
  rw [unnamed] at own
  cases own

theorem Later.trans {allowed : Request → Prop} {id : Uuid} {s₁ s₂ s₃ : AppState} (first : Later allowed id s₁ s₂)
    (second : Later allowed id s₂ s₃) : Later allowed id s₁ s₃ := by
  induction second with
  | now => exact first
  | step _ permitted answered stays ih => exact .step ih permitted answered stays

theorem received_iff (hubbed : offline.Hubbed) (working : offline.faults = []) (other : m.senderId ≠ u)
    {replyContext : Option String × Option String} {result : Except Empty Unit}
    (fanned : (fanoutMessage (liveFrame m row row.conversationId replyContext) m.senderDeviceId rdc).exec
      (offline.connected u d) = (.done result, live)) :
    Received live offline.connections.length row.id ↔ u ∈ memberIdsAt offline row.conversationId ∧
      (u, m.senderId) ∉ offline.db.blockedUsers ∧ Serves offline.db rdc u d := by
  have ran : Async.Runs noOne (fanoutMessage (liveFrame m row row.conversationId replyContext) m.senderDeviceId rdc)
      (offline.connected u d) result live := Async.Runs.of_exec fanned
  have handled := fanoutMessage_handled (Online.connected hubbed u d) rfl working other ran
  refine ⟨fun received => ?_, handled.given⟩
  by_contra not
  obtain ⟨c, n, there, inside, -⟩ := received
  have online := handled.left not
  rw [online.there] at there
  cases there
  simp [Connection.log, Connection.fresh] at inside

/-- Conversation 1 is a group of users 2 and 3, and user 3 has blocked user 2 or not. -/
def groupState (blocked : Bool) : AppState :=
  let db : Database := { directDb with
    conversations := LinkedMap.empty.insert 1 ⟨.group, false, none⟩
    blockedUsers := if blocked then [(3, 2)] else [] }
  ⟨db, .new, [], fun _ => none, 7, [], fun n => 20 + n⟩

def greeting : SendMessage := ⟨2, 1, "2", some 1, none, none, "hello", none, none, none, none, none⟩

def greeted (blocked : Bool) : AppState := ((groupState blocked).storeMessage (newRow greeting 1 none none)).2

def greetingRow : MessageRow := ⟨20, 1, none, 2, some 1, "hello", 7, none, none, none, false⟩

def greetedLive (blocked : Bool) : AppState :=
  ((fanoutMessage (liveFrame greeting greetingRow 1 (none, none)) 1 none).exec ((greeted blocked).connected 3 1)).2

end Claim
end Echo.Server
