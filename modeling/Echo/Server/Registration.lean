import Echo.Server.Hub

/-! Overlapping lifetimes of sockets. `handle_socket` registers a connection at its start and
unregisters the device at its end; a full queue or the end of the account unregisters it
before that. -/
namespace Echo.Server
open Echo.Lib

inductive Phase where
  | live
  /-- Out of the hub, its socket still to be torn down. -/
  | evicted
  | closed
  deriving DecidableEq

structure Socket where
  user : Uuid
  device : Int
  phase : Phase
  deriving DecidableEq

structure Lobby where
  hub : Hub
  sockets : List Socket

inductive Act where
  | connect (user : Uuid) (device : Int)
  /-- A frame for the device goes into the queue of a connection, or finds it closed. -/
  | accept (connection : Nat)
  /-- The queue of a connection has no room for a frame. -/
  | full (connection : Nat) (now : Nat)
  | deleteAccount (user : Uuid)
  | teardown (connection : Nat)

namespace Lobby

def start : Lobby := ⟨.new, []⟩

def evict (sockets : List Socket) (n : Nat) : List Socket :=
  sockets.modify n fun s => if s.phase = .live then { s with phase := .evicted } else s

def step (l : Lobby) : Act → Lobby
  | .connect user device =>
    ⟨l.hub.register user device l.sockets.length, l.sockets ++ [⟨user, device, .live⟩]⟩
  | .accept n =>
    match l.sockets[n]? with
    | none => l
    | some s => { l with hub := l.hub.resetCounter s.user s.device }
  | .full n now =>
    match l.sockets[n]? with
    | none => l
    | some s =>
      let (kick, hub) := l.hub.recordFull now s.user s.device
      if kick then ⟨hub.unregister s.user s.device, evict l.sockets n⟩ else { l with hub }
  | .deleteAccount user =>
    ⟨l.hub.unregisterAll user,
      l.sockets.map fun s => if s.user = user ∧ s.phase = .live then { s with phase := .evicted } else s⟩
  | .teardown n =>
    match l.sockets[n]? with
    | none => l
    | some s => ⟨l.hub.unregister s.user s.device, l.sockets.set n { s with phase := .closed }⟩

def run (l : Lobby) (acts : List Act) : Lobby := acts.foldl step l

def Live (l : Lobby) (user : Uuid) (device : Int) (n : Nat) : Prop := l.sockets[n]? = some ⟨user, device, .live⟩

instance (l : Lobby) (user : Uuid) (device : Int) (n : Nat) : Decidable (l.Live user device n) :=
  inferInstanceAs (Decidable (_ = _))

/-- The most recently registered connection of the device that is still live. -/
def newest (l : Lobby) (user : Uuid) (device : Int) : Option Nat :=
  (List.range l.sockets.length).reverse.find? fun n => l.Live user device n

/-- The hub knows the newest live connection of every device, keeps no user without a device,
and a user without a device in it, who is announced offline, has no live connection. -/
structure Current (l : Lobby) : Prop where
  newest : ∀ user device, l.hub.connection user device = l.newest user device
  present : ∀ user, l.hub.present user = true ↔ ∃ device tx, l.hub.connection user device = some tx
  offline : ∀ user, l.hub.deviceCount user = 0 → ∀ device n, ¬ l.Live user device n

/-- A device connects while none of its connections is live, and a connection is torn down or
found full while no other connection of its device is live. -/
def Apart (l : Lobby) : Act → Prop
  | .connect user device => ∀ n, ¬ l.Live user device n
  | .full n _ | .teardown n => ∀ s, l.sockets[n]? = some s → ∀ m, m ≠ n → ¬ l.Live s.user s.device m
  | _ => True

def AllApart (l : Lobby) : List Act → Prop
  | [] => True
  | act :: acts => l.Apart act ∧ (l.step act).AllApart acts

/-- With one live connection for each device, the hub's entries are the live connections. -/
structure Inv (l : Lobby) : Prop where
  entries : ∀ user device n, l.hub.connection user device = some n ↔ l.Live user device n
  noneEmpty : l.hub.NoneEmpty

theorem Inv.current {l : Lobby} (h : l.Inv) : l.Current := by
  have one : ∀ user device, l.hub.connection user device = l.newest user device := by
    intro user device
    cases found : l.newest user device with
    | none =>
      by_contra some
      obtain ⟨n, entry⟩ := Option.ne_none_iff_exists'.mp some
      have live := (h.entries user device n).mp entry
      have inside : n < l.sockets.length := (List.getElem?_eq_some_iff.mp live).1
      have dead := List.find?_eq_none.mp found n (by simpa using inside)
      simp [live] at dead
    | some n =>
      have live : l.Live user device n := by simpa using List.find?_some found
      exact (h.entries user device n).mpr live
  refine ⟨one, h.noneEmpty.present_iff, ?_⟩
  intro user absent device n live
  have entry := (h.entries user device n).mpr live
  rw [Hub.deviceCount_eq_zero absent] at entry
  cases entry

theorem start_inv : start.Inv := by
  constructor
  · intro user device n
    simp [start, Hub.new, Hub.connection, Live]
  · intro user devices found
    simp [start, Hub.new] at found

theorem Inv.connect {l : Lobby} (h : l.Inv) {user : Uuid} {device : Int} (apart : ∀ n, ¬ l.Live user device n) :
    (l.step (.connect user device)).Inv := by
  constructor
  · intro u d n
    simp only [step, Hub.connection_register, Live]
    by_cases here : u = user ∧ d = device
    · obtain ⟨rfl, rfl⟩ := here
      simp only [and_self, if_true, Option.some.injEq]
      constructor
      · rintro rfl
        simp
      · intro live
        by_contra other
        have old : n < l.sockets.length := by
          have inside := (List.getElem?_eq_some_iff.mp live).1
          simp only [List.length_append, List.length_singleton] at inside
          omega
        rw [List.getElem?_append_left old] at live
        exact apart n live
    · rw [if_neg here, h.entries]
      unfold Live
      constructor
      · intro live
        rw [List.getElem?_append_left (List.getElem?_eq_some_iff.mp live).1]
        exact live
      · intro live
        rcases Nat.lt_or_ge n l.sockets.length with old | new
        · rwa [List.getElem?_append_left old] at live
        · rw [List.getElem?_append_right new] at live
          obtain ⟨_, same⟩ := List.getElem?_eq_some_iff.mp live
          simp only [List.getElem_singleton, Socket.mk.injEq] at same
          exact (here ⟨same.1.symm, same.2.1.symm⟩).elim
  · exact h.noneEmpty.register user device _

theorem Inv.leave {l : Lobby} (h : l.Inv) {n : Nat} {s : Socket} (found : l.sockets[n]? = some s)
    (apart : ∀ m, m ≠ n → ¬ l.Live s.user s.device m) {hub : Hub} (same : hub.connections = l.hub.connections)
    {sockets : List Socket} (others : ∀ m, m ≠ n → sockets[m]? = l.sockets[m]?)
    (dead : ∀ t, sockets[n]? = some t → t.phase ≠ .live) :
    (⟨hub.unregister s.user s.device, sockets⟩ : Lobby).Inv := by
  have entries : ∀ u d, hub.connection u d = l.hub.connection u d := by
    intro u d
    rw [Hub.connection, same]
    rfl
  constructor
  · intro u d m
    rw [Hub.connection_unregister, entries]
    by_cases mine : m = n
    · subst mine
      have gone : ¬ (⟨hub.unregister s.user s.device, sockets⟩ : Lobby).Live u d m := fun live => dead _ live rfl
      refine iff_of_false ?_ gone
      split
      · simp
      · rename_i elsewhere
        intro entry
        have live := (h.entries u d m).mp entry
        rw [Live, found] at live
        cases Option.some.inj live
        exact elsewhere ⟨rfl, rfl⟩
    · have kept : (⟨hub.unregister s.user s.device, sockets⟩ : Lobby).Live u d m ↔ l.Live u d m := by
        simp only [Live, others m mine]
      rw [kept]
      split
      · rename_i here
        obtain ⟨rfl, rfl⟩ := here
        exact iff_of_false (by simp) (apart m mine)
      · exact h.entries u d m
  · refine Hub.NoneEmpty.unregister ?_ _ _
    intro u devices inside
    rw [same] at inside
    exact h.noneEmpty u devices inside

theorem Inv.deleteAccount {l : Lobby} (h : l.Inv) (user : Uuid) : (l.step (.deleteAccount user)).Inv := by
  constructor
  · intro u d n
    simp only [step, Hub.connection_unregisterAll, Live, List.getElem?_map]
    cases found : l.sockets[n]? with
    | none =>
      have gone : l.hub.connection u d ≠ some n := by
        intro entry
        have live := (h.entries u d n).mp entry
        rw [Live, found] at live
        cases live
      split <;> simp [gone]
    | some s =>
      have here := h.entries u d n
      rw [Live, found] at here
      obtain ⟨su, sd, phase⟩ := s
      by_cases deleted : su = user ∧ phase = .live
      · obtain ⟨rfl, rfl⟩ := deleted
        split
        · simp
        · rename_i other
          have apart : l.hub.connection u d ≠ some n := by
            intro entry
            have live := here.mp entry
            simp only [Option.some.injEq, Socket.mk.injEq] at live
            exact other live.1.symm
          simp [apart]
      · simp only [Option.map_some, if_neg deleted]
        split
        · rename_i same
          subst same
          refine iff_of_false (by simp) ?_
          intro live
          simp only [Option.some.injEq, Socket.mk.injEq] at live
          exact deleted ⟨live.1, live.2.2⟩
        · exact here
  · exact h.noneEmpty.unregisterAll user

theorem step_inv {l : Lobby} (h : l.Inv) {act : Act} (apart : l.Apart act) : (l.step act).Inv := by
  cases act with
  | connect user device => exact h.connect apart
  | deleteAccount user => exact h.deleteAccount user
  | accept n =>
    simp only [step]
    cases l.sockets[n]? with
    | none => exact h
    | some s => exact ⟨h.entries, h.noneEmpty⟩
  | full n now =>
    simp only [step]
    cases found : l.sockets[n]? with
    | none => exact h
    | some s =>
      have same := l.hub.connection_recordFull now s.user s.device
      by_cases kick : (l.hub.recordFull now s.user s.device).1 = true
      · simp only [if_pos kick]
        refine h.leave found (apart s found) same ?_ ?_
        · intro m other
          simp [evict, Ne.symm other]
        · intro t inside
          simp only [evict, List.getElem?_modify, if_true, found, Option.map_eq_map, Option.map_some,
            Option.some.injEq] at inside
          subst inside
          split
          · exact Phase.noConfusion
          · assumption
      · simp only [if_neg kick]
        constructor
        · intro u d m
          rw [Hub.connection, same]
          exact h.entries u d m
        · intro u devices inside
          rw [same] at inside
          exact h.noneEmpty u devices inside
  | teardown n =>
    simp only [step]
    cases found : l.sockets[n]? with
    | none => exact h
    | some s =>
      refine h.leave found (apart s found) rfl ?_ ?_
      · intro m other
        simp [Ne.symm other]
      · intro t inside
        have here : n < l.sockets.length := (List.getElem?_eq_some_iff.mp found).1
        simp only [List.getElem?_set_self here, Option.some.injEq] at inside
        subst inside
        exact Phase.noConfusion

theorem run_inv {l : Lobby} (h : l.Inv) (acts : List Act) (apart : l.AllApart acts) : (l.run acts).Inv := by
  induction acts generalizing l with
  | nil => exact h
  | cons act acts ih => exact ih (step_inv h apart.1) apart.2

theorem AllApart.front {l : Lobby} {acts before : List Act} (apart : l.AllApart acts) (first : before <+: acts) :
    l.AllApart before := by
  induction before generalizing l acts with
  | nil => trivial
  | cons act before ih =>
    cases acts with
    | nil => cases List.prefix_nil.mp first
    | cons other acts =>
      obtain ⟨rfl, rest⟩ := List.cons_prefix_cons.mp first
      exact ⟨apart.1, ih apart.2 rest⟩

end Lobby
end Echo.Server
