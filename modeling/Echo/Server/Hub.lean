import Echo.Lib.LinkedMap

/-! The connection hub of `hub.rs`: for each user the devices online, each with the sending
half of a connection's queue. Connections are numbered in the order they are made. -/
namespace Echo.Server
open Echo.Lib

abbrev Uuid := Nat

def slowConsumerFullThreshold : Nat := 50

def slowConsumerWindow : Nat := 60 * 1000

structure FullCounter where
  consecutive : Nat
  firstFailureAt : Nat

structure Hub where
  connections : LinkedMap Uuid (LinkedMap Int Nat)
  fullCounters : Uuid × Int → Option FullCounter

namespace Hub

def new : Hub := ⟨.empty, fun _ => none⟩

def connection (hub : Hub) (user : Uuid) (device : Int) : Option Nat :=
  (hub.connections.find user).bind fun devices => devices.find device

def present (hub : Hub) (user : Uuid) : Bool := (hub.connections.find user).isSome

def deviceCount (hub : Hub) (user : Uuid) : Nat :=
  ((hub.connections.find user).map fun devices => devices.entries.length).getD 0

def resetCounter (hub : Hub) (user : Uuid) (device : Int) : Hub :=
  { hub with fullCounters := Function.update hub.fullCounters (user, device) none }

def register (hub : Hub) (user : Uuid) (device : Int) (tx : Nat) : Hub :=
  let devices := (hub.connections.find user).getD .empty
  { hub with connections := hub.connections.insert user (devices.insert device tx) }.resetCounter user device

def unregister (hub : Hub) (user : Uuid) (device : Int) : Hub :=
  let connections := match hub.connections.find user with
    | none => hub.connections
    | some devices =>
      let left := devices.erase device
      if left.entries.isEmpty then hub.connections.erase user else hub.connections.insert user left
  { hub with connections }.resetCounter user device

def unregisterAll (hub : Hub) (user : Uuid) : Hub :=
  { hub with connections := hub.connections.erase user }

def recordFull (hub : Hub) (now : Nat) (user : Uuid) (device : Int) : Bool × Hub :=
  let counted (kick : Bool) (counter : FullCounter) : Bool × Hub :=
    (kick, { hub with fullCounters := Function.update hub.fullCounters (user, device) (some counter) })
  match hub.fullCounters (user, device) with
  | none => counted false ⟨1, now⟩
  | some counter =>
    if slowConsumerWindow < now - counter.firstFailureAt then counted false ⟨1, now⟩
    else
      counted (slowConsumerFullThreshold ≤ counter.consecutive + 1)
        { counter with consecutive := counter.consecutive + 1 }

def NoneEmpty (hub : Hub) : Prop := ∀ user devices, hub.connections.find user = some devices → devices.entries ≠ []

@[simp] theorem connection_recordFull (hub : Hub) (now : Nat) (user : Uuid) (device : Int) :
    (hub.recordFull now user device).2.connections = hub.connections := by
  unfold recordFull
  simp only
  split
  · rfl
  · split <;> rfl

theorem connection_register (hub : Hub) (user : Uuid) (device : Int) (tx : Nat) (u : Uuid) (d : Int) :
    (hub.register user device tx).connection u d =
      if u = user ∧ d = device then some tx else hub.connection u d := by
  by_cases here : u = user
  · subst here
    by_cases same : d = device
    · subst same
      simp [register, connection, resetCounter]
    · cases found : hub.connections.find u with
      | none | some => simp [register, connection, resetCounter, found, same, LinkedMap.find_insert]
  · simp [register, connection, resetCounter, here, LinkedMap.find_insert]

theorem find_unregister (hub : Hub) (user : Uuid) (device : Int) (u : Uuid) :
    (hub.unregister user device).connections.find u =
      if u = user then
        (hub.connections.find u).bind fun devices =>
          if (devices.erase device).entries.isEmpty then none else some (devices.erase device)
      else hub.connections.find u := by
  unfold unregister resetCounter
  by_cases here : u = user
  · subst here
    cases found : hub.connections.find u with
    | none => simp [found]
    | some devices =>
      simp only [if_true, Option.bind_some]
      split
      · simp
      · simp
  · cases hub.connections.find user with
    | none => simp [here]
    | some devices =>
      simp only [if_neg here]
      split
      · exact LinkedMap.find_erase here
      · exact LinkedMap.find_insert here _

theorem connection_unregister (hub : Hub) (user : Uuid) (device : Int) (u : Uuid) (d : Int) :
    (hub.unregister user device).connection u d =
      if u = user ∧ d = device then none else hub.connection u d := by
  unfold connection
  rw [find_unregister]
  by_cases here : u = user
  · subst here
    cases found : hub.connections.find u with
    | none => simp
    | some devices =>
      by_cases same : d = device
      · subst same
        simp only [if_true, and_self, Option.bind_some]
        split
        · rfl
        · simp
      · simp only [if_true, same, and_false, if_false, Option.bind_some]
        have kept := LinkedMap.find_erase (m := devices) same
        split
        · rename_i none
          rw [← kept, LinkedMap.find, List.isEmpty_iff.mp none]
          rfl
        · exact kept
  · simp [here]

theorem connection_unregisterAll (hub : Hub) (user : Uuid) (u : Uuid) (d : Int) :
    (hub.unregisterAll user).connection u d = if u = user then none else hub.connection u d := by
  by_cases here : u = user
  · subst here
    simp [unregisterAll, connection]
  · simp [unregisterAll, connection, here, LinkedMap.find_erase here]

theorem NoneEmpty.register {hub : Hub} (h : hub.NoneEmpty) (user : Uuid) (device : Int) (tx : Nat) :
    (hub.register user device tx).NoneEmpty := by
  intro u devices found
  by_cases here : u = user
  · subst here
    simp only [Hub.register, resetCounter, LinkedMap.find_insert_self, Option.some.injEq] at found
    subst found
    simp [LinkedMap.insert]
  · simp only [Hub.register, resetCounter, LinkedMap.find_insert here] at found
    exact h u devices found

theorem NoneEmpty.unregister {hub : Hub} (h : hub.NoneEmpty) (user : Uuid) (device : Int) :
    (hub.unregister user device).NoneEmpty := by
  intro u devices found
  rw [find_unregister] at found
  split at found
  · obtain ⟨before, _, left⟩ := Option.bind_eq_some_iff.mp found
    split at left
    · cases left
    · rename_i some
      cases left
      simpa using some
  · exact h u devices found

theorem NoneEmpty.unregisterAll {hub : Hub} (h : hub.NoneEmpty) (user : Uuid) : (hub.unregisterAll user).NoneEmpty := by
  intro u devices found
  by_cases here : u = user
  · subst here
    simp [Hub.unregisterAll] at found
  · simp only [Hub.unregisterAll, LinkedMap.find_erase here] at found
    exact h u devices found

theorem NoneEmpty.present_iff {hub : Hub} (h : hub.NoneEmpty) (user : Uuid) :
    hub.present user = true ↔ ∃ device tx, hub.connection user device = some tx := by
  unfold present connection
  cases found : hub.connections.find user with
  | none => simp
  | some devices =>
    obtain ⟨⟨device, tx⟩, rest, entries⟩ := List.exists_cons_of_ne_nil (h user devices found)
    simp only [Option.isSome_some, Option.bind_some, true_iff]
    refine ⟨device, tx, LinkedMap.find_eq_some.mpr ?_⟩
    rw [entries]
    exact List.mem_cons_self

theorem deviceCount_eq_zero {hub : Hub} {user : Uuid} (absent : hub.deviceCount user = 0) (device : Int) :
    hub.connection user device = none := by
  unfold deviceCount at absent
  unfold connection
  cases found : hub.connections.find user with
  | none => rfl
  | some devices =>
    rw [found] at absent
    have empty : devices.entries = [] := List.length_eq_zero_iff.mp absent
    simp [LinkedMap.find, empty]

end Hub
end Echo.Server
