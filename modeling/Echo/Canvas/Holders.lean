import Echo.Canvas.Authority
import Echo.Lib.Keyed

/-! The store of `canvas_authority.rs` by itself, on a clock of nanoseconds: who holds a canvas, and how the
holder changes. -/
namespace Echo.Canvas
open Echo.Lib (answered keyed answered_keyed answered_append)
open Echo.Server (Uuid)
open Echo.Groups (AuthorityEntry)

abbrev CanvasAuthority := Uuid × Uuid → Option AuthorityEntry

namespace CanvasAuthority

def claimGrace : Nat := 1000 * 1000000

def new : CanvasAuthority := fun _ => none

def current (s : CanvasAuthority) (key : Uuid × Uuid) : Option Int := (s key).map AuthorityEntry.deviceId

def withinGrace (claimedAt now : Nat) : Bool := now - claimedAt < claimGrace

def claimIfAbsent (s : CanvasAuthority) (key : Uuid × Uuid) (deviceId : Int) (now : Nat) : Bool × CanvasAuthority :=
  match s key with
  | some occupied => (occupied.deviceId = deviceId, s)
  | none => (true, Function.update s key (some ⟨deviceId, now⟩))

def claim (s : CanvasAuthority) (key : Uuid × Uuid) (deviceId : Int) (now : Nat) : Bool × CanvasAuthority :=
  match s key with
  | none => (true, Function.update s key (some ⟨deviceId, now⟩))
  | some existing =>
    if existing.deviceId = deviceId then (false, s)
    else if withinGrace existing.claimedAt now then (false, s)
    else (true, Function.update s key (some ⟨deviceId, now⟩))

def clearOnLeave (s : CanvasAuthority) (key : Uuid × Uuid) : CanvasAuthority := Function.update s key none

inductive Action where
  | claimIfAbsent (deviceId : Int)
  | claim (deviceId : Int)
  | clearOnLeave
  deriving DecidableEq

structure Call where
  key : Uuid × Uuid
  action : Action
  now : Nat

/-- The answer and the store after it; `clear_on_leave` answers nothing. -/
def step (s : CanvasAuthority) (c : Call) : Option Bool × CanvasAuthority :=
  match c.action with
  | .claimIfAbsent deviceId => ((s.claimIfAbsent c.key deviceId c.now).map some id)
  | .claim deviceId => ((s.claim c.key deviceId c.now).map some id)
  | .clearOnLeave => (none, s.clearOnLeave c.key)

def run (s : CanvasAuthority) (calls : List Call) : CanvasAuthority := (answered step s calls).2

def answers (s : CanvasAuthority) (calls : List Call) : List (Call × Option Bool) := (answered step s calls).1

def Changes (s : CanvasAuthority) (c : Call) (key : Uuid × Uuid) : Prop :=
  ∃ deviceId, (s.step c).2.current key = some deviceId ∧ s.current key ≠ some deviceId

section Entries

def act (entry : Option AuthorityEntry) (c : Call) : Option Bool × Option AuthorityEntry :=
  match c.action, entry with
  | .claimIfAbsent deviceId, some occupied => (some (occupied.deviceId = deviceId), some occupied)
  | .claimIfAbsent deviceId, none => (some true, some ⟨deviceId, c.now⟩)
  | .claim deviceId, none => (some true, some ⟨deviceId, c.now⟩)
  | .claim deviceId, some existing =>
    if existing.deviceId = deviceId || withinGrace existing.claimedAt c.now then (some false, some existing)
    else (some true, some ⟨deviceId, c.now⟩)
  | .clearOnLeave, _ => (none, none)

variable {s : CanvasAuthority} {c : Call} {key : Uuid × Uuid}

theorem step_eq : s.step c = keyed Call.key act s c := by
  obtain ⟨key, action, now⟩ := c
  have kept : ∀ {entry}, s key = some entry → Function.update s key (some entry) = s := by
    intro entry found
    rw [← found, Function.update_eq_self]
  cases action with
  | claimIfAbsent deviceId =>
    simp only [step, claimIfAbsent, keyed, act]
    cases found : s key with
    | none => rfl
    | some occupied => exact Prod.ext rfl (kept found).symm
  | claim deviceId =>
    simp only [step, claim, keyed, act]
    cases found : s key with
    | none => rfl
    | some existing =>
      by_cases same : existing.deviceId = deviceId
      · simp [same, kept found]
      · by_cases soon : withinGrace existing.claimedAt now = true
        · simp [same, soon, kept found]
        · simp [same, soon]
  | clearOnLeave => rfl

theorem step_other (other : c.key ≠ key) : (s.step c).2 key = s key := by
  rw [step_eq]
  exact Echo.Lib.keyed_other other

theorem step_own (s : CanvasAuthority) (c : Call) : (s.step c).2 c.key = (act (s c.key) c).2 := by
  rw [step_eq]
  exact Function.update_self ..

theorem act_cases (entry : Option AuthorityEntry) (c : Call) :
    (act entry c).2 = entry ∨ (c.action = .clearOnLeave ∧ (act entry c).2 = none) ∨
      ∃ deviceId, (act entry c).2 = some ⟨deviceId, c.now⟩ ∧
        ∀ e ∈ entry, e.deviceId ≠ deviceId ∧ e.claimedAt + claimGrace ≤ c.now := by
  obtain ⟨key, action, now⟩ := c
  cases action with
  | claimIfAbsent deviceId =>
    cases entry with
    | none => exact .inr (.inr ⟨deviceId, rfl, fun e inside => by cases inside⟩)
    | some occupied => exact .inl rfl
  | claim deviceId =>
    cases entry with
    | none => exact .inr (.inr ⟨deviceId, rfl, fun e inside => by cases inside⟩)
    | some existing =>
      simp only [act]
      split
      · exact .inl rfl
      · next late =>
        obtain ⟨other, late⟩ : existing.deviceId ≠ deviceId ∧ withinGrace existing.claimedAt now = false := by
          simpa using late
        refine .inr (.inr ⟨deviceId, rfl, fun e inside => ?_⟩)
        obtain rfl := Option.some.inj inside
        refine ⟨other, ?_⟩
        have late : ¬ now - existing.claimedAt < claimGrace := by simpa [withinGrace] using late
        have some' : 0 < claimGrace := by decide
        omega
  | clearOnLeave => exact .inr (.inl ⟨rfl, rfl⟩)

end Entries

section Milliseconds

/-- The store as the machine of the group calls has it, where time goes by in milliseconds. -/
def ofMilliseconds (s : Groups.State) : CanvasAuthority := fun key =>
  (s.canvasAuthority key).map fun entry => ⟨entry.deviceId, entry.claimedAt * 1000000⟩

variable {s : Groups.State} {key : Uuid × Uuid} {deviceId : Int}

theorem ofMilliseconds_update (entry : AuthorityEntry) :
    ofMilliseconds { s with canvasAuthority := Function.update s.canvasAuthority key (some entry) } =
      Function.update (ofMilliseconds s) key (some ⟨entry.deviceId, entry.claimedAt * 1000000⟩) := by
  funext other
  simp only [ofMilliseconds, Function.update_apply]
  split <;> rfl

theorem ofMilliseconds_claim : (s.claim key deviceId).map id ofMilliseconds =
    (ofMilliseconds s).claim key deviceId (s.now * 1000000) := by
  unfold Groups.State.claim claim
  cases found : s.canvasAuthority key with
  | none =>
    simp only [ofMilliseconds, found, Option.map_none]
    exact Prod.ext rfl (ofMilliseconds_update ⟨deviceId, s.now⟩)
  | some entry =>
    have soon : withinGrace (entry.claimedAt * 1000000) (s.now * 1000000) =
        decide (s.now - entry.claimedAt < Groups.claimGrace) := by
      unfold withinGrace claimGrace Groups.claimGrace
      rw [← Nat.sub_mul, decide_eq_decide]
      exact Nat.mul_lt_mul_right (by decide)
    simp only [ofMilliseconds, found, Option.map_some, soon, decide_eq_true_eq]
    split
    · rfl
    · split
      · rfl
      · exact Prod.ext rfl (ofMilliseconds_update ⟨deviceId, s.now⟩)

theorem ofMilliseconds_claimIfAbsent : (s.claimIfAbsent key deviceId).map id ofMilliseconds =
    (ofMilliseconds s).claimIfAbsent key deviceId (s.now * 1000000) := by
  unfold Groups.State.claimIfAbsent claimIfAbsent
  cases found : s.canvasAuthority key with
  | none =>
    simp only [ofMilliseconds, found, Option.map_none]
    exact Prod.ext rfl (ofMilliseconds_update ⟨deviceId, s.now⟩)
  | some entry =>
    simp only [ofMilliseconds, found, Option.map_some]
    rfl

end Milliseconds

section Runs
variable {s : CanvasAuthority} {c : Call} {key : Uuid × Uuid}

theorem run_append (calls more : List Call) : s.run (calls ++ more) = (s.run calls).run more := by
  unfold run
  rw [answered_append]

theorem claim_iff (s : CanvasAuthority) (key : Uuid × Uuid) (deviceId : Int) (now : Nat) :
    (s.claim key deviceId now).1 = true ↔ (s.claim key deviceId now).2.current key ≠ s.current key := by
  unfold claim
  cases found : s key with
  | none => simp [current, found]
  | some existing =>
    by_cases same : existing.deviceId = deviceId
    · simp [same]
    · by_cases soon : withinGrace existing.claimedAt now = true
      · simp [same, soon]
      · simp [same, soon, current, found, Ne.symm same]

theorem changes_entry (changes : Changes s c key) : ∃ deviceId, (s.step c).2 key = some ⟨deviceId, c.now⟩ ∧
    ∀ e ∈ s key, e.claimedAt + claimGrace ≤ c.now := by
  obtain ⟨deviceId, after, before⟩ := changes
  by_cases here : c.key = key
  · subst here
    have now : (s.step c).2 c.key = (act (s c.key) c).2 := step_own s c
    rcases act_cases (s c.key) c with same | ⟨-, gone⟩ | ⟨newcomer, fresh, late⟩
    · refine absurd ?_ before
      rw [← after, current, current, now, same]
    · rw [current, now, gone] at after
      cases after
    · exact ⟨newcomer, now.trans fresh, fun e inside => (late e inside).2⟩
  · refine absurd ?_ before
    rw [← after, current, current, step_other here]

theorem held_since {t : Nat} (calls : List Call) (held : ∃ e, s key = some e ∧ t ≤ e.claimedAt)
    (stays : ∀ c ∈ calls, c.key = key → c.action ≠ .clearOnLeave) (later : ∀ c ∈ calls, t ≤ c.now) :
    ∃ e, s.run calls key = some e ∧ t ≤ e.claimedAt := by
  induction calls generalizing s with
  | nil => exact held
  | cons c calls ih =>
    refine ih ?_ (fun c inside => stays c (List.mem_cons_of_mem _ inside)) fun c inside =>
      later c (List.mem_cons_of_mem _ inside)
    by_cases here : c.key = key
    · subst here
      rw [step_own]
      rcases act_cases (s c.key) c with same | ⟨left, -⟩ | ⟨newcomer, fresh, -⟩
      · rw [same]
        exact held
      · exact absurd left (stays c List.mem_cons_self rfl)
      · exact ⟨_, fresh, later c List.mem_cons_self⟩
    · rw [step_other here]
      exact held

theorem run_others {others : List Call} (apart : ∀ c ∈ others, c.key ≠ key) : s.run others key = s key := by
  induction others generalizing s with
  | nil => rfl
  | cons c others ih =>
    exact (ih fun c inside => apart c (List.mem_cons_of_mem _ inside)).trans (step_other (apart c List.mem_cons_self))

theorem unheld_step (unheld : s key = none) (deviceId : Int) (now : Nat) {action : Action}
    (claims : action = .claim deviceId ∨ action = .claimIfAbsent deviceId) :
    (s.step ⟨key, action, now⟩).1 = some true ∧ (s.step ⟨key, action, now⟩).2.current key = some deviceId := by
  rcases claims with rfl | rfl
  · simp [step, claim, unheld, current]
  · simp [step, claimIfAbsent, unheld, current]

end Runs

/-- One holder for each user and channel; a claim takes exactly if the holder changes; a second between two holders
unless the user leaves; after that the first to come; and no other user or channel has a say in it. -/
theorem authority_changes_hands (calls : List Call) (timely : (calls.map Call.now).Pairwise (· ≤ ·))
    (key : Uuid × Uuid) :
    (∀ deviceId other, (new.run calls).current key = some deviceId → (new.run calls).current key = some other →
        deviceId = other) ∧
      (∀ deviceId now, ((new.run calls).claim key deviceId now).1 = true ↔
        ((new.run calls).claim key deviceId now).2.current key ≠ (new.run calls).current key) ∧
      (∀ before first between second rest, calls = before ++ first :: between ++ second :: rest →
        (new.run before).Changes first key → (new.run (before ++ first :: between)).Changes second key →
        (∀ c ∈ between, c.key = key → c.action ≠ .clearOnLeave) → first.now + claimGrace ≤ second.now) ∧
      (∀ others deviceId action now, (∀ c ∈ others, c.key ≠ key) →
        action = .claim deviceId ∨ action = .claimIfAbsent deviceId →
        ((((new.run calls).clearOnLeave key).run others).step ⟨key, action, now⟩).1 = some true ∧
          ((((new.run calls).clearOnLeave key).run others).step ⟨key, action, now⟩).2.current key = some deviceId) ∧
      ((new.answers calls).filter (fun c => c.1.key = key) = new.answers (calls.filter fun c => c.key = key) ∧
        new.run calls key = new.run (calls.filter fun c => c.key = key) key) := by
  refine ⟨fun deviceId other one two => Option.some.inj (one.symm.trans two),
    fun deviceId now => claim_iff _ key deviceId now, ?_, ?_, ?_⟩
  · rintro before first between second rest rfl changed changes stays
    rw [List.append_assoc, List.map_append, List.map_append, List.map_cons, List.map_cons] at timely
    have order := (List.pairwise_append.mp timely).2.1
    rw [List.cons_append, List.pairwise_cons] at order
    obtain ⟨deviceId, entry, -⟩ := changes_entry changed
    have later : ∀ c ∈ between, first.now ≤ c.now := fun c inside =>
      order.1 _ (List.mem_append_left _ (List.mem_map_of_mem inside))
    obtain ⟨e, held, since⟩ := held_since between ⟨_, entry, Nat.le_refl _⟩ stays later
    obtain ⟨-, -, late⟩ := changes_entry changes
    rw [run_append] at late
    exact (Nat.add_le_add_right since claimGrace).trans (late e held)
  · intro others deviceId action now apart claims
    refine unheld_step ?_ deviceId now claims
    rw [run_others apart]
    exact Function.update_self ..
  · have keyed' : step = keyed Call.key act := by
      funext s c
      exact step_eq
    have alone : ∀ c ∈ calls.filter (fun c => c.key = key), decide (c.key = key) = true := fun c inside =>
      (List.mem_filter.mp inside).2
    unfold answers run
    rw [keyed']
    obtain ⟨told, left⟩ := answered_keyed Call.key act new key calls
    obtain ⟨told', left'⟩ := answered_keyed Call.key act new key (calls.filter fun c => c.key = key)
    rw [List.filter_eq_self.mpr alone] at told' left'
    rw [told, left, ← told', ← left']
    refine ⟨List.filter_eq_self.mpr fun answer inside => ?_, rfl⟩
    have mine := List.mem_map_of_mem (f := Prod.fst) inside
    rw [Echo.Lib.answered_calls] at mine
    exact alone _ mine

section Samples

/-- User 1 draws with device 1, turns to device 2 at once and again after a second, and leaves. -/
def twoDevices : List Call :=
  [⟨(1, 5), .claimIfAbsent 1, 0⟩, ⟨(1, 5), .claim 2, 900000000⟩, ⟨(1, 5), .claim 2, 1000000000⟩]

theorem authority_changes_hands_twoDevices :
    ((new.run twoDevices).claim (1, 5) 1 1500000000).1 = false ∧
      (((new.run twoDevices).clearOnLeave (1, 5)).step ⟨(1, 5), .claim 1, 1500000000⟩).1 = some true ∧
      (0 : Nat) + claimGrace ≤ 1000000000 := by
  obtain ⟨-, takes, spaced, left, -⟩ := authority_changes_hands twoDevices (by decide) (1, 5)
  refine ⟨?_, (left [] 1 (.claim 1) 1500000000 (fun _ inside => by cases inside) (.inl rfl)).1, ?_⟩
  · refine Bool.eq_false_iff.mpr fun took => (takes 1 1500000000).mp took ?_
    decide
  · refine spaced [] ⟨(1, 5), .claimIfAbsent 1, 0⟩ [⟨(1, 5), .claim 2, 900000000⟩] ⟨(1, 5), .claim 2, 1000000000⟩ [] rfl
      ⟨1, by decide, by decide⟩ ⟨2, by decide, by decide⟩ ?_
    decide

end Samples

end CanvasAuthority
end Echo.Canvas
