import Mathlib.Data.List.Basic

/-! Events that may be taken again: a later copy of an event makes an earlier one as if it had not been. -/
namespace Echo.Lib
variable {S E : Type} {step : S → E → S}

structure Absorbing (step : S → E → S) : Prop where
  again : ∀ s e, step (step s e) e = step s e
  later : ∀ s e f, step (step (step s e) f) e = step (step s f) e

namespace Absorbing

theorem between (absorbing : Absorbing step) (e : E) (events : List E) {s t : S} (same : step s e = step t e) :
    step (events.foldl step s) e = step (events.foldl step t) e := by
  induction events generalizing s t with
  | nil => exact same
  | cons f events ih =>
    refine ih ?_
    calc step (step s f) e = step (step (step s e) f) e := (absorbing.later s e f).symm
      _ = step (step (step t e) f) e := by rw [same]
      _ = step (step t f) e := absorbing.later t e f

theorem hides (absorbing : Absorbing step) {e : E} {events : List E} (inside : e ∈ events) (s : S) :
    events.foldl step (step s e) = events.foldl step s := by
  obtain ⟨before, after, rfl⟩ := List.append_of_mem inside
  rw [List.foldl_append, List.foldl_append, List.foldl_cons, List.foldl_cons,
    absorbing.between e before (absorbing.again s e)]

theorem replay (absorbing : Absorbing step) {first events : List E} (inside : first ⊆ events) (s : S) :
    events.foldl step (first.foldl step s) = events.foldl step s := by
  induction first generalizing s with
  | nil => rfl
  | cons e first ih =>
    have rest : first ⊆ events := fun f held => inside (List.mem_cons_of_mem e held)
    rw [List.foldl_cons, ih rest, absorbing.hides (inside List.mem_cons_self)]

end Absorbing
end Echo.Lib
