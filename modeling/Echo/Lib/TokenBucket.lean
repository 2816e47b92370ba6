import Mathlib.Algebra.Order.Field.Basic
import Mathlib.Tactic.Linarith

/-! Token buckets: a level that refills with time up to a capacity and from which charges are paid. -/
namespace Echo.Lib
variable {K : Type} [Field K] [LinearOrder K]

structure TokenBucket (K : Type) where
  capacity : K
  rate : K

namespace TokenBucket
variable {b : TokenBucket K} {level since first last : K} {charges : List (K × K)}

def refill (b : TokenBucket K) (level elapsed : K) : K := min (level + elapsed * b.rate) b.capacity

theorem refill_le (b : TokenBucket K) (level elapsed : K) : b.refill level elapsed ≤ b.capacity := min_le_right _ _

def Covered (b : TokenBucket K) : K → K → List (K × K) → Prop
  | _, _, [] => True
  | level, since, (now, cost) :: rest =>
    since ≤ now ∧ cost ≤ b.refill level (now - since) ∧ Covered b (b.refill level (now - since) - cost) now rest

def spent (first last : K) (charges : List (K × K)) : K :=
  ((charges.filter fun (now, _) => first ≤ now ∧ now ≤ last).map Prod.snd).sum

theorem spent_nil (first last : K) : spent first last [] = 0 := rfl

theorem spent_inside {now cost : K} {rest : List (K × K)} (inside : first ≤ now ∧ now ≤ last) :
    spent first last ((now, cost) :: rest) = cost + spent first last rest := by
  rw [spent, List.filter_cons_of_pos (by simpa using inside), List.map_cons, List.sum_cons, spent]

theorem spent_outside {now cost : K} {rest : List (K × K)} (outside : ¬ (first ≤ now ∧ now ≤ last)) :
    spent first last ((now, cost) :: rest) = spent first last rest := by
  rw [spent, List.filter_cons_of_neg (by simpa using outside), spent]

theorem spent_none (outside : ∀ charge ∈ charges, ¬ (first ≤ charge.1 ∧ charge.1 ≤ last)) :
    spent first last charges = 0 := by
  induction charges with
  | nil => rfl
  | cons charge rest ih =>
    obtain ⟨here, others⟩ := List.forall_mem_cons.mp outside
    rw [spent_outside here, ih others]

theorem Covered.since_le (covered : b.Covered level since charges) : ∀ charge ∈ charges, since ≤ charge.1 := by
  induction charges generalizing level since with
  | nil => exact fun charge inside => absurd inside List.not_mem_nil
  | cons charge rest ih =>
    obtain ⟨later, -, others⟩ := covered
    intro other inside
    rcases List.mem_cons.mp inside with rfl | inside
    · exact later
    · exact later.trans (ih others other inside)

variable [IsStrictOrderedRing K]

theorem refill_nonneg {elapsed : K} (full : 0 ≤ b.capacity) (rate : 0 ≤ b.rate) (enough : 0 ≤ level)
    (forward : 0 ≤ elapsed) : 0 ≤ b.refill level elapsed :=
  le_min (add_nonneg enough (mul_nonneg forward rate)) full

theorem Covered.spent_from (covered : b.Covered level since charges) (rate : 0 ≤ b.rate) (enough : 0 ≤ level)
    (before : first ≤ since) (order : since ≤ last) : spent first last charges ≤ level + (last - since) * b.rate := by
  induction charges generalizing level since with
  | nil =>
    rw [spent_nil]
    exact add_nonneg enough (mul_nonneg (sub_nonneg.mpr order) rate)
  | cons charge rest ih =>
    obtain ⟨now, cost⟩ := charge
    obtain ⟨later, affordable, others⟩ := covered
    have filled : b.refill level (now - since) ≤ level + (now - since) * b.rate := min_le_left _ _
    by_cases inside : now ≤ last
    · have tail := ih others (sub_nonneg.mpr affordable) (before.trans later) inside
      rw [spent_inside ⟨before.trans later, inside⟩]
      linarith
    · have none' : spent first last ((now, cost) :: rest) = 0 := by
        rw [spent_outside fun within => inside within.2]
        refine spent_none fun charge found within => ?_
        exact inside ((others.since_le charge found).trans within.2)
      rw [none']
      exact add_nonneg enough (mul_nonneg (sub_nonneg.mpr order) rate)

theorem Covered.spent_le (covered : b.Covered level since charges) (full : 0 ≤ b.capacity) (rate : 0 ≤ b.rate)
    (order : first ≤ last) : spent first last charges ≤ b.capacity + (last - first) * b.rate := by
  have room : 0 ≤ b.capacity + (last - first) * b.rate := add_nonneg full (mul_nonneg (sub_nonneg.mpr order) rate)
  induction charges generalizing level since with
  | nil =>
    rw [spent_nil]
    exact room
  | cons charge rest ih =>
    obtain ⟨now, cost⟩ := charge
    obtain ⟨later, affordable, others⟩ := covered
    by_cases inside : first ≤ now ∧ now ≤ last
    · have tail := others.spent_from rate (sub_nonneg.mpr affordable) inside.1 inside.2
      have filled := b.refill_le level (now - since)
      have waited : 0 ≤ (now - first) * b.rate := mul_nonneg (sub_nonneg.mpr inside.1) rate
      rw [spent_inside inside]
      linarith
    · rw [spent_outside inside]
      exact ih others

end TokenBucket
end Echo.Lib
