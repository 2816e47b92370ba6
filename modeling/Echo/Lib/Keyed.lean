import Mathlib.Logic.Function.Basic
import Mathlib.Order.Defs.PartialOrder

/-! A store of one entry for each key, in which a call answers from the entry of its key and changes no other.
What happens at one key is what its own calls alone would do there. -/
namespace Echo.Lib

section Folds
variable {σ C A : Type}

def answered (step : σ → C → A × σ) : σ → List C → List (C × A) × σ
  | s, [] => ([], s)
  | s, c :: calls => ((c, (step s c).1) :: (answered step (step s c).2 calls).1, (answered step (step s c).2 calls).2)

variable {step : σ → C → A × σ} {s : σ}

theorem answered_append {calls more : List C} : answered step s (calls ++ more) =
    ((answered step s calls).1 ++ (answered step (answered step s calls).2 more).1,
      (answered step (answered step s calls).2 more).2) := by
  induction calls generalizing s with
  | nil => rfl
  | cons c calls ih => simp only [List.cons_append, answered, ih]

theorem answered_calls (calls : List C) : (answered step s calls).1.map Prod.fst = calls := by
  induction calls generalizing s with
  | nil => rfl
  | cons c calls ih => simp only [answered, List.map_cons, ih]

variable (step)

theorem answered_part {D : Type} (s : σ) (f : D → C) (calls : List D) :
    (answered (fun s d => step s (f d)) s calls).1.map (fun answer => (f answer.1, answer.2)) =
        (answered step s (calls.map f)).1 ∧
      (answered (fun s d => step s (f d)) s calls).2 = (answered step s (calls.map f)).2 := by
  induction calls generalizing s with
  | nil => exact ⟨rfl, rfl⟩
  | cons d calls ih => simp only [answered, List.map_cons, ih, and_self]

theorem answered_simulates {τ T : Type} [Preorder T] (step' : τ → C → A × τ) {time : C → T} {related : T → σ → τ → Prop}
    (simulates : ∀ {now s t c}, related now s t → now ≤ time c →
      (step s c).1 = (step' t c).1 ∧ related (time c) (step s c).2 (step' t c).2)
    {now : T} {t : τ} (start : related now s t) {calls : List C} (ordered : (now :: calls.map time).Pairwise (· ≤ ·)) :
    (answered step s calls).1 = (answered step' t calls).1 ∧
      ∃ last, related last (answered step s calls).2 (answered step' t calls).2 := by
  induction calls generalizing now s t with
  | nil => exact ⟨rfl, now, start⟩
  | cons c calls ih =>
    rw [List.map_cons] at ordered
    obtain ⟨first, others⟩ := List.pairwise_cons.mp ordered
    obtain ⟨same, next⟩ := simulates start (first _ List.mem_cons_self)
    obtain ⟨rest, last⟩ := ih next others
    refine ⟨?_, last⟩
    simp only [answered, same, rest]

end Folds

section Keys
variable {κ σ C A : Type} [DecidableEq κ] (key : C → κ) (act : σ → C → A × σ)

def keyed (s : κ → σ) (c : C) : A × (κ → σ) :=
  ((act (s (key c)) c).1, Function.update s (key c) (act (s (key c)) c).2)

variable {key act} {s : κ → σ} {k : κ}

theorem keyed_other {c : C} (other : key c ≠ k) : (keyed key act s c).2 k = s k :=
  Function.update_of_ne (Ne.symm other) ..

theorem answered_keyed (key : C → κ) (act : σ → C → A × σ) (s : κ → σ) (k : κ) (calls : List C) :
    (answered (keyed key act) s calls).1.filter (fun c => key c.1 = k) =
        (answered act (s k) (calls.filter fun c => key c = k)).1 ∧
      (answered (keyed key act) s calls).2 k = (answered act (s k) (calls.filter fun c => key c = k)).2 := by
  induction calls generalizing s with
  | nil => exact ⟨rfl, rfl⟩
  | cons c calls ih =>
    obtain ⟨answers, last⟩ := ih (s := (keyed key act s c).2)
    by_cases here : key c = k
    · have own : (keyed key act s c).2 k = (act (s k) c).2 := by
        subst here
        exact Function.update_self ..
      have told : (keyed key act s c).1 = (act (s k) c).1 := by
        subst here
        rfl
      rw [own] at answers last
      simp only [answered, List.filter_cons, here, decide_true, if_true, told, answers, last, true_and]
    · rw [keyed_other here] at answers last
      simp only [answered, List.filter_cons, here, decide_false, Bool.false_eq_true, if_false, answers, last, true_and]

end Keys
end Echo.Lib
