import Echo.Lib.Async
import Mathlib.Logic.Relation

/-! One call followed to its end while others act between its accesses. -/
namespace Echo.Lib
variable {M : Machine} {ε α β : Type}

namespace Async

/-- The call answers `result` and leaves the last state; `env` is what the others may do. -/
inductive Runs (env : M.State → M.State → Prop) : Async M ε α → M.State → Except ε α → M.State → Prop
  | done {result : Except ε α} {s : M.State} : Runs env (done result) s result s
  | call {r : M.Req} {next : M.Ans r → Async M ε α} {a : M.Ans r} {s s' s'' : M.State} {result : Except ε α} :
    M.perform r s = some (a, s') → Runs env (next a) s' result s'' → Runs env (call r next) s result s''
  | await {next : Async M ε α} {s s' : M.State} {result : Except ε α} :
    Runs env next s result s' → Runs env (await next) s result s'
  | other {t : Async M ε α} {s s' s'' : M.State} {result : Except ε α} :
    env s s' → Runs env t s' result s'' → Runs env t s result s''

variable {env env' : M.State → M.State → Prop} {s s' : M.State}

variable {result : Except ε α} {t : Async M ε α}

theorem Runs.of_done {r : Except ε α} (ran : Runs env (.done r) s result s') :
    result = r ∧ Relation.ReflTransGen env s s' := by
  generalize same : (Async.done r : Async M ε α) = t at ran
  induction ran with
  | done =>
    cases same
    exact ⟨rfl, .refl⟩
  | other moved _ ih => exact ⟨(ih same).1, .head moved (ih same).2⟩
  | call | await => cases same

theorem Runs.of_call {r : M.Req} {next : M.Ans r → Async M ε α}
    (ran : Runs env (.call r next) s result s') :
    ∃ before a after, Relation.ReflTransGen env s before ∧ M.perform r before = some (a, after) ∧
      Runs env (next a) after result s' := by
  generalize same : Async.call r next = t at ran
  induction ran with
  | call answered rest _ =>
    cases same
    exact ⟨_, _, _, .refl, answered, rest⟩
  | other moved _ ih =>
    obtain ⟨before, a, after, path, answered, rest⟩ := ih same
    exact ⟨before, a, after, .head moved path, answered, rest⟩
  | done | await => cases same

theorem Runs.of_await {next : Async M ε α} (ran : Runs env (.await next) s result s') :
    Runs env next s result s' := by
  generalize same : Async.await next = t at ran
  induction ran with
  | await rest _ =>
    cases same
    exact rest
  | other moved _ ih => exact .other moved (ih same)
  | done | call => cases same

theorem Runs.wait {before : M.State}
    (path : Relation.ReflTransGen env before s) (ran : Runs env t s result s') : Runs env t before result s' := by
  induction path using Relation.ReflTransGen.head_induction_on with
  | refl => exact ran
  | head moved _ ih => exact .other moved ih

theorem Runs.of_bind {f : α → Async M ε β} {result : Except ε β}
    (ran : Runs env (t.bind f) s result s') :
    (∃ a between, Runs env t s (.ok a) between ∧ Runs env (f a) between result s') ∨
      ∃ e, Runs env t s (.error e) s' ∧ result = .error e := by
  induction t generalizing s with
  | done r =>
    cases r with
    | ok a => exact .inl ⟨a, s, .done, ran⟩
    | error e =>
      obtain ⟨same, path⟩ := ran.of_done
      exact .inr ⟨e, .wait path .done, same⟩
  | call r next ih =>
    obtain ⟨before, a, after, path, answered, rest⟩ := ran.of_call
    rcases ih a rest with ⟨b, between, first, second⟩ | ⟨e, failed, same⟩
    · exact .inl ⟨b, between, .wait path (.call answered first), second⟩
    · exact .inr ⟨e, .wait path (.call answered failed), same⟩
  | await next ih =>
    rcases ih ran.of_await with ⟨b, between, first, second⟩ | ⟨e, failed, same⟩
    · exact .inl ⟨b, between, .await first, second⟩
    · exact .inr ⟨e, .await failed, same⟩

/-- What every access of the call and of the others takes on, the whole run takes on. -/
theorem Runs.path {P : M.Req → Prop} {R : M.State → M.State → Prop}
    (ran : Runs env t s result s') (only : t.Only P)
    (mine : ∀ {r a s s'}, P r → M.perform r s = some (a, s') → R s s') (others : ∀ {s s'}, env s s' → R s s') :
    Relation.ReflTransGen R s s' := by
  induction ran with
  | done => exact .refl
  | call answered _ ih => exact .head (mine only.1 answered) (ih (only.2 _))
  | await _ ih => exact ih only
  | other moved _ ih => exact .head (others moved) (ih only)

theorem Runs.keeps {I : M.State → Prop} (ran : Runs env t s result s')
    (holds : I s) (mine : ∀ {r a s s'}, M.perform r s = some (a, s') → I s → I s')
    (others : ∀ {s s'}, env s s' → I s → I s') : I s' := by
  induction ran with
  | done => exact holds
  | call answered _ ih => exact ih (mine answered holds)
  | await _ ih => exact ih holds
  | other moved _ ih => exact ih (others moved holds)

theorem Runs.of_exec (ran : t.exec s = (.done result, s')) :
    Runs env t s result s' := by
  induction t generalizing s with
  | done r =>
    obtain ⟨same, rfl⟩ := Prod.mk.inj ran
    cases same
    exact .done
  | call r next ih =>
    simp only [exec] at ran
    split at ran
    · cases (Prod.mk.inj ran).1
    · rename_i a after answered
      exact .call answered (ih a ran)
  | await next ih => exact .await (ih ran)

end Async
end Echo.Lib
