import Echo.Lib.Async

/-! A call among others: at each of its awaits the others may change the shared state, within what `env` allows after
the events of the call so far. -/
namespace Echo.Lib.Async
variable {M : Machine} {ε α β : Type}

/-- From its beginning to its end, with the events that it leaves, last event first. -/
inductive Among (env : List (Event M) → M.State → M.State → Prop) :
    Async M ε α → M.State → List (Event M) → Except ε α → M.State → List (Event M) → Prop
  | done (r : Except ε α) (s : M.State) (trace : List (Event M)) : Among env (.done r) s trace r s trace
  | call {r : M.Req} {next : M.Ans r → Async M ε α} {a : M.Ans r} {s s' s'' : M.State} {trace trace' : List (Event M)}
    {result : Except ε α} (answered : M.perform r s = some (a, s'))
    (rest : Among env (next a) s' (⟨0, r, s, s'⟩ :: trace) result s'' trace') :
    Among env (.call r next) s trace result s'' trace'
  | await {next : Async M ε α} {s s' s'' : M.State} {trace trace' : List (Event M)} {result : Except ε α}
    (others : env trace s s') (rest : Among env next s' trace result s'' trace') :
    Among env (.await next) s trace result s'' trace'

variable {env : List (Event M) → M.State → M.State → Prop}

theorem Among.of_bind {t : Async M ε α} {f : α → Async M ε β} {s s' : M.State} {trace trace' : List (Event M)}
    {r : Except ε β} (ran : Among env (t.bind f) s trace r s' trace') :
    (∃ a between events, Among env t s trace (.ok a) between events ∧ Among env (f a) between events r s' trace') ∨
      ∃ e, Among env t s trace (.error e) s' trace' ∧ r = .error e := by
  induction t generalizing s trace with
  | done result =>
    cases result with
    | ok a => exact .inl ⟨a, s, trace, .done _ _ _, ran⟩
    | error e =>
      cases ran
      exact .inr ⟨e, .done _ _ _, rfl⟩
  | call r next ih =>
    cases ran with
    | call answered rest =>
      rcases ih _ rest with ⟨a, between, events, first, second⟩ | ⟨e, first, same⟩
      · exact .inl ⟨a, between, events, .call answered first, second⟩
      · exact .inr ⟨e, .call answered first, same⟩
  | await next ih =>
    cases ran with
    | await others rest =>
      rcases ih rest with ⟨a, between, events, first, second⟩ | ⟨e, first, same⟩
      · exact .inl ⟨a, between, events, .await others first, second⟩
      · exact .inr ⟨e, .await others first, same⟩

theorem Only.bind_yields {P : M.Req → Prop} {Q : α → Prop} {t : Async M ε α} {f : α → Async M ε β} (first : t.Only P)
    (yields : t.Yields Q) (second : ∀ a, Q a → (f a).Only P) : (t.bind f).Only P := by
  induction t with
  | done r =>
    cases r with
    | ok a => exact second a (yields a rfl)
    | error e => exact trivial
  | call r next ih => exact ⟨first.1, fun a => ih a (first.2 a) (yields a)⟩
  | await next ih => exact ih first yields

theorem Only.among {P : M.Req → Prop} {I : List (Event M) → M.State → Prop}
    (step : ∀ {trace s s' r} {a : M.Ans r}, I trace s → P r → M.perform r s = some (a, s') →
      I (⟨0, r, s, s'⟩ :: trace) s')
    (stable : ∀ {trace s s'}, I trace s → env trace s s' → I trace s')
    {t : Async M ε α} {s s' : M.State} {trace trace' : List (Event M)} {result : Except ε α} (only : t.Only P)
    (holds : I trace s) (ran : Among env t s trace result s' trace') : I trace' s' := by
  induction ran with
  | done => exact holds
  | call answered _ ih => exact ih (only.2 _) (step holds only.1 answered)
  | await others _ ih => exact ih only (stable holds others)

theorem Only.ends {P : M.Req → Prop} (answers : ∀ r s, P r → M.perform r s ≠ none)
    (others : List (Event M) → M.State → M.State) {t : Async M ε α} (only : t.Only P) (s : M.State)
    (trace : List (Event M)) :
    ∃ result s' trace', Among (fun trace s s' => s' = others trace s) t s trace result s' trace' := by
  induction t generalizing s trace with
  | done r => exact ⟨r, s, trace, .done r s trace⟩
  | call r next ih =>
    obtain ⟨⟨a, s'⟩, answered⟩ := Option.ne_none_iff_exists'.mp (answers r s only.1)
    obtain ⟨result, s'', trace', rest⟩ := ih a (only.2 a) s' (⟨0, r, s, s'⟩ :: trace)
    exact ⟨result, s'', trace', .call answered rest⟩
  | await next ih =>
    obtain ⟨result, s', trace', rest⟩ := ih only (others trace s) trace
    exact ⟨result, s', trace', .await rfl rest⟩

end Echo.Lib.Async
