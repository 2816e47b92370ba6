import Echo.Auth.PasswordReset
import Echo.Lib.Contract

/-! How often a reset token changes a password: each request looks the token up on its own, and
marks it as used without a second look. -/
namespace Echo.Auth.Reset
open Echo.Lib
open Echo.Server (Uuid)

section Discipline

/-- How far a request has come: with its token from the first, and with what its transaction has
written. -/
inductive Mode where
  | finished
  | fresh (token : String)
  | found (token : String)
  | opened (token : String) (tx : Nat) (writes : List Write)
  | ended (token : String)

namespace Mode

def transaction : Mode → Option (Nat × List schema.Write)
  | opened _ tx writes => some (tx, writes)
  | _ => none

def token : Mode → Option String
  | found token | opened token .. | ended token => some token
  | _ => none

def seen : Mode → Option String
  | found token | opened token .. => some token
  | _ => none

def Starts (m : Mode) : Prop := m = finished ∨ ∃ token, m = fresh token

end Mode

def Consumed (token : String) (writes : List Write) : Prop := ∃ time, Write.usedAt token time ∈ writes

def Permit (m : Mode) : Request → Prop
  | .sql .start => ∃ token, m = .found token
  | .sql (.run none q) => ∃ token, m = .fresh token ∧ q = .findToken token
  | .sql (.run (some tx) q) => ∃ token writes, m = .opened token tx writes ∧
      ((∃ u h, q = .updatePassword u h) ∨ q = .consumeToken token ∨ ∃ u, q = .revokeAllUserTokens u)
  | .sql (.commit tx) => ∃ token writes, m = .opened token tx writes ∧ Consumed token writes
  | .sql (.rollback tx) => ∃ token writes, m = .opened token tx writes
  | _ => ∀ token, m ≠ .fresh token

def Next (m : Mode) : (r : Request) → Answer r → Mode → Prop
  | .sql .start, a, m' => match a with
    | .ok (tx : Nat) => ∃ token, m = .found token ∧ m' = .opened token tx []
    | .error _ => m' = m
  | .sql (.run none (.findToken token)), a, m' => match a with
    | .ok (some _) => m' = .found token
    | _ => m' = .ended token
  | .sql (.run (some tx) q), a, m' => match a with
    | .ok _ => ∃ token writes more, m = .opened token tx writes ∧ m' = .opened token tx (writes ++ more) ∧
        (q = .consumeToken token → Consumed token more)
    | .error _ => m' = m
  | .sql (.commit tx), _, m' => ∃ token writes, m = .opened token tx writes ∧ m' = .ended token
  | .sql (.rollback tx), _, m' => ∃ token writes, m = .opened token tx writes ∧ m' = .ended token
  | _, _, m' => m' = m

def contract : Contract machine where
  Mode := Mode
  finished := .finished
  Permit := Permit
  Next := Next
  Rest _ := True
  Final m := m.transaction = none

end Discipline

section Programs
variable {token : String} {tx : Nat} {writes : List Write} {α : Type}

theorem query_within {q : Query} (allowed : Permit (.opened token tx writes) (.sql (.run (some tx) q))) :
    (query q (some tx)).Keeps contract (.opened token tx writes) fun m r =>
      (∃ more, m = .opened token tx (writes ++ more) ∧ (q = .consumeToken token → Consumed token more) ∧
        ∃ a, r = .ok a) ∨ m = .opened token tx writes ∧ ∃ e, r = .error e := by
  refine ⟨allowed, fun a m next => ⟨trivial, ?_⟩⟩
  cases a with
  | error e => exact .inr ⟨next, _, rfl⟩
  | ok a =>
    obtain ⟨token', writes', more, mine, rfl, consumed⟩ := next
    cases mine
    exact .inl ⟨more, rfl, consumed, a, rfl⟩

theorem applyReset_keeps (userId : Uuid) (newHash : String) :
    (applyReset token userId newHash).Keeps contract (.found token) fun m _ => m = .found token ∨ m = .ended token := by
  have started : (dbErr (ask (.sql .start))).Keeps contract (.found token) fun m r =>
      (∃ tx, r = .ok tx ∧ m = .opened token tx []) ∨ (∃ e, r = .error e) ∧ m = .found token := by
    refine ⟨⟨token, rfl⟩, fun a m next => ⟨trivial, ?_⟩⟩
    cases a with
    | error e => exact .inr ⟨⟨_, rfl⟩, next⟩
    | ok tx =>
      obtain ⟨token', mine, rfl⟩ := next
      cases mine
      exact .inl ⟨tx, rfl, rfl⟩
  refine Async.Keeps.bind (started.mono fun m r opened => ?_)
  rcases opened with ⟨tx, rfl, rfl⟩ | ⟨⟨e, rfl⟩, rfl⟩
  · have body : (query (.updatePassword userId newHash) (some tx) >>= fun _ =>
        query (.consumeToken token) (some tx) >>= fun _ =>
        query (.revokeAllUserTokens userId) (some tx)).Keeps contract (.opened token tx []) fun m r =>
          ∃ writes, m = .opened token tx writes ∧ ∀ a, r = .ok a → Consumed token writes := by
      refine Async.Keeps.bind ((query_within ⟨token, _, rfl, .inl ⟨userId, newHash, rfl⟩⟩).mono ?_)
      rintro m r (⟨first, rfl, -, a, rfl⟩ | ⟨rfl, e, rfl⟩)
      · refine Async.Keeps.bind ((query_within ⟨token, _, rfl, .inr (.inl rfl)⟩).mono ?_)
        rintro m r (⟨second, rfl, consumed, a, rfl⟩ | ⟨rfl, e, rfl⟩)
        · refine (query_within ⟨token, _, rfl, .inr (.inr ⟨userId, rfl⟩)⟩).mono ?_
          rintro m r (⟨third, rfl, -, a, rfl⟩ | ⟨rfl, e, rfl⟩)
          · obtain ⟨time, inside⟩ := consumed rfl
            exact ⟨_, rfl, fun _ _ => ⟨time, List.mem_append_left _ (List.mem_append_right _ inside)⟩⟩
          · exact ⟨_, rfl, nofun⟩
        · exact ⟨_, rfl, nofun⟩
      · exact ⟨_, rfl, nofun⟩
    refine Async.Keeps.bind (Async.Keeps.catching (body.mono ?_))
    rintro m r ⟨writes, rfl, consumed⟩
    cases r with
    | ok a =>
      refine ⟨⟨token, writes, rfl, consumed a rfl⟩, fun b m next => ⟨trivial, ?_⟩⟩
      obtain ⟨token', writes', mine, rfl⟩ := next
      cases mine
      cases b <;> exact .inr rfl
    | error e =>
      refine ⟨⟨token, writes, rfl⟩, fun b m next => ⟨trivial, ?_⟩⟩
      obtain ⟨token', writes', mine, rfl⟩ := next
      cases mine
      exact .inr rfl
  · exact .inl rfl

theorem hashPassword_keeps (password : String) :
    (hashPassword password).Keeps contract (.found token) fun m _ => m = .found token := by
  refine ⟨nofun, fun a m same => ⟨trivial, ?_⟩⟩
  have same : m = .found token := same
  rcases a with (_ | _) | hash <;> exact same

theorem resetPassword_keeps (body : ResetPasswordRequest) :
    (resetPassword body).Keeps contract (.fresh body.token) fun m _ => contract.Final m := by
  unfold resetPassword
  cases validatePassword body.newPassword with
  | error e => exact (rfl : Mode.transaction (.fresh body.token) = none)
  | ok valid =>
    refine Async.Keeps.bind ⟨⟨body.token, rfl, rfl⟩, fun a m next => ⟨trivial, ?_⟩⟩
    have finished : Mode.transaction (.ended body.token) = none := rfl
    rcases a with e | (_ | row)
    · cases next
      exact finished
    · cases next
      exact finished
    · cases next
      have found : Mode.transaction (.found body.token) = none := rfl
      refine Async.Keeps.ite (fun _ => found) fun _ => ?_
      refine ⟨nofun, fun (now : Nat) m same => ?_⟩
      cases (same : m = .found body.token)
      refine Async.Keeps.ite (fun _ => found) fun _ => ?_
      refine Async.Keeps.bind ((hashPassword_keeps body.newPassword).mono ?_)
      rintro m r rfl
      cases r with
      | error e => exact found
      | ok newHash =>
        refine Async.Keeps.bind ((applyReset_keeps row.userId newHash).mono ?_)
        intro m r ended
        have idle : contract.Final m ∧ ∀ token, m ≠ .fresh token := by
          rcases ended with rfl | rfl
          · exact ⟨found, nofun⟩
          · exact ⟨finished, nofun⟩
        cases r with
        | error e => exact idle.1
        | ok done =>
          refine ⟨idle.2, fun a m' same => ?_⟩
          cases (same : m' = m)
          exact idle.1

theorem Call.keeps (call : Call) :
    ∃ m, Mode.Starts m ∧ call.program.Keeps contract m fun m _ => contract.Final m := by
  cases call with
  | resetPassword body => exact ⟨_, .inr ⟨body.token, rfl⟩, resetPassword_keeps body⟩
  | clock nanoseconds =>
    refine ⟨.finished, .inl rfl, nofun, fun a m same => ?_⟩
    cases (same : m = .finished)
    exact (rfl : Mode.transaction .finished = none)

end Programs

section Tables
variable {t : Tables} {writes : List Write} {token : String}

def Tables.Used (t : Tables) (token : String) : Prop :=
  ∃ row, t.resetTokens token = some row ∧ row.usedAt.isSome = true

theorem Tables.apply_resetTokens (t : Tables) (w : Write) (token : String) :
    ((t.apply w).resetTokens token).isSome = (t.resetTokens token).isSome ∧
      ((t.apply w).Used token ↔ t.Used token ∨ (∃ time, w = .usedAt token time) ∧ (t.resetTokens token).isSome) := by
  cases w with
  | passwordHash | revoked => simp [apply, Used]
  | usedAt other time =>
    by_cases same : other = token
    · subst same
      cases found : t.resetTokens other <;> simp [apply, Used, found]
    · simp [apply, Used, same, Function.update_of_ne (Ne.symm same)]

theorem applyAll_resetTokens (t : Tables) (writes : List Write) (token : String) :
    ((Store.applyAll (S := schema) t writes).resetTokens token).isSome = (t.resetTokens token).isSome := by
  induction writes generalizing t with
  | nil => rfl
  | cons w rest ih => exact (ih (t.apply w)).trans (t.apply_resetTokens w token).1

theorem applyAll_used (t : Tables) (writes : List Write) (token : String) :
    (Store.applyAll (S := schema) t writes).Used token ↔
      t.Used token ∨ Consumed token writes ∧ (t.resetTokens token).isSome := by
  induction writes generalizing t with
  | nil =>
    change t.Used token ↔ _
    simp [Consumed]
  | cons w rest ih =>
    obtain ⟨same, used⟩ := t.apply_resetTokens w token
    have split : Consumed token (w :: rest) ↔ (∃ time, w = .usedAt token time) ∨ Consumed token rest := by
      simp only [Consumed, List.mem_cons, exists_or, eq_comm]
    refine (ih (t.apply w)).trans ?_
    rw [used, same, split]
    tauto

def Unused (t : Tables) (writes : List Write) : Prop := ∀ token, Consumed token writes → ¬ t.Used token

theorem unused_lasting : Store.Lasting (S := schema) (fun _ => True) Unused where
  empty _ _ consumed := by
    obtain ⟨time, inside⟩ := consumed
    exact nomatch inside
  lands _ _ := trivial
  beside := by
    rintro t writes other - unused - apart token ⟨time, inside⟩ used
    rcases (applyAll_used t other token).mp used with before | ⟨⟨time', there⟩, -⟩
    · exact unused token ⟨time, inside⟩ before
    · exact apart _ inside (.resetToken token) List.mem_cons_self _ there List.mem_cons_self

end Tables

section Runs

abbrev Event := Lib.Event machine

variable {trace : List (Event)} {modes : Nat → Mode} {st st' : Store schema} {i : Nat} {token : String}

def Presents (trace : List (Event)) (i : Nat) (token : String) : Prop :=
  ∃ e ∈ trace, e.who = i ∧ e.request = .sql (.run none (.findToken token))

def Changes (e : Event) : Prop :=
  ∃ tx u h, e.request = .sql (.commit tx) ∧ e.before.fault = false ∧ .passwordHash u h ∈ e.before.store.writes tx

def SeesUnused (e : Event) : Prop :=
  ∀ tx token, e.request = .sql (.run tx (.consumeToken token)) → ¬ e.before.tables.Used token

def opens (modes : Nat → Mode) (i : Nat) : Option (Nat × List schema.Write) := (modes i).transaction

theorem opens_update (modes : Nat → Mode) (who : Nat) (m : Mode) :
    opens (Function.update modes who m) = Function.update (opens modes) who m.transaction :=
  Function.comp_update Mode.transaction modes who m

structure Once (trace : List (Event)) (modes : Nat → Mode) (st : Store schema) : Prop where
  held : st.Held (opens modes)
  unused : st.Holds (fun _ => True) Unused
  known : ∀ i token, (modes i).seen = some token → (st.tables.resetTokens token).isSome
  silent : ∀ i token, modes i = .fresh token → ∀ e ∈ trace, e.who ≠ i
  asks : ∀ i token, (modes i).token = some token → ∀ other, Presents trace i other → other = token
  spent : ∀ e ∈ trace, Changes e → ∀ token, Presents trace e.who token → st.tables.Used token
  once : ∀ e ∈ trace, ∀ e' ∈ trace, Changes e → Changes e' → ∀ token, Presents trace e.who token →
    Presents trace e'.who token → e.who = e'.who

theorem presents_cons {e : Event} :
    Presents (e :: trace) i token ↔
      e.who = i ∧ e.request = .sql (.run none (.findToken token)) ∨ Presents trace i token := by
  simp [Presents]

theorem Once.turn (once : Once trace modes st) {e : Event} {m : Mode}
    (held : st'.Held (opens (Function.update modes e.who m)))
    (unused : st'.Holds (fun _ => True) Unused)
    (rows : ∀ token, (st.tables.resetTokens token).isSome → (st'.tables.resetTokens token).isSome)
    (grows : ∀ token, st.tables.Used token → st'.tables.Used token)
    (known : ∀ token, m.seen = some token → (st'.tables.resetTokens token).isSome)
    (settled : ∀ token, m ≠ .fresh token)
    (first : (∃ token, e.request = .sql (.run none (.findToken token))) → ∀ e' ∈ trace, e'.who ≠ e.who)
    (asks : ∀ token, m.token = some token → ∀ other, Presents (e :: trace) e.who other → other = token)
    (own : Changes e → ∀ token, Presents (e :: trace) e.who token → st'.tables.Used token ∧ ¬ st.tables.Used token) :
    Once (e :: trace) (Function.update modes e.who m) st' := by
  have earlier : ∀ e' ∈ trace, ∀ token, Presents (e :: trace) e'.who token → Presents trace e'.who token := by
    intro e' inside token presents
    rcases presents_cons.mp presents with ⟨same, asked⟩ | before
    · exact (first ⟨token, asked⟩ e' inside same.symm).elim
    · exact before
  have other : ∀ {i token}, i ≠ e.who → Presents (e :: trace) i token → Presents trace i token := by
    intro i token apart presents
    rcases presents_cons.mp presents with ⟨same, -⟩ | before
    · exact (apart same.symm).elim
    · exact before
  refine ⟨held, unused, ?_, ?_, ?_, ?_, ?_⟩
  · intro i token
    by_cases same : i = e.who
    · subst same
      rw [Function.update_self]
      exact known token
    · rw [Function.update_of_ne same]
      exact fun seen => rows token (once.known i token seen)
  · intro i token
    by_cases same : i = e.who
    · subst same
      rw [Function.update_self]
      exact fun fresh => (settled token fresh).elim
    · rw [Function.update_of_ne same]
      intro fresh
      exact List.forall_mem_cons.mpr ⟨fun mine => same mine.symm, once.silent i token fresh⟩
  · intro i token
    by_cases same : i = e.who
    · subst same
      rw [Function.update_self]
      exact asks token
    · rw [Function.update_of_ne same]
      exact fun has other' presents => once.asks i token has other' (other same presents)
  · intro e' inside changes token presents
    rcases List.mem_cons.mp inside with rfl | inside
    · exact (own changes token presents).1
    · exact grows token (once.spent e' inside changes token (earlier e' inside token presents))
  · intro e' inside e'' inside' changes changes' token presents presents'
    rcases List.mem_cons.mp inside with rfl | old
    · rcases List.mem_cons.mp inside' with rfl | old'
      · rfl
      · have used := once.spent e'' old' changes' token (earlier e'' old' token presents')
        exact ((own changes token presents).2 used).elim
    · rcases List.mem_cons.mp inside' with rfl | old'
      · have used := once.spent e' old changes token (earlier e' old token presents)
        exact ((own changes' token presents').2 used).elim
      · exact once.once e' old e'' old' changes changes' token (earlier e' old token presents)
          (earlier e'' old' token presents')

theorem Once.quiet (once : Once trace modes st) {e : Event} {m : Mode}
    (held : st'.Held (opens (Function.update modes e.who m))) (unused : st'.Holds (fun _ => True) Unused)
    (tables : st'.tables.resetTokens = st.tables.resetTokens)
    (seen : ∀ token, m.seen = some token → (modes e.who).seen = some token)
    (settled : ∀ token, m ≠ .fresh token)
    (knows : ∀ token, m.token = some token → (modes e.who).token = some token)
    (asksNot : ∀ token, e.request ≠ .sql (.run none (.findToken token))) (changesNot : ¬ Changes e) :
    Once (e :: trace) (Function.update modes e.who m) st' := by
  have same : ∀ token, st'.tables.Used token ↔ st.tables.Used token := by
    intro token
    unfold Tables.Used
    rw [tables]
  refine once.turn held unused ?_ (fun token => (same token).mpr) ?_ settled ?_ ?_ fun changes => (changesNot changes).elim
  · intro token
    rw [tables]
    exact id
  · intro token has
    rw [tables]
    exact once.known e.who token (seen token has)
  · rintro ⟨token, asked⟩
    exact (asksNot token asked).elim
  · intro token has other presents
    rcases presents_cons.mp presents with ⟨-, asked⟩ | before
    · exact (asksNot other asked).elim
    · exact once.asks e.who token (knows token has) other before

theorem sqlPerform_store {s s' : State} {r : Sql schema} {a : r.Answer} (answered : s.sqlPerform r = some (a, s')) :
    s.store.perform s.fault r = some (a, s'.store) := by
  obtain ⟨⟨a', store⟩, performed, same⟩ := Option.map_eq_some_iff.mp answered
  cases same
  exact performed

theorem eval_consumed {q : Query} {t : Tables} {a : q.Result} {more : List Write} (ran : q.eval t = .ok (a, more))
    (consumed : Consumed token more) : q = .consumeToken token := by
  obtain ⟨time, inside⟩ := consumed
  cases q with
  | findToken other =>
    cases ran
    exact nomatch inside
  | updatePassword userId hash =>
    cases ran
    split at inside
    · exact nomatch List.mem_singleton.mp inside
    · exact nomatch inside
  | consumeToken other =>
    cases ran
    split at inside
    · cases List.mem_singleton.mp inside
      rfl
    · exact nomatch inside
  | revokeAllUserTokens userId =>
    cases ran
    obtain ⟨row, -, made⟩ := List.mem_map.mp inside
    exact nomatch made

theorem eval_consumeToken {t : Tables} {a : Unit} {more : List Write} (known : (t.resetTokens token).isSome)
    (ran : (Query.consumeToken token).eval t = .ok (a, more)) : Consumed token more := by
  simp only [Query.eval, known, if_true, Except.ok.injEq] at ran
  obtain ⟨-, rfl⟩ := Prod.mk.inj ran
  exact ⟨t.now, List.mem_singleton_self _⟩

theorem not_changes {e : Event} (other : ∀ tx, e.request ≠ .sql (.commit tx)) : ¬ Changes e := by
  rintro ⟨tx, u, h, asked, -⟩
  exact other tx asked

theorem once_step {s s' : State} {who : Nat} {r : Request} {a : Answer r} (once : Once trace modes s.store)
    (permit : Permit (modes who) r) (answered : machine.perform r s = some (a, s'))
    (fine : SeesUnused ⟨who, r, s, s'⟩) :
    ∃ m, Next (modes who) r a m ∧ Once (⟨who, r, s, s'⟩ :: trace) (Function.update modes who m) s'.store := by
  -- a step that leaves the store and its call's mode
  have same : s'.store = s.store → (∀ token, modes who ≠ .fresh token) →
      (∀ token, r ≠ .sql (.run none (.findToken token))) → ¬ Changes ⟨who, r, s, s'⟩ →
      Once (⟨who, r, s, s'⟩ :: trace) (Function.update modes who (modes who)) s'.store := by
    intro kept settled asksNot changesNot
    rw [kept]
    refine once.quiet ?_ once.unused rfl (fun _ seen => seen) settled (fun _ knows => knows) asksNot changesNot
    rw [Function.update_eq_self]
    exact once.held
  -- a transaction that is dropped
  have dropped : ∀ {token tx writes}, modes who = .opened token tx writes → s'.store = s.store.discard tx →
      (∀ token, r ≠ .sql (.run none (.findToken token))) → ¬ Changes ⟨who, r, s, s'⟩ →
      Once (⟨who, r, s, s'⟩ :: trace) (Function.update modes who (.ended token)) s'.store := by
    intro token tx writes mine kept asksNot changesNot
    have open' : opens modes who = some (tx, writes) := congrArg Mode.transaction mine
    rw [kept]
    refine once.quiet ?_ (once.unused.discard unused_lasting tx) rfl nofun nofun ?_ asksNot changesNot
    · rw [opens_update]
      exact once.held.discard open'
    · intro other known
      cases known
      exact congrArg Mode.token mine
  cases r with
  | sql r =>
    have performed := sqlPerform_store answered
    cases r with
    | start =>
      obtain ⟨token, mine⟩ := permit
      have settled : ∀ token, modes who ≠ .fresh token := by
        rw [mine]
        exact nofun
      rcases Store.perform_start performed with ⟨-, rfl, kept⟩ | ⟨-, rfl, kept⟩
      · exact ⟨_, rfl, same kept settled nofun (not_changes nofun)⟩
      · refine ⟨.opened token s.store.next [], ⟨token, mine, rfl⟩, ?_⟩
        rw [kept]
        refine once.quiet ?_ once.unused.opened rfl ?_ nofun ?_ nofun (not_changes nofun)
        · rw [opens_update]
          exact once.held.start (congrArg Mode.transaction mine) (once.unused.unbegun (Nat.le_refl _))
        · intro other seen
          cases seen
          exact congrArg Mode.seen mine
        · intro other known
          cases known
          exact congrArg Mode.token mine
    | run tx q =>
      cases tx with
      | none =>
        obtain ⟨token, mine, rfl⟩ := permit
        have silent := once.silent who token mine
        have idle : opens modes who = none := congrArg Mode.transaction mine
        have unchanged : Function.update (opens modes) who none = opens modes := by
          rw [← idle, Function.update_eq_self]
        -- whatever the answer, the call now knows this token and no other
        have looked : ∀ m, m.transaction = none → (∀ token, m ≠ .fresh token) →
            (∀ other, m.seen = some other → (s.store.tables.resetTokens other).isSome) →
            (∀ other, m.token = some other → token = other) → s'.store = s.store →
            Once (⟨who, .sql (.run none (.findToken token)), s, s'⟩ :: trace) (Function.update modes who m) s'.store := by
          intro m noTx settled seen knows kept
          rw [kept]
          refine once.turn ?_ once.unused (fun _ => id) (fun _ => id) seen settled (fun _ => silent) ?_ ?_
          · rw [opens_update, noTx]
            exact unchanged.symm ▸ once.held
          · intro other known asked presents
            rcases presents_cons.mp presents with ⟨-, same⟩ | ⟨e, inside, his, -⟩
            · cases same
              exact knows other known
            · exact (silent e inside his).elim
          · rintro ⟨tx, u, h, asked, -⟩
            exact nomatch asked
        have ended : s'.store = s.store →
            Once (⟨who, .sql (.run none (.findToken token)), s, s'⟩ :: trace)
              (Function.update modes who (.ended token)) s'.store :=
          looked (.ended token) rfl nofun (fun other seen => nomatch (seen : none = some other))
            fun other same => Option.some.inj same
        rcases Store.perform_run performed with ⟨-, rfl, kept⟩ | ⟨e, -⟩ | ⟨row, more, -, ran, -, rfl, kept⟩
        · exact ⟨_, rfl, ended kept⟩
        · exact e.elim
        · cases ran
          cases found : s.store.tables.resetTokens token with
          | none => exact ⟨.ended token, by simp only [Next, Store.view, found], ended kept⟩
          | some row =>
            refine ⟨.found token, by simp only [Next, Store.view, found], looked (.found token) rfl nofun ?_ ?_ kept⟩
            · intro other same
              cases same
              rw [found]
              rfl
            · exact fun other same => Option.some.inj same
      | some tx =>
        obtain ⟨token, writes, mine, allowed⟩ := permit
        have open' : opens modes who = some (tx, writes) := congrArg Mode.transaction mine
        have settled : ∀ token, modes who ≠ .fresh token := by
          rw [mine]
          exact nofun
        have asksNot : ∀ token, Request.sql (.run (some tx) q) ≠ .sql (.run none (.findToken token)) := nofun
        rcases Store.perform_run performed with ⟨-, rfl, kept⟩ | ⟨e, -⟩ | ⟨a, more, -, ran, free, rfl, kept⟩
        · exact ⟨_, rfl, same kept settled asksNot (not_changes nofun)⟩
        · exact e.elim
        · change List Write at more
          obtain ⟨begun, written⟩ := once.held.writes open'
          have known := once.known who token (congrArg Mode.seen mine)
          refine ⟨.opened token tx (writes ++ more), ⟨token, writes, more, mine, rfl, ?_⟩, ?_⟩
          · rintro rfl
            exact eval_consumeToken ((applyAll_resetTokens _ _ token).trans known) ran
          · rw [kept]
            refine once.quiet ?_ ?_ rfl ?_ nofun ?_ asksNot (not_changes nofun)
            · rw [opens_update]
              exact once.held.record open' more
            · refine once.unused.record unused_lasting free (fun i here => Option.some.inj here ▸ begun) ?_
              rw [Option.map_some, Option.getD_some, written]
              rintro other ⟨time, inside⟩
              rcases List.mem_append.mp inside with before | now
              · exact once.unused.pending tx other (written ▸ ⟨time, before⟩)
              · cases eval_consumed ran ⟨time, now⟩
                exact fine (some tx) other rfl
            · intro other seen
              cases seen
              exact congrArg Mode.seen mine
            · intro other knows
              cases knows
              exact congrArg Mode.token mine
    | commit tx =>
      obtain ⟨token, writes, mine, consumed⟩ := permit
      have open' : opens modes who = some (tx, writes) := congrArg Mode.transaction mine
      rcases Store.perform_commit performed with ⟨failed, rfl, kept⟩ | ⟨-, rfl, kept⟩
      · refine ⟨_, ⟨token, writes, mine, rfl⟩, dropped mine kept nofun ?_⟩
        rintro ⟨tx', u, h, -, healthy, -⟩
        exact absurd (healthy.symm.trans failed) (by decide)
      · refine ⟨_, ⟨token, writes, mine, rfl⟩, ?_⟩
        obtain ⟨-, written⟩ := once.held.writes open'
        have known := once.known who token (congrArg Mode.seen mine)
        rw [kept]
        have landed : (s.store.committed tx).tables = Store.applyAll s.store.tables writes := by
          rw [← written]
          rfl
        refine once.turn ?_ (once.unused.committed unused_lasting tx) ?_ ?_ nofun nofun ?_ ?_ ?_
        · rw [opens_update]
          exact once.held.committed open'
        · intro other there
          rw [landed]
          exact (applyAll_resetTokens _ _ other).trans there
        · intro other used
          rw [landed]
          exact (applyAll_used _ _ other).mpr (.inl used)
        · rintro ⟨other, asked⟩
          exact nomatch asked
        · intro other knows asked presents
          cases knows
          rcases presents_cons.mp presents with ⟨-, same⟩ | before
          · exact nomatch same
          · exact once.asks who token (congrArg Mode.token mine) asked before
        · intro changes other presents
          rcases presents_cons.mp presents with ⟨-, same⟩ | before
          · exact nomatch same
          · cases once.asks who token (congrArg Mode.token mine) other before
            refine ⟨?_, once.unused.pending tx token (written ▸ consumed)⟩
            rw [landed]
            exact (applyAll_used _ _ token).mpr (.inr ⟨consumed, known⟩)
    | rollback tx =>
      obtain ⟨token, writes, mine⟩ := permit
      obtain ⟨-, kept⟩ := Prod.mk.inj (Option.some.inj performed)
      exact ⟨_, ⟨token, writes, mine, rfl⟩, dropped mine kept.symm nofun (not_changes nofun)⟩
  | now | hashPassword | invalidate =>
    obtain ⟨-, rfl⟩ := Prod.mk.inj (Option.some.inj answered)
    exact ⟨_, rfl, same rfl permit nofun (not_changes nofun)⟩
  | clock nanoseconds =>
    obtain ⟨-, rfl⟩ := Prod.mk.inj (Option.some.inj answered)
    refine ⟨_, rfl, ?_⟩
    refine once.quiet ?_ ?_ rfl (fun _ seen => seen) permit (fun _ knows => knows) nofun (not_changes nofun)
    · rw [Function.update_eq_self]
      exact once.held.tables _
    · exact ⟨trivial, once.unused.pending, once.unused.apart, once.unused.unbegun⟩

/-- Calls in any order, each in turns of its own, and the process killed at any time. -/
def Calls : Move machine AppError Unit → Prop := World.Makes fun t => ∃ call : Call, t = call.program

theorem Once.idle {m : Mode} (once : Once trace modes st) (idle : (modes i).transaction = none)
    (noTx : m.transaction = none) (noRow : m.seen = none) (noToken : m.token = none)
    (silent : ∀ token, m = .fresh token → ∀ e ∈ trace, e.who ≠ i) :
    Once trace (Function.update modes i m) st := by
  have same : opens (Function.update modes i m) = opens modes := by
    rw [opens_update, noTx, Function.update_eq_self_iff]
    exact idle.symm
  refine ⟨same ▸ once.held, once.unused, ?_, ?_, ?_, once.spent, once.once⟩
  · intro j token
    by_cases here : j = i
    · subst here
      rw [Function.update_self, noRow]
      exact nofun
    · rw [Function.update_of_ne here]
      exact once.known j token
  · intro j token
    by_cases here : j = i
    · subst here
      rw [Function.update_self]
      exact silent token
    · rw [Function.update_of_ne here]
      exact once.silent j token
  · intro j token
    by_cases here : j = i
    · subst here
      rw [Function.update_self, noToken]
      exact nofun
    · rw [Function.update_of_ne here]
      exact once.asks j token

theorem once_sound : contract.Sound (fun _ e => SeesUnused e) fun trace modes s => Once trace modes s.store where
  turns who :=
    { step := fun once permit answered fine => once_step once permit answered fine
      wait := fun _ _ _ => trivial }
  finish once final := once.idle final rfl rfl rfl nofun
  restart once _ := by
    refine ⟨Store.Held.restart _, once.unused.restart unused_lasting, ?_, nofun, ?_, once.spent, once.once⟩
    · exact fun _ token seen => nomatch (seen : none = some token)
    · exact fun _ token knows => nomatch (knows : none = some token)
  finished_rest := trivial

theorem once_begins {s : State} {m : Mode} (once : Once trace modes s.store) (finished : modes i = .finished)
    (made : ∀ e ∈ trace, e.who < i) (starts : m.Starts) : Once trace (Function.update modes i m) s.store := by
  have silent : ∀ e ∈ trace, e.who ≠ i := fun e inside => Nat.ne_of_lt (made e inside)
  have idle : (modes i).transaction = none := congrArg Mode.transaction finished
  rcases starts with rfl | ⟨token, rfl⟩
  · exact once.idle idle rfl rfl rfl nofun
  · exact once.idle idle rfl rfl rfl fun _ _ => silent

/-- A token changes a password once, if no request consumes it when it is used already. -/
theorem reset_once (s : State) (idle : s.store.writes = fun _ => []) (run : List (Move machine AppError Unit))
    (calls : ∀ move ∈ run, Calls move) (clear : Clear (fun _ e => SeesUnused e) ((World.start s).after run).trace) :
    let trace := ((World.start s).after run).trace
    ∀ token, ∀ e ∈ trace, ∀ e' ∈ trace, Changes e → Changes e' → Presents trace e.who token →
      Presents trace e'.who token → e.who = e'.who := by
  intro trace token e inside e' inside' changes changes' presents presents'
  have start : Once [] (fun _ => .finished) s.store := by
    refine ⟨⟨nofun, nofun, ?_⟩, ⟨trivial, ?_, ?_, ?_⟩, ?_, nofun, ?_, nofun, nofun⟩
    · intro tx open'
      exact (open' (congrFun idle tx)).elim
    · intro tx token consumed
      rw [idle] at consumed
      obtain ⟨time, nothing⟩ := consumed
      exact nomatch nothing
    · intro tx tx' _ w written
      rw [idle] at written
      exact nomatch written
    · exact fun _ => congrFun idle _
    · exact fun _ token seen => nomatch (seen : none = some token)
    · exact fun _ token knows => nomatch (knows : none = some token)
  have makes : ∀ move ∈ run, World.Makes (fun t => ∃ m : contract.Mode, m.Starts ∧
      t.Keeps contract m fun m _ => contract.Final m) move := by
    intro move inside
    have made := calls move inside
    cases move with
    | call t =>
      obtain ⟨call, rfl⟩ := made
      exact call.keeps
    | resume | restart => exact trivial
    | alone t => exact made.elim
  obtain ⟨modes, governs⟩ := World.after_governed_from once_sound once_begins (World.start_governed start) makes clear
  exact governs.fit.once e inside e' inside' changes changes' token presents presents'

end Runs

section Examples

def Request.asksFor (token : String) : Request → Bool
  | .sql (.run none (.findToken other)) => other = token
  | _ => false

theorem Request.asksFor_iff {r : Request} {token : String} :
    r.asksFor token = true ↔ r = .sql (.run none (.findToken token)) := by
  constructor
  · intro asks
    unfold Request.asksFor at asks
    split at asks
    · cases of_decide_eq_true asks
      rfl
    · cases asks
  · rintro rfl
    exact decide_eq_true rfl

def Event.changes (e : Event) : Bool :=
  match e.request with
  | .sql (.commit tx) => !e.before.fault && (e.before.store.writes tx).any fun
    | .passwordHash .. => true
    | _ => false
  | _ => false

theorem Event.changes_iff {e : Event} : e.changes = true ↔ Changes e := by
  constructor
  · intro changes
    unfold Event.changes at changes
    split at changes
    · next tx asked =>
      obtain ⟨healthy, written⟩ := Bool.and_eq_true_iff.mp changes
      obtain ⟨w, inside, isPassword⟩ := List.any_eq_true.mp written
      cases w with
      | passwordHash u h => exact ⟨tx, u, h, asked, by simpa using healthy, inside⟩
      | _ => cases isPassword
    · cases changes
  · rintro ⟨tx, u, h, asked, healthy, inside⟩
    rw [Event.changes, asked]
    simp only [healthy, Bool.not_false, Bool.true_and, List.any_eq_true]
    exact ⟨_, inside, rfl⟩

def changers (trace : List Event) (token : String) : List Nat :=
  ((trace.filter Event.changes).map Lib.Event.who).filter fun i =>
    trace.any fun e => e.who = i && e.request.asksFor token

theorem mem_changers {trace : List Event} {token : String} {i : Nat} :
    i ∈ changers trace token ↔ (∃ e ∈ trace, Changes e ∧ e.who = i) ∧ Presents trace i token := by
  have presents : (trace.any fun e => e.who = i && e.request.asksFor token) = true ↔ Presents trace i token := by
    rw [List.any_eq_true]
    refine exists_congr fun e => and_congr_right fun _ => ?_
    rw [Bool.and_eq_true, decide_eq_true_iff]
    exact and_congr_right fun _ => Request.asksFor_iff
  rw [changers, List.mem_filter, presents, List.mem_map]
  refine and_congr_left fun _ => exists_congr fun e => ?_
  rw [List.mem_filter, Event.changes_iff, and_assoc]

def oneToken : State where
  store :=
    { tables :=
        { passwordHash := fun u => if u = 1 then some "old" else none
          resetTokens := fun token => if token = "reset" then some ⟨1, 900, none⟩ else none
          refreshTokens := []
          now := 0 }
      writes := fun _ => []
      next := 0 }
  tokenInvalidator := .new
  hashes _ password := .ok ("hash of " ++ password)
  faults := []

def scheduled (turns : List (Call ⊕ Nat)) : List (Move machine AppError Unit) := World.schedule Call.program turns

/-- Both requests look the token up before either of them has changed the password. -/
def bothLookedUp : List (Call ⊕ Nat) :=
  [.inl (.resetPassword ⟨"reset", "first password"⟩), .inl (.resetPassword ⟨"reset", "second password"⟩)] ++
    List.replicate 10 (.inr 0) ++ List.replicate 10 (.inr 1)

theorem reset_twice : ¬ ∀ (s : State) (run : List (Move machine AppError Unit)), (s.store.writes = fun _ => []) →
    (∀ move ∈ run, Calls move) →
    let trace := ((World.start s).after run).trace
    ∀ token, ∀ e ∈ trace, ∀ e' ∈ trace, Changes e → Changes e' → Presents trace e.who token →
      Presents trace e'.who token → e.who = e'.who := by
  intro all
  have both : changers ((World.start oneToken).after (scheduled bothLookedUp)).trace "reset" = [1, 0] := by
    decide +kernel
  obtain ⟨⟨e, inside, changes, first⟩, presents⟩ := mem_changers.mp (both ▸ List.mem_cons_of_mem 1 List.mem_cons_self)
  obtain ⟨⟨e', inside', changes', second⟩, presents'⟩ := mem_changers.mp (both ▸ List.mem_cons_self)
  have same := all oneToken (scheduled bothLookedUp) rfl (World.schedule_makes _ _) "reset" e inside e' inside' changes
    changes' (first ▸ presents) (second ▸ presents')
  rw [first, second] at same
  exact absurd same (by decide)

instance (t : Tables) (token : String) : Decidable (t.Used token) :=
  decidable_of_iff ((t.resetTokens token).any fun row => row.usedAt.isSome) (Option.any_eq_true _ _)

def Request.consumes : Request → Option String
  | .sql (.run _ (.consumeToken token)) => some token
  | _ => none

theorem Request.consumes_iff {r : Request} {token : String} :
    r.consumes = some token ↔ ∃ tx, r = .sql (.run tx (.consumeToken token)) := by
  constructor
  · intro consumes
    unfold Request.consumes at consumes
    split at consumes
    · next tx other =>
      cases consumes
      exact ⟨tx, rfl⟩
    · cases consumes
  · rintro ⟨tx, rfl⟩
    rfl

instance (e : Event) : Decidable (SeesUnused e) :=
  decidable_of_iff (∀ token ∈ e.request.consumes, ¬ e.before.tables.Used token)
    ⟨fun sees tx token asked => sees token (Request.consumes_iff.mpr ⟨tx, asked⟩),
      fun sees token consumes => by
        obtain ⟨tx, asked⟩ := Request.consumes_iff.mp consumes
        exact sees tx token asked⟩

/-- One after the other: the second is told that the token has been used. -/
def oneThenOther : List (Call ⊕ Nat) :=
  World.oneByOne 10 [.resetPassword ⟨"reset", "first password"⟩, .resetPassword ⟨"reset", "second password"⟩]

theorem reset_once_in_turn :
    (∀ e ∈ ((World.start oneToken).after (scheduled oneThenOther)).trace,
      ∀ e' ∈ ((World.start oneToken).after (scheduled oneThenOther)).trace, Changes e → Changes e' →
        Presents ((World.start oneToken).after (scheduled oneThenOther)).trace e.who "reset" →
          Presents ((World.start oneToken).after (scheduled oneThenOther)).trace e'.who "reset" → e.who = e'.who) ∧
      changers ((World.start oneToken).after (scheduled oneThenOther)).trace "reset" = [0] := by
  have clear : Clear (fun _ e => SeesUnused e) ((World.start oneToken).after (scheduled oneThenOther)).trace := by
    decide +kernel
  exact ⟨reset_once oneToken rfl (scheduled oneThenOther) (World.schedule_makes _ _) clear "reset", by decide +kernel⟩

end Examples

end Echo.Auth.Reset
