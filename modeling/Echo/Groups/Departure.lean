import Echo.Groups.Election

/-! The ways out of a group: the four routes, and the account deletion of `routes/users.rs` with the
foreign keys behind `db/users.rs`. Each is run to its end with nothing in between; other
transactions may be open. -/
namespace Echo.Groups
open Echo.Lib
open Echo.Server (Uuid Hub)
open Query (maxInt)

section Account

namespace State

def spent (s : State) (accesses : Nat) : State := { s with faults := s.faults.drop accesses }

/-- `delete_account` from its first access to its last, or none where it has to wait. `hasBanned`
stands for `banned_members.banned_by`. -/
def deleteAccount (auth : AuthUser) (hasBanned : Bool) (s : State) : Option (Except AppError Unit × State) :=
  let failed := Except.error (.internal "Database error")
  -- the refresh tokens are revoked first
  if s.fault then some (failed, s.spent 1)
  else
    let s := { s.spent 1 with hub := s.hub.unregisterAll auth.userId }
    if s.fault then some (failed, s.spent 1)
    else
      if (s.tables.usernames auth.userId).isSome && s.awaitsUser auth.userId then none
      else
        match s.tables.deleteUser auth.userId hasBanned with
        | .error _ => some (failed, s.spent 1)
        | .ok (true, tables) => some (.ok (), (s.spent 1).setTables tables)
        | .ok (false, _) => some (.error (.internal "User not found"), s.spent 1)

end State
end Account

inductive Departure where
  | leaveGroup (auth : AuthUser) (groupId : Uuid)
  | leaveConversation (auth : AuthUser) (conversationId : Uuid)
  | removeMember (auth : AuthUser) (groupId targetUserId : Uuid)
  | banMember (auth : AuthUser) (groupId targetUserId : Uuid)
  | deleteAccount (auth : AuthUser) (hasBanned : Bool)

/-- What a call comes to when nothing disturbs it, or none where it has to wait. -/
def ranTo (t : Task Unit) (s : State) : Option (Except AppError Unit × State) :=
  (t.exec s).1.result.map fun result => (result, (t.exec s).2)

namespace Departure

def run : Departure → State → Option (Except AppError Unit × State)
  | leaveGroup auth groupId => ranTo (Groups.leaveGroup auth groupId)
  | leaveConversation auth conversationId => ranTo (Groups.leaveConversation auth conversationId)
  | removeMember auth groupId targetUserId => ranTo (Groups.removeMember auth groupId targetUserId)
  | banMember auth groupId targetUserId => ranTo (Groups.banMember auth groupId targetUserId)
  | deleteAccount auth hasBanned => State.deleteAccount auth hasBanned

def takesOut (groupId userId : Uuid) : Departure → Prop
  | leaveGroup auth g => g = groupId ∧ auth.userId = userId
  | leaveConversation auth g => g = groupId ∧ auth.userId = userId
  | removeMember _ g target => g = groupId ∧ target = userId
  | banMember _ g target => g = groupId ∧ target = userId
  | deleteAccount auth _ => auth.userId = userId

end Departure

def Requested (groupId : Uuid) (version : Int) (s s' : State) : Prop :=
  ∃ sent, s'.outbox = sent ++ s.outbox ∧ ∃ d ∈ sent, ∃ leader fallbackOrder deadlineMs,
    d.notice = .groupKeyRotationRequested groupId version leader fallbackOrder deadlineMs

/-- The group is on the next version, nobody has a key of an older one, and a rotation to the new one
has been asked for. -/
structure Rekeyed (groupId : Uuid) (s s' : State) : Prop where
  version : ∃ n, s.tables.version groupId = some n ∧ s'.tables.version groupId = some (n + 1) ∧
    Requested groupId (n + 1) s s'
  purged : s'.tables.envelopesOf groupId = []

section Peeling
variable {α β : Type} {s s' : State} {n : Nat} {writes : List Write}

def State.answers (s : State) (n : Nat) : Bool := !s.faults.getD n false

theorem spent_fault : (s.spent n).fault = !s.answers n := by
  simp [State.spent, State.fault, State.answers, List.headD_eq_head?_getD]

@[simp] theorem within_answers : (s.within writes).answers n = s.answers n := rfl

theorem spent_spent (n m : Nat) : (s.spent n).spent m = s.spent (n + m) := by
  simp [State.spent, List.drop_drop]

theorem of_exec_ask {r : Request} {result : Except AppError (Answer r)} (ran : (ask r).exec s = (.done result, s')) :
    ∃ a, result = .ok a ∧ State.perform r s = some (a, s') := by
  obtain ⟨a, between, answered, rest⟩ := Async.of_exec_call ran
  obtain ⟨same, rfl⟩ := Prod.mk.inj rest
  cases same
  exact ⟨a, rfl, answered⟩

theorem of_exec_asked {r : Request} {f : Answer r → Task β} {result : Except AppError β}
    (ran : (ask r >>= f).exec s = (.done result, s')) :
    ∃ a between, (ask r).exec s = (.done (.ok a), between) ∧ (f a).exec between = (.done result, s') := by
  rcases Async.of_exec_bind ran with found | ⟨e, failed, -⟩
  · exact found
  · obtain ⟨_, wrong, -⟩ := of_exec_ask failed
    cases wrong

theorem of_exec_sql {r : Sql schema} {a : r.Answer} (ran : (ask (.sql r)).exec s = (.done (.ok a), s')) :
    ∃ store, s.store.perform s.fault r = some (a, store) ∧ s' = { s.spent 1 with store } := by
  obtain ⟨b, here, answered⟩ := of_exec_ask ran
  cases here
  obtain ⟨⟨b, store⟩, performed, both⟩ := Option.map_eq_some_iff.mp (show s.sqlPerform r = some (a, s') from answered)
  obtain ⟨rfl, rfl⟩ := Prod.mk.inj both
  exact ⟨store, performed, by simp [State.spent]⟩

theorem of_exec_ok {t : Task α} {f : α → Task β} {b : β} (ran : (t >>= f).exec s = (.done (.ok b), s')) :
    ∃ a between, t.exec s = (.done (.ok a), between) ∧ (f a).exec between = (.done (.ok b), s') := by
  rcases Async.of_exec_bind ran with found | ⟨e, -, wrong⟩
  · exact found
  · cases wrong

variable {a : α} {q : Query}

theorem of_exec_dbCtx {access : Task (Except (Option Refusal) α)}
    (ran : (dbCtx access).exec s = (.done (.ok a), s')) : access.exec s = (.done (.ok (.ok a)), s') := by
  obtain ⟨answer, between, first, rest⟩ := of_exec_ok ran
  cases answer with
  | ok b =>
    obtain ⟨same, rfl⟩ := Prod.mk.inj rest
    cases same
    exact first
  | error e => cases (Prod.mk.inj rest).1

theorem of_exec_query {tx : Option Nat} {answer : Except (Option Refusal) q.Result}
    (ran : (query q tx).exec s = (.done (.ok answer), s')) :
    (s.fault = true ∧ answer = .error none ∧ s' = s.spent 1) ∨
      (∃ e, s.fault = false ∧ q.eval (s.store.view tx) = .error e ∧ answer = .error (some e) ∧ s' = s.spent 1) ∨
      ∃ a more, s.fault = false ∧ q.eval (s.store.view tx) = .ok (a, more) ∧ answer = .ok a ∧
        s' = { s.spent 1 with store := s.store.record tx more } := by
  obtain ⟨store, performed, rfl⟩ := of_exec_sql ran
  rcases Store.perform_run performed with ⟨fault, rfl, rfl⟩ | ⟨e, fault, refused, rfl, rfl⟩ |
      ⟨b, more, fault, evaluated, -, rfl, rfl⟩
  · exact .inl ⟨fault, rfl, rfl⟩
  · exact .inr (.inl ⟨e, fault, refused, rfl, rfl⟩)
  · exact .inr (.inr ⟨b, more, fault, evaluated, rfl, rfl⟩)

theorem within_ends {r : Except AppError q.Result}
    (ran : (dbCtx (query q (some s.store.next))).exec ((s.within writes).spent n) = (.done r, s')) :
    (∃ a more, s.answers n = true ∧ q.eval (Store.applyAll (S := schema) s.tables writes) = .ok (a, more) ∧
        r = .ok a ∧ s' = (s.within (writes ++ more)).spent (n + 1)) ∨
      (∃ e, r = .error e) ∧ (s.answers n = true → ∃ e, q.eval (Store.applyAll (S := schema) s.tables writes) = .error e) := by
  have view : ((s.within writes).spent n).store.view (some s.store.next) =
      Store.applyAll (S := schema) s.tables writes := by
    simp [Store.view, State.within, State.spent, State.tables]
  have fault : ((s.within writes).spent n).fault = !s.answers n := spent_fault
  rcases Async.of_exec_bind ran with ⟨answer, between, first, rest⟩ | ⟨e, failed, -⟩
  · rcases of_exec_query first with ⟨down, rfl, rfl⟩ | ⟨e, -, refused, rfl, rfl⟩ | ⟨b, more, up, evaluated, rfl, rfl⟩
    · obtain ⟨same, rfl⟩ := Prod.mk.inj rest
      cases same
      exact .inr ⟨⟨_, rfl⟩, by simp_all⟩
    · obtain ⟨same, rfl⟩ := Prod.mk.inj rest
      cases same
      rw [view] at refused
      exact .inr ⟨⟨_, rfl⟩, fun _ => ⟨e, refused⟩⟩
    · obtain ⟨same, rfl⟩ := Prod.mk.inj rest
      cases same
      rw [view] at evaluated
      refine .inl ⟨b, more, by simpa [fault] using up, evaluated, rfl, ?_⟩
      simp [State.spent, State.within, Store.record, List.drop_drop]
  · obtain ⟨_, wrong, -⟩ := of_exec_ask failed
    cases wrong

theorem of_exec_within {a : q.Result}
    (ran : (dbCtx (query q (some s.store.next))).exec ((s.within writes).spent n) = (.done (.ok a), s')) :
    s.answers n = true ∧ ∃ more, q.eval (Store.applyAll (S := schema) s.tables writes) = .ok (a, more) ∧
      s' = (s.within (writes ++ more)).spent (n + 1) := by
  rcases within_ends ran with ⟨b, more, answered, evaluated, same, rfl⟩ | ⟨⟨e, wrong⟩, -⟩
  · cases same
    exact ⟨answered, more, evaluated, rfl⟩
  · cases wrong

theorem of_exec_read {a : q.Result} {f : Except (Option Refusal) q.Result → Task β}
    {result : Except AppError β} (ran : (query q none >>= f).exec (s.spent n) = (.done result, s'))
    (reads : q.eval s.tables = .ok (a, [])) :
    (f (if s.answers n then .ok a else .error none)).exec (s.spent (n + 1)) = (.done result, s') := by
  obtain ⟨answer, between, first, rest⟩ := of_exec_asked ran
  have up : s.answers n = !(s.spent n).fault := by simp [spent_fault]
  rcases of_exec_query first with ⟨down, rfl, rfl⟩ | ⟨e, -, refused, -, -⟩ | ⟨b, more, fault, evaluated, rfl, rfl⟩
  · rw [up, down, ← spent_spent]
    exact rest
  · cases reads.symm.trans refused
  · obtain ⟨rfl, rfl⟩ := Prod.mk.inj (Except.ok.inj (reads.symm.trans evaluated))
    rw [up, fault, ← spent_spent]
    exact rest

theorem transaction_ends {body : Nat → Task α} {r : Except AppError α}
    (ran : (transaction body).exec (s.spent n) = (.done r, s')) :
    (∃ a between, s.answers n = true ∧
        (body s.store.next).exec ((s.within []).spent (n + 1)) = (.done (.ok a), between) ∧ between.fault = false ∧
        r = .ok a ∧ s' = { between.spent 1 with store := between.store.committed s.store.next }) ∨
      (∃ e, r = .error e) ∧ (s.answers n = true → ∃ result between,
        (body s.store.next).exec ((s.within []).spent (n + 1)) = (.done result, between) ∧
          ∀ a, result = .ok a → between.fault = true) := by
  have opened : { (s.spent n).spent 1 with store := (s.spent n).store.opened } = (s.within []).spent (n + 1) := by
    simp [State.within, State.spent, Store.opened]
  rcases Async.of_exec_bind ran with ⟨tx, between, started, rest⟩ | ⟨e, started, rfl⟩
  · obtain ⟨store, performed, rfl⟩ := of_exec_sql (of_exec_dbCtx started)
    rcases Store.perform_start performed with ⟨-, wrong, -⟩ | ⟨fault, begun, rfl⟩
    · cases wrong
    obtain rfl : tx = s.store.next := Except.ok.inj begun
    have answered : s.answers n = true := by simpa [spent_fault] using fault
    rw [opened] at rest
    rcases Async.of_exec_bind rest with ⟨a, between, inner, rest⟩ | ⟨e, inner, rfl⟩
    · have whole : (body s.store.next).exec ((s.within []).spent (n + 1)) = (.done (.ok a), between) := by
        rcases Async.of_exec_catching inner with ⟨b, ended, here⟩ | ⟨e, between', -, failed⟩
        · cases here
          exact ended
        · obtain ⟨_, _, _, wrong⟩ := of_exec_ok failed
          cases (Prod.mk.inj wrong).1
      rcases Async.of_exec_bind rest with ⟨_, ended, committed, rest⟩ | ⟨e, committed, rfl⟩
      · obtain ⟨here, rfl⟩ := Prod.mk.inj rest
        cases here
        obtain ⟨store, performed, rfl⟩ := of_exec_sql (of_exec_dbCtx committed)
        rcases Store.perform_commit performed with ⟨-, wrong, -⟩ | ⟨up, -, rfl⟩
        · cases wrong
        exact .inl ⟨a, between, answered, whole, up, rfl, rfl⟩
      · refine .inr ⟨⟨e, rfl⟩, fun _ => ⟨.ok a, between, whole, fun _ _ => ?_⟩⟩
        rcases Async.of_exec_bind committed with ⟨answer, after, asked, rest⟩ | ⟨e, failed, -⟩
        · obtain ⟨store, performed, rfl⟩ := of_exec_sql asked
          rcases Store.perform_commit performed with ⟨down, -, -⟩ | ⟨-, rfl, -⟩
          · exact down
          · cases (Prod.mk.inj rest).1
        · obtain ⟨_, wrong, -⟩ := of_exec_ask failed
          cases wrong
    · refine .inr ⟨⟨e, rfl⟩, fun _ => ?_⟩
      rcases Async.of_exec_catching inner with ⟨b, -, wrong⟩ | ⟨e', between, ended, -⟩
      · cases wrong
      · refine ⟨.error e', between, ended, fun _ same => ?_⟩
        cases same
  · refine .inr ⟨⟨e, rfl⟩, fun answered => ?_⟩
    rcases Async.of_exec_bind started with ⟨answer, after, asked, rest⟩ | ⟨e, failed, -⟩
    · obtain ⟨store, performed, rfl⟩ := of_exec_sql asked
      rcases Store.perform_start performed with ⟨down, -, -⟩ | ⟨-, rfl, -⟩
      · simp [spent_fault, answered] at down
      · cases (Prod.mk.inj rest).1
    · obtain ⟨_, wrong, -⟩ := of_exec_ask failed
      cases wrong

theorem of_exec_transaction {body : Nat → Task α}
    (ran : (transaction body).exec (s.spent n) = (.done (.ok a), s')) :
    s.answers n = true ∧ ∃ between, (body s.store.next).exec ((s.within []).spent (n + 1)) = (.done (.ok a), between) ∧
      between.fault = false ∧ s' = { between.spent 1 with store := between.store.committed s.store.next } := by
  rcases transaction_ends ran with ⟨b, between, answered, ran, fault, same, rfl⟩ | ⟨⟨e, wrong⟩, -⟩
  · cases same
    exact ⟨answered, between, ran, fault, rfl⟩
  · cases wrong

theorem of_exec_require {c : Bool} {e : AppError} {a : Unit} (ran : (require c e).exec s = (.done (.ok a), s')) :
    c = true ∧ s' = s := by
  unfold require at ran
  split at ran
  · exact ⟨‹_›, (Prod.mk.inj ran).2.symm⟩
  · cases (Prod.mk.inj ran).1

theorem of_exec_okOr {e : AppError} {o : Option α} (ran : (okOr e o).exec s = (.done (.ok a), s')) :
    o = some a ∧ s' = s := by
  cases o with
  | none => cases (Prod.mk.inj ran).1
  | some b =>
    obtain ⟨same, rfl⟩ := Prod.mk.inj ran
    cases same
    exact ⟨rfl, rfl⟩

end Peeling

section Rotation
variable {s s' : State} {c : Uuid} {n : Nat}

/-- What a rotation after these accesses needs: seven accesses that come through, a next version, and
a member who is online. -/
structure State.Rotates (s : State) (c : Uuid) (n : Nat) : Prop where
  answers : ∀ k < 7, s.answers (n + k) = true
  room : s.tables.version c ≠ some maxInt
  online : s.online c ≠ []

def Unheard : Request → Prop
  | .sql _ | .invalidateMemberCache _ => True
  | _ => False

theorem unheard_outbox {r : Request} {a : Answer r} (unheard : Unheard r) (answered : State.perform r s = some (a, s')) :
    s'.outbox = s.outbox := by
  cases r with
  | sql r =>
    obtain ⟨⟨b, store⟩, -, both⟩ := Option.map_eq_some_iff.mp (show s.sqlPerform r = some (a, s') from answered)
    rw [← (Prod.mk.inj both).2]
  | invalidateMemberCache g => exact (congrArg (fun x => x.2.outbox) (Option.some.inj answered)).symm
  | _ => exact unheard.elim

theorem exec_unheard {α : Type} {t t' : Task α} (only : t.Only Unheard) (ran : t.exec s = (t', s')) :
    s'.outbox = s.outbox :=
  only.exec (R := fun s s' : State => s'.outbox = s.outbox) (fun _ => rfl)
    (fun unheard answered rest => rest.trans (unheard_outbox unheard answered)) ran

theorem transaction_unheard {α : Type} {body : Nat → Task α} (only : ∀ tx, (body tx).Only Unheard) :
    (transaction body).Only Unheard := by
  refine bind_only (dbCtx_only (ask_only trivial)) fun tx => ?_
  refine bind_only ((only tx).catching fun _ => bind_only (ask_only trivial) fun _ => trivial) fun _ => ?_
  exact bind_only (dbCtx_only (ask_only trivial)) fun _ => trivial

theorem committed_landed {writes : List Write} :
    { ((s.within writes).spent n).spent 1 with store := ((s.within writes).spent n).store.committed s.store.next } =
      (s.landed writes).spent (n + 1) := by
  simp [State.spent, State.within, State.landed, Store.committed, Store.discard, State.tables, List.drop_drop]

theorem bump_unheard : (bumpKeyVersionAndPurgeEnvelopes c).Only Unheard := by
  refine transaction_unheard fun tx => bind_only (dbCtx_only (query_only trivial)) fun v => ?_
  exact bind_only (dbCtx_only (query_only trivial)) fun _ => trivial

def bumpWrites (t : Tables) (c : Uuid) (v : Int) : List Write :=
  [.keyVersion c (v + 1), .purge c ((t.envelopesOf c).map fun e => (e.keyVersion, e.recipientUserId))]

variable {t : Tables} {v : Int}

theorem eval_bump (known : t.version c = some v) :
    (Query.bumpKeyVersion c).eval t =
      if v = maxInt then .error .outOfRange else .ok (v + 1, [.keyVersion c (v + 1)]) := by
  obtain ⟨row, found, rfl⟩ := Option.map_eq_some_iff.mp known
  simp only [Query.eval, found]

theorem bump_ends {r : Except AppError Int} (known : s.tables.version c = some v)
    (ran : (bumpKeyVersionAndPurgeEnvelopes c).exec (s.spent n) = (.done r, s')) :
    ((v ≠ maxInt ∧ ∀ k < 4, s.answers (n + k) = true) ∧ r = .ok (v + 1) ∧
        s' = (s.landed (bumpWrites s.tables c v)).spent (n + 4)) ∨
      (∃ e, r = .error e) ∧ ¬ (v ≠ maxInt ∧ ∀ k < 4, s.answers (n + k) = true) := by
  have evaluated := eval_bump known
  rcases transaction_ends ran with ⟨a, between, begun, body, fault, rfl, rfl⟩ | ⟨failed, cause⟩
  · obtain ⟨version, bumped, first, rest⟩ := of_exec_ok body
    obtain ⟨up, more, here, rfl⟩ := of_exec_within first
    rw [show Store.applyAll (S := schema) s.tables [] = s.tables from rfl, evaluated] at here
    split at here
    · cases here
    · rename_i room
      obtain ⟨rfl, rfl⟩ := Prod.mk.inj (Except.ok.inj here)
      obtain ⟨_, purged, second, last⟩ := of_exec_ok rest
      obtain ⟨up', more, there, rfl⟩ := of_exec_within second
      obtain ⟨-, rfl⟩ := Prod.mk.inj (Except.ok.inj there)
      obtain ⟨same, rfl⟩ := Prod.mk.inj last
      cases same
      have last := spent_fault.symm.trans fault
      rw [within_answers, Bool.not_eq_false'] at last
      refine .inl ⟨⟨room, fun k below => ?_⟩, rfl, committed_landed⟩
      match k, below with
      | 0, _ => exact begun
      | 1, _ => exact up
      | 2, _ => exact up'
      | 3, _ => exact last
  · refine .inr ⟨failed, fun ⟨room, all⟩ => ?_⟩
    obtain ⟨result, between, body, fails⟩ := cause (all 0 (by decide))
    rw [if_neg room] at evaluated
    rcases Async.of_exec_bind body with ⟨version, bumped, first, rest⟩ | ⟨e, first, -⟩
    · obtain ⟨up, more, here, rfl⟩ := of_exec_within first
      rcases Async.of_exec_bind rest with ⟨_, purged, second, last⟩ | ⟨e, second, -⟩
      · obtain ⟨up', more, there, rfl⟩ := of_exec_within second
        obtain ⟨same, rfl⟩ := Prod.mk.inj last
        cases same
        have down := spent_fault.symm.trans (fails _ rfl)
        rw [within_answers, Bool.not_eq_true', all 3 (by decide)] at down
        cases down
      · rcases within_ends second with ⟨a, more, -, -, wrong, -⟩ | ⟨-, refused⟩
        · cases wrong
        · obtain ⟨e, wrong⟩ := refused (all 2 (by decide))
          cases wrong
    · rcases within_ends first with ⟨a, more, -, -, wrong, -⟩ | ⟨-, refused⟩
      · cases wrong
      · obtain ⟨e, wrong⟩ := refused (all 1 (by decide))
        rw [show Store.applyAll (S := schema) s.tables [] = s.tables from rfl, evaluated] at wrong
        cases wrong

theorem broadcast_ends {r : Except AppError Unit}
    (ran : (broadcastRotationRequested c v).exec (s.spent n) = (.done r, s')) :
    r = .ok () ∧ s'.tables = s.tables ∧
      ((s.answers n = true ∧ s.answers (n + 1) = true ∧ s.online c ≠ []) ∧ Requested c v s s' ∨
        ¬ (s.answers n = true ∧ s.answers (n + 1) = true ∧ s.online c ≠ []) ∧ s'.outbox = s.outbox) := by
  have ran := of_exec_read (q := .memberIds c) ran (a := s.tables.getConversationMemberIds c) rfl
  cases first : s.answers n with
  | false =>
    rw [first] at ran
    obtain ⟨same, rfl⟩ := Prod.mk.inj ran
    exact ⟨(Async.done.inj same).symm, rfl, .inr ⟨by simp, rfl⟩⟩
  | true =>
    rw [first] at ran
    change ((onlineSubset (s.tables.getConversationMemberIds c)) >>= _ : Task Unit).exec _ = _ at ran
    have online : (onlineSubset (s.tables.getConversationMemberIds c)).exec (s.spent (n + 1)) =
        (.done (.ok (s.online c)), s.spent (n + 1)) := exec_onlineSubset _ _
    rw [exec_bind online] at ran
    cases found : electRotationLeader (s.online c) with
    | none =>
      rw [found] at ran
      obtain ⟨same, rfl⟩ := Prod.mk.inj ran
      have nobody : s.online c = [] := by
        by_contra some'
        obtain ⟨u, inside⟩ := List.exists_mem_of_ne_nil _ some'
        obtain ⟨elected, wrong⟩ := elected_some inside
        cases found.symm.trans wrong
      exact ⟨(Async.done.inj same).symm, rfl, .inr ⟨by simp [nobody], rfl⟩⟩
    | some elected =>
      rw [found] at ran
      have some' : s.online c ≠ [] := by
        intro nobody
        rw [nobody] at found
        cases found
      have ran := of_exec_read (q := .memberIds c) ran (a := s.tables.getConversationMemberIds c) rfl
      cases second : s.answers (n + 1) with
      | false =>
        rw [second] at ran
        obtain ⟨same, rfl⟩ := Prod.mk.inj ran
        exact ⟨(Async.done.inj same).symm, rfl, .inr ⟨by simp, rfl⟩⟩
      | true =>
        rw [second] at ran
        obtain ⟨same, rfl⟩ := Prod.mk.inj ran
        refine ⟨(Async.done.inj same).symm, rfl, .inl ⟨⟨rfl, rfl, some'⟩, ?_⟩⟩
        exact ⟨[_], rfl, _, List.mem_singleton_self _, _, _, _, rfl⟩

theorem Requested.moved {s₁ : State} (requested : Requested c v s₁ s') (same : s₁.outbox = s.outbox) :
    Requested c v s s' := by
  unfold Requested at requested ⊢
  rwa [same] at requested

theorem bumped_version (known : t.version c = some v) :
    Tables.version (Store.applyAll (S := schema) t (bumpWrites t c v)) c = some (v + 1) := by
  obtain ⟨row, found, rfl⟩ := Option.map_eq_some_iff.mp known
  simp [bumpWrites, Store.applyAll, Tables.apply, Tables.version, Tables.onConversation, found]

theorem bumped_envelopes :
    Tables.envelopesOf (Store.applyAll (S := schema) t (bumpWrites t c v)) c = [] := by
  refine List.filter_eq_nil_iff.mpr fun row inside mine => ?_
  obtain ⟨there, kept⟩ := List.mem_filter.mp (show row ∈ t.envelopes.filter _ from inside)
  have mine : row.conversationId = c := of_decide_eq_true mine
  refine of_decide_eq_true kept ⟨mine, List.mem_map.mpr ⟨row, List.mem_filter.mpr ⟨there, ?_⟩, rfl⟩⟩
  exact decide_eq_true mine

theorem rotate_ends {r : Except AppError Unit} (known : s.tables.version c = some v)
    (encrypted : (s.tables.conversations c).map Conversation.isEncrypted = some true)
    (ran : (rotateGroupKeyAfterMemberLoss c).exec (s.spent n) = (.done r, s')) :
    s.Rotates c n ∧ Rekeyed c s s' ∨ ¬ s.Rotates c n ∧ s'.outbox = s.outbox := by
  have ran := of_exec_read (q := .isEncrypted c) ran (a := true) (by simp [Query.eval, encrypted])
  cases first : s.answers n with
  | false =>
    rw [first] at ran
    obtain ⟨-, rfl⟩ := Prod.mk.inj ran
    exact .inr ⟨fun rotates => Bool.false_ne_true (first.symm.trans (rotates.answers 0 (by decide))), rfl⟩
  | true =>
    rw [first] at ran
    change ((bumpKeyVersionAndPurgeEnvelopes c >>= broadcastRotationRequested c).catching fun _ => pure ()).exec _ = _ at ran
    rcases Async.of_exec_catching ran with ⟨_, inner, rfl⟩ | ⟨e, between, inner, rest⟩
    · obtain ⟨version, middle, bumped, asked⟩ := of_exec_ok inner
      rcases bump_ends known bumped with ⟨⟨room, all⟩, same, rfl⟩ | ⟨⟨e, wrong⟩, -⟩
      · cases same
        have same : (s.landed (bumpWrites s.tables c v)).online c = s.online c := rfl
        obtain ⟨-, tables, ended⟩ := broadcast_ends asked
        rw [same] at ended
        rcases ended with ⟨⟨up, up', online⟩, requested⟩ | ⟨stuck, silent⟩
        · refine .inl ⟨⟨fun k below => ?_, by simpa [known] using room, online⟩, ⟨⟨v, known, ?_, requested⟩, ?_⟩⟩
          · rcases k with _ | _ | _ | _ | _ | _ | _ | k
            · exact first
            · exact all 0 (by decide)
            · exact all 1 (by decide)
            · exact all 2 (by decide)
            · exact all 3 (by decide)
            · exact up
            · exact up'
            · omega
          · rw [tables]
            exact bumped_version known
          · rw [tables]
            exact bumped_envelopes
        · exact .inr ⟨fun rotates => stuck ⟨rotates.answers 5 (by decide), rotates.answers 6 (by decide),
            rotates.online⟩, silent⟩
      · cases wrong
    · obtain ⟨-, rfl⟩ := Prod.mk.inj rest
      rcases Async.of_exec_bind inner with ⟨version, middle, bumped, asked⟩ | ⟨e, bumped, -⟩
      · rcases bump_ends known bumped with ⟨-, -, rfl⟩ | ⟨⟨e, wrong⟩, -⟩
        · cases (broadcast_ends asked).1
        · cases wrong
      · refine .inr ⟨fun rotates => ?_, (exec_unheard bump_unheard bumped :)⟩
        rcases bump_ends known bumped with ⟨-, wrong, -⟩ | ⟨-, stuck⟩
        · cases wrong
        · refine stuck ⟨fun full => rotates.room (by rw [known, full]), fun k below => ?_⟩
          rw [Nat.add_right_comm]
          exact rotates.answers (k + 1) (by omega)

end Rotation

section Loss
variable {s s₁ s' : State} {c : Uuid} {n : Nat}

def Trailing : Request → Prop
  | .sql (.run none (.findById _)) | .sql (.run none (.insertSystemMessage ..)) => True
  | .broadcastJson _ (.newMessage ..) _ => True
  | _ => False

structure Trails (c : Uuid) (s s' : State) : Prop where
  version : s'.tables.version c = s.tables.version c
  envelopes : s'.tables.envelopesOf c = s.tables.envelopesOf c
  outbox : ∃ sent, s'.outbox = sent ++ s.outbox ∧
    ∀ d ∈ sent, ∀ g v leader fallback ms, d.notice ≠ .groupKeyRotationRequested g v leader fallback ms

theorem Trails.silent (version : s'.tables.version c = s.tables.version c)
    (envelopes : s'.tables.envelopesOf c = s.tables.envelopesOf c) (outbox : s'.outbox = s.outbox) : Trails c s s' :=
  ⟨version, envelopes, [], outbox, List.forall_mem_nil _⟩

theorem Trails.refl (s : State) : Trails c s s := .silent rfl rfl rfl

theorem Trails.trans (first : Trails c s s₁) (second : Trails c s₁ s') : Trails c s s' := by
  obtain ⟨sent, more, none⟩ := first.outbox
  obtain ⟨sent', more', none'⟩ := second.outbox
  refine ⟨second.version.trans first.version, second.envelopes.trans first.envelopes, sent' ++ sent, ?_, ?_⟩
  · rw [more', more, List.append_assoc]
  · intro d inside
    rcases List.mem_append.mp inside with inside | inside
    · exact none' d inside
    · exact none d inside

theorem trailing_step {r : Request} {a : Answer r} (trailing : Trailing r) (answered : State.perform r s = some (a, s')) :
    Trails c s s' := by
  unfold Trailing at trailing
  split at trailing
  · obtain ⟨⟨b, store⟩, performed, both⟩ := Option.map_eq_some_iff.mp answered
    obtain ⟨-, rfl⟩ := Prod.mk.inj both
    rcases Store.perform_run performed with ⟨-, -, rfl⟩ | ⟨e, -, -, -, rfl⟩ | ⟨x, writes, -, evaluated, -, -, rfl⟩
    · exact .silent rfl rfl rfl
    · exact .silent rfl rfl rfl
    · obtain ⟨-, rfl⟩ := Prod.mk.inj (Except.ok.inj evaluated)
      exact .silent rfl rfl rfl
  · rename_i g u text
    obtain ⟨⟨b, store⟩, performed, both⟩ := Option.map_eq_some_iff.mp answered
    obtain ⟨-, rfl⟩ := Prod.mk.inj both
    rcases Store.perform_run performed with ⟨-, -, rfl⟩ | ⟨e, -, -, -, rfl⟩ | ⟨x, writes, -, evaluated, -, -, rfl⟩
    · exact .silent rfl rfl rfl
    · exact .silent rfl rfl rfl
    · have written : writes = [.systemMessage ⟨g, u, text⟩] := by
        simp only [Query.eval] at evaluated
        split at evaluated
        · cases evaluated
        · exact (Prod.mk.inj (Except.ok.inj evaluated)).2.symm
      subst written
      have same : Store.applyAll (S := schema) s.tables [.systemMessage ⟨g, u, text⟩] =
          if (s.tables.conversations g).isSome then
            { s.tables with systemMessages := s.tables.systemMessages ++ [⟨g, u, text⟩] }
          else s.tables := rfl
      have kept : ∀ t : Tables, t = Store.applyAll (S := schema) s.tables [.systemMessage ⟨g, u, text⟩] →
          t.version c = s.tables.version c ∧ t.envelopesOf c = s.tables.envelopesOf c := by
        intro t here
        rw [here, same]
        split <;> exact ⟨rfl, rfl⟩
      obtain ⟨version, envelopes⟩ := kept _ rfl
      exact .silent version envelopes rfl
  · obtain ⟨-, rfl⟩ := Prod.mk.inj (Option.some.inj answered)
    refine ⟨rfl, rfl, [_], rfl, fun d inside => ?_⟩
    rw [List.mem_singleton.mp inside]
    rintro _ _ _ _ _ ⟨⟩
  · exact trailing.elim

theorem exec_trailing {α : Type} {t t' : Task α} (only : t.Only Trailing) (ran : t.exec s = (t', s')) : Trails c s s' :=
  only.exec (R := Trails c) Trails.refl (fun trailing answered rest => (trailing_step trailing answered).trans rest) ran

theorem Rekeyed.trails (rekeyed : Rekeyed c s s₁) (trails : Trails c s₁ s') : Rekeyed c s s' := by
  obtain ⟨v, before, after, sent, same, d, inside, request⟩ := rekeyed.version
  obtain ⟨more, grown, -⟩ := trails.outbox
  refine ⟨⟨v, before, trails.version.trans after, more ++ sent, ?_, d, List.mem_append_right _ inside, request⟩, ?_⟩
  · rw [grown, same, List.append_assoc]
  · exact trails.envelopes.trans rekeyed.purged

theorem Trails.not_rekeyed (trails : Trails c s₁ s') (same : s₁.outbox = s.outbox) : ¬ Rekeyed c s s' := by
  intro rekeyed
  obtain ⟨v, -, -, sent, grown, d, inside, leader, fallback, ms, request⟩ := rekeyed.version
  obtain ⟨more, grown', none⟩ := trails.outbox
  rw [same, grown] at grown'
  exact none d (List.append_cancel_right grown' ▸ inside) _ _ _ _ _ request

theorem loss_ends {v : Int} {w : Uuid} {r : Except AppError Unit} {tail : List Uuid → Task Unit}
    (known : s.tables.version c = some v)
    (encrypted : (s.tables.conversations c).map Conversation.isEncrypted = some true)
    (remains : s.tables.isMember c w = true) (last : ∀ remaining, (tail remaining).Only Trailing)
    (ran : (do
      let remaining ← unwrapOrDefault (query (.memberIds c) none)
      if remaining.isEmpty then
        let _ ← query (.forceDeleteConversation c) none
        pure ()
      else
        rotateGroupKeyAfterMemberLoss c
        tail remaining).exec s = (.done r, s')) :
    Rekeyed c s s' ↔ s.answers 0 = true ∧ s.Rotates c 1 := by
  have read : ∀ {between result}, (unwrapOrDefault (query (.memberIds c) none)).exec s = (.done result, between) →
      result = .ok (if s.answers 0 then s.tables.getConversationMemberIds c else []) ∧ between = s.spent 1 := by
    intro between result ran
    have ran := of_exec_read (q := .memberIds c) (n := 0) ran (a := s.tables.getConversationMemberIds c) rfl
    cases first : s.answers 0 with
    | false | true =>
      rw [first] at ran
      obtain ⟨same, rfl⟩ := Prod.mk.inj ran
      exact ⟨(Async.done.inj same).symm, rfl⟩
  rcases Async.of_exec_bind ran with ⟨remaining, between, first, rest⟩ | ⟨e, first, -⟩
  · obtain ⟨same, rfl⟩ := read first
    cases same
    cases up : s.answers 0 with
    | false =>
      rw [up] at rest
      have only : (query (.forceDeleteConversation c) none >>= fun _ => pure () : Task Unit).Only Unheard :=
        bind_only (query_only trivial) fun _ => trivial
      have silent : s'.outbox = s.outbox := exec_unheard (s := s.spent 1) only rest
      exact ⟨fun rekeyed => ((Trails.refl s').not_rekeyed silent rekeyed).elim, by simp⟩
    | true =>
      rw [up, if_pos rfl, if_neg] at rest
      · have ended : ∀ {r between}, (rotateGroupKeyAfterMemberLoss c).exec (s.spent 1) = (.done r, between) →
            Trails c between s' → (Rekeyed c s s' ↔ true = true ∧ s.Rotates c 1) := by
          intro r between rotated trails
          rcases rotate_ends known encrypted rotated with ⟨rotates, rekeyed⟩ | ⟨stuck, silent⟩
          · exact ⟨fun _ => ⟨rfl, rotates⟩, fun _ => rekeyed.trails trails⟩
          · exact ⟨fun rekeyed => (trails.not_rekeyed silent rekeyed).elim, fun both => (stuck both.2).elim⟩
        rcases Async.of_exec_bind rest with ⟨_, after, rotated, trailing⟩ | ⟨e, rotated, -⟩
        · exact ended rotated (exec_trailing (last _) trailing)
        · exact ended rotated (Trails.refl s')
      · have inside := mem_memberIds.mpr remains
        rw [List.isEmpty_iff]
        exact List.ne_nil_of_mem inside
  · cases (read first).1

end Loss

structure Parting (s : State) (c u : Uuid) : Prop where
  encrypted : (s.tables.conversations c).map Conversation.isEncrypted = some true
  member : s.tables.isMember c u = true
  remains : ∃ w ≠ u, s.tables.isMember c w = true

theorem Parting.known {s : State} {c u : Uuid} (parting : Parting s c u) : ∃ v, s.tables.version c = some v := by
  obtain ⟨row, found, -⟩ := Option.map_eq_some_iff.mp parting.encrypted
  exact ⟨row.keyVersion, by simp [Tables.version, found]⟩

section Removals
variable {s s₁ s' : State} {c u : Uuid} {auth : AuthUser} {n k : Nat}

/-- Where the departed user is no longer a member, and nothing else has changed that a rotation looks at. -/
structure Left (c u : Uuid) (k : Nat) (s s₁ : State) : Prop where
  version : s₁.tables.version c = s.tables.version c
  encrypted : (s₁.tables.conversations c).map Conversation.isEncrypted =
    (s.tables.conversations c).map Conversation.isEncrypted
  members : ∀ w, s₁.tables.isMember c w = true ↔ s.tables.isMember c w = true ∧ w ≠ u
  hub : s₁.hub = s.hub
  outbox : s₁.outbox = s.outbox
  faults : s₁.faults = s.faults.drop k

/-- What the rotation after a removal needs. `k` is the number of accesses up to the end of the removal. -/
structure State.RotatesWithout (s : State) (c u : Uuid) (k : Nat) : Prop where
  answers : ∀ j < 8, s.answers (k + j) = true
  room : s.tables.version c ≠ some maxInt
  online : ∃ w ≠ u, s.tables.isMember c w = true ∧ 0 < s.hub.deviceCount w

theorem Left.answers (left : Left c u k s s₁) (j : Nat) : s₁.answers j = s.answers (k + j) := by
  simp [State.answers, left.faults, List.getD_eq_getElem?_getD, List.getElem?_drop]

theorem Left.rotates (left : Left c u k s s₁) : s₁.answers 0 = true ∧ s₁.Rotates c 1 ↔ s.RotatesWithout c u k := by
  have somebody : s₁.online c ≠ [] ↔ ∃ w ≠ u, s.tables.isMember c w = true ∧ 0 < s.hub.deviceCount w := by
    rw [ne_eq, List.eq_nil_iff_forall_not_mem, not_forall_not]
    constructor
    · rintro ⟨w, inside⟩
      obtain ⟨member, online⟩ := mem_online.mp inside
      obtain ⟨member, other⟩ := (left.members w).mp member
      exact ⟨w, other, member, left.hub ▸ online⟩
    · rintro ⟨w, other, member, online⟩
      exact ⟨w, mem_online.mpr ⟨(left.members w).mpr ⟨member, other⟩, left.hub.symm ▸ online⟩⟩
  constructor
  · rintro ⟨first, rotates⟩
    refine ⟨fun j below => ?_, left.version ▸ rotates.room, somebody.mp rotates.online⟩
    cases j with
    | zero => exact left.answers 0 ▸ first
    | succ j =>
      rw [← left.answers, Nat.add_comm j 1]
      exact rotates.answers j (by omega)
  · intro rotates
    refine ⟨left.answers 0 ▸ rotates.answers 0 (by decide), fun j below => ?_, left.version.symm ▸ rotates.room,
      somebody.mpr rotates.online⟩
    rw [left.answers]
    exact rotates.answers (1 + j) (by omega)

theorem Left.rekeyed (left : Left c u k s s₁) : Rekeyed c s₁ s' ↔ Rekeyed c s s' := by
  constructor
  · rintro ⟨⟨v, before, after, requested⟩, purged⟩
    exact ⟨⟨v, left.version ▸ before, after, requested.moved left.outbox⟩, purged⟩
  · rintro ⟨⟨v, before, after, requested⟩, purged⟩
    exact ⟨⟨v, left.version.symm ▸ before, after, requested.moved left.outbox.symm⟩, purged⟩

theorem left_members {t t' : Tables} {role : Role} (gone : t'.members c = (t.members c).insert u ⟨role, true⟩) (w : Uuid) :
    t'.isMember c w = true ↔ t.isMember c w = true ∧ w ≠ u := by
  simp only [Tables.isMember, Tables.getMemberRole, gone]
  by_cases here : w = u
  · subst here
    simp
  · rw [LinkedMap.find_insert here]
    simp [here]

variable {writes : List Write} {a : Unit}

theorem of_exec_removeMemberInTx {removed : Bool} (member : s.tables.isMember c u = true)
    (untouched : (Store.applyAll (S := schema) s.tables writes).members = s.tables.members)
    (ran : (removeMemberInTx s.store.next c u).exec ((s.within writes).spent n) = (.done (.ok removed), s')) :
    removed = true ∧ ∃ role, s' =
      (s.within (writes ++ [.member c u ⟨role, true⟩] ++ [.memberCount c (-1)])).spent (n + 2) := by
  obtain ⟨found, between, first, rest⟩ := of_exec_ok ran
  obtain ⟨-, more, evaluated, rfl⟩ := of_exec_within first
  have same : (Store.applyAll (S := schema) s.tables writes).getMemberRole c u = s.tables.getMemberRole c u := by
    simp only [Tables.getMemberRole, untouched]
  simp only [schema, Query.eval, same] at evaluated
  obtain ⟨role, inside⟩ := Option.isSome_iff_exists.mp member
  rw [inside] at evaluated
  obtain ⟨rfl, rfl⟩ := Prod.mk.inj (Except.ok.inj evaluated)
  obtain ⟨_, between, second, last⟩ := of_exec_ok rest
  obtain ⟨-, more, counted, rfl⟩ := of_exec_within second
  obtain ⟨-, rfl⟩ := Prod.mk.inj (Except.ok.inj counted)
  obtain ⟨same, rfl⟩ := Prod.mk.inj last
  cases same
  exact ⟨rfl, role, rfl⟩

theorem of_exec_ensureNotOwnerOfOthers
    (ran : (ensureNotOwnerOfOthers c u).exec s = (.done (.ok a), s')) :
    s' = s.spent (if s.tables.getMemberRole c u = some .owner then 2 else 1) := by
  obtain ⟨role, between, first, rest⟩ := of_exec_ok ran
  have read := of_exec_read (q := .memberRole c u) (n := 0) first (a := s.tables.getMemberRole c u) rfl
  cases up : s.answers 0 with
  | false =>
    rw [up] at read
    cases (Prod.mk.inj read).1
  | true =>
    rw [up] at read
    obtain ⟨same, rfl⟩ := Prod.mk.inj read
    cases same
    by_cases owner : s.tables.getMemberRole c u = some .owner
    · rw [if_pos owner]
      simp only [when, owner, decide_true, if_true] at rest
      obtain ⟨members, after, second, last⟩ := of_exec_ok rest
      have read := of_exec_read (q := .memberIds c) (n := 1) second (a := s.tables.getConversationMemberIds c) rfl
      obtain ⟨-, rfl⟩ := of_exec_require last
      cases up : s.answers 1 with
      | false =>
        rw [up] at read
        exact (Prod.mk.inj read).2.symm
      | true =>
        rw [up] at read
        exact (Prod.mk.inj read).2.symm
    · rw [if_neg owner]
      simp only [when, owner, decide_false] at rest
      exact (Prod.mk.inj rest).2.symm

theorem left_landed (role : Role)
    (members : (Store.applyAll (S := schema) s.tables writes).members c = (s.tables.members c).insert u ⟨role, true⟩)
    (counted : (Store.applyAll (S := schema) s.tables writes).conversations = (s.tables.onConversation c fun row =>
      { row with memberCount := max (row.memberCount + -1) 0 }).conversations)
    (cleared : State.perform (.invalidateMemberCache c) ((s.landed writes).spent k) = some (a, s₁)) : Left c u k s s₁ := by
  obtain ⟨-, rfl⟩ := Prod.mk.inj (Option.some.inj cleared)
  have tables : ((s.landed writes).spent k).tables = Store.applyAll (S := schema) s.tables writes := rfl
  refine ⟨?_, ?_, left_members members, rfl, rfl, rfl⟩
  · refine Eq.trans ?_ (congrFun (Tables.version_onConversation (t := s.tables) (c := c)
      (f := fun row => { row with memberCount := max (row.memberCount + -1) 0 }) fun _ => rfl) c)
    exact congrArg (fun conversations => (conversations c).map Conversation.keyVersion) counted
  · refine (congrArg (fun conversations => (conversations c).map Conversation.isEncrypted) counted).trans ?_
    simp only [Tables.onConversation, Function.update_self, Option.map_map]
    rfl

theorem Left.ends {r : Except AppError Unit} {tail : List Uuid → Task Unit} (left : Left c u k s s₁)
    (parting : Parting s c u) (last : ∀ remaining, (tail remaining).Only Trailing)
    (ran : (do
      let remaining ← unwrapOrDefault (query (.memberIds c) none)
      if remaining.isEmpty then
        let _ ← query (.forceDeleteConversation c) none
        pure ()
      else
        rotateGroupKeyAfterMemberLoss c
        tail remaining).exec s₁ = (.done r, s')) : Rekeyed c s s' ↔ s.RotatesWithout c u k := by
  obtain ⟨v, known⟩ := parting.known
  obtain ⟨w, other, remains⟩ := parting.remains
  rw [← left.rekeyed, ← left.rotates]
  exact loss_ends (left.version.trans known) (left.encrypted.trans parting.encrypted)
    ((left.members w).mpr ⟨remains, other⟩) last ran

theorem systemMessage_trailing {actor v : Uuid} {text : String} {all : List Uuid} :
    (broadcastMemberSystemMessage c actor text v all).Only Trailing := by
  refine bind_only (query_only trivial) fun answer => ?_
  cases answer with
  | ok _ => exact ask_only trivial
  | error _ => exact trivial

theorem of_exec_removeMemberTx {removed : Bool} (member : s.tables.isMember c u = true)
    (ran : (removeMemberTx c u).exec (s.spent n) = (.done (.ok removed), s')) :
    removed = true ∧ ∃ role, s' = (s.landed [.member c u ⟨role, true⟩, .memberCount c (-1)]).spent (n + 4) := by
  obtain ⟨-, between, body, -, rfl⟩ := of_exec_transaction ran
  obtain ⟨rfl, role, rfl⟩ := of_exec_removeMemberInTx member rfl body
  exact ⟨rfl, role, committed_landed⟩

theorem leaveGroup_ends (parting : Parting s c u) (ran : (leaveGroup ⟨u⟩ c).exec s = (.done (.ok ()), s')) :
    Rekeyed c s s' ↔ s.RotatesWithout c u (if s.tables.getMemberRole c u = some .owner then 7 else 6) := by
  obtain ⟨_, between, first, rest⟩ := of_exec_ok ran
  obtain rfl := of_exec_ensureNotOwnerOfOthers first
  generalize asked : (if s.tables.getMemberRole c u = some .owner then 2 else 1) = k at rest
  have count : (if s.tables.getMemberRole c u = some .owner then 7 else 6) = k + 5 := by
    rw [← asked]
    split <;> rfl
  rw [count]
  have rest := of_exec_read (q := .findById u) rest (a := s.tables.usernames u) rfl
  generalize (if s.answers k then _ else _ : Except (Option Refusal) (Option String)) = leaver at rest
  obtain ⟨removed, between, gone, rest⟩ := of_exec_ok rest
  obtain ⟨rfl, role, rfl⟩ := of_exec_removeMemberTx parting.member gone
  obtain ⟨_, between, required, rest⟩ := of_exec_ok rest
  obtain ⟨-, rfl⟩ := of_exec_require required
  obtain ⟨_, between, invalidated, rest⟩ := of_exec_ok rest
  obtain ⟨_, -, cleared⟩ := of_exec_ask invalidated
  have members : (Store.applyAll (S := schema) s.tables [.member c u ⟨role, true⟩, .memberCount c (-1)]).members c =
      (s.tables.members c).insert u ⟨role, true⟩ := by
    simp [Store.applyAll, Tables.apply, Tables.onConversation]
  have left : Left c u (k + 5) s between := left_landed role members rfl cleared
  refine left.ends parting (fun remaining => ?_) rest
  split
  · exact systemMessage_trailing
  · exact trivial

theorem afterMemberLoss_ends {actor target : Uuid} {action : String} {r : Except AppError Unit}
    (left : Left c u k s s₁) (parting : Parting s c u)
    (ran : (afterMemberLoss c actor target action).exec s₁ = (.done r, s')) :
    Rekeyed c s s' ↔ s.RotatesWithout c u k := by
  refine left.ends parting (fun remaining => ?_) ran
  refine bind_only (query_only trivial) fun answer => ?_
  split
  · exact systemMessage_trailing
  · exact trivial

theorem of_exec_within_read {q : Query} {a b : q.Result}
    (ran : (dbCtx (query q (some s.store.next))).exec ((s.within writes).spent n) = (.done (.ok a), s'))
    (reads : q.eval (Store.applyAll (S := schema) s.tables writes) = .ok (b, [])) :
    a = b ∧ s' = (s.within writes).spent (n + 1) := by
  obtain ⟨-, more, evaluated, rfl⟩ := of_exec_within ran
  obtain ⟨rfl, rfl⟩ := Prod.mk.inj (Except.ok.inj (evaluated.symm.trans reads))
  rw [List.append_nil]
  exact ⟨rfl, rfl⟩

theorem of_exec_memberLock {g w : Uuid}
    (ran : (dbCtx (query (.memberLock g w) (some s.store.next))).exec ((s.within []).spent n) = (.done (.ok a), s')) :
    s' = (s.within [.memberLock g w]).spent (n + 1) := by
  obtain ⟨-, more, evaluated, rfl⟩ := of_exec_within ran
  obtain ⟨-, rfl⟩ := Prod.mk.inj (Except.ok.inj evaluated)
  rfl

theorem of_exec_callerRole {g w : Uuid} {role : Role}
    (ran : (callerRole (some s.store.next) g w).exec ((s.within writes).spent n) = (.done (.ok role), s')) :
    s' = (s.within writes).spent (n + 1) := by
  obtain ⟨found, between, first, rest⟩ := of_exec_ok ran
  obtain ⟨-, rfl⟩ := of_exec_within_read first rfl
  exact (of_exec_okOr rest).2

theorem removeMember_ends (parting : Parting s c u) (ran : (removeMember auth c u).exec s = (.done (.ok ()), s')) :
    Rekeyed c s s' ↔ s.RotatesWithout c u (if u = auth.userId then 6 else 7) := by
  obtain ⟨_, between, whole, rest⟩ := of_exec_ok ran
  obtain ⟨-, after, body, -, rfl⟩ := of_exec_transaction (n := 0) whole
  obtain ⟨_, between, locked, body⟩ := of_exec_ok body
  obtain rfl := of_exec_memberLock locked
  obtain ⟨caller, between, looked, body⟩ := of_exec_ok body
  obtain rfl := of_exec_callerRole looked
  obtain ⟨_, between, required, body⟩ := of_exec_ok body
  obtain ⟨-, rfl⟩ := of_exec_require required
  obtain ⟨_, between, spared, body⟩ := of_exec_ok body
  have here : between = (s.within [.memberLock c u]).spent (if u = auth.userId then 3 else 4) := by
    by_cases mine : u = auth.userId
    · rw [if_pos mine]
      simp only [when, mine, ne_eq, not_true_eq_false, decide_false] at spared
      rw [mine]
      exact (Prod.mk.inj spared).2.symm
    · rw [if_neg mine]
      simp only [when, mine, ne_eq, not_false_eq_true, decide_true, if_true] at spared
      obtain ⟨role, between, read, rest⟩ := of_exec_ok spared
      obtain ⟨-, rfl⟩ := of_exec_within_read read rfl
      exact (of_exec_require rest).2
  subst here
  obtain ⟨removed, between, gone, body⟩ := of_exec_ok body
  obtain ⟨rfl, role, rfl⟩ := of_exec_removeMemberInTx parting.member rfl gone
  obtain ⟨-, rfl⟩ := of_exec_require body
  rw [committed_landed] at rest
  obtain ⟨_, between, invalidated, rest⟩ := of_exec_ok rest
  obtain ⟨_, -, cleared⟩ := of_exec_ask invalidated
  have count : (if u = auth.userId then 3 else 4) + 2 + 1 = if u = auth.userId then 6 else 7 := by split <;> rfl
  rw [count] at cleared
  exact afterMemberLoss_ends (left_landed role (by simp [Store.applyAll, Tables.apply, Tables.onConversation]) rfl cleared)
    parting rest

theorem banMember_ends (parting : Parting s c u) (ran : (banMember auth c u).exec s = (.done (.ok ()), s')) :
    Rekeyed c s s' ↔ s.RotatesWithout c u 8 := by
  obtain ⟨_, between, whole, rest⟩ := of_exec_ok ran
  obtain ⟨-, after, body, -, rfl⟩ := of_exec_transaction (n := 0) whole
  obtain ⟨_, between, locked, body⟩ := of_exec_ok body
  obtain rfl := of_exec_memberLock locked
  obtain ⟨caller, between, looked, body⟩ := of_exec_ok body
  obtain rfl := of_exec_callerRole looked
  obtain ⟨_, between, required, body⟩ := of_exec_ok body
  obtain ⟨-, rfl⟩ := of_exec_require required
  obtain ⟨targetRole, between, read, body⟩ := of_exec_ok body
  obtain ⟨-, rfl⟩ := of_exec_within_read read rfl
  obtain ⟨_, between, required, body⟩ := of_exec_ok body
  obtain ⟨-, rfl⟩ := of_exec_require required
  obtain ⟨_, between, required, body⟩ := of_exec_ok body
  obtain ⟨-, rfl⟩ := of_exec_require required
  obtain ⟨_, between, banned, body⟩ := of_exec_ok body
  obtain ⟨-, rfl⟩ := Prod.mk.inj body
  obtain ⟨removed, between, gone, banned⟩ := of_exec_ok banned
  obtain ⟨rfl, role, rfl⟩ := of_exec_removeMemberInTx parting.member rfl gone
  obtain ⟨-, more, evaluated, rfl⟩ := of_exec_within banned
  obtain rfl : more = [.ban c u] := by
    simp only [schema, Query.eval] at evaluated
    split at evaluated
    · cases evaluated
    · exact (Prod.mk.inj (Except.ok.inj evaluated)).2.symm
  rw [committed_landed] at rest
  obtain ⟨_, between, invalidated, rest⟩ := of_exec_ok rest
  obtain ⟨_, -, cleared⟩ := of_exec_ask invalidated
  exact afterMemberLoss_ends (left_landed role (by simp [Store.applyAll, Tables.apply, Tables.onConversation]) rfl cleared)
    parting rest

end Removals

section Routes
variable {s s' : State} {c u : Uuid} {d : Departure}

variable {r : Except AppError Unit}

theorem leaveConversation_never {auth : AuthUser}
    (ran : (leaveConversation auth c).exec s = (.done r, s')) : ¬ Rekeyed c s s' := by
  have only : (leaveConversation auth c).Only Unheard := by
    refine bind_only (bind_only (dbCtx_only (query_only trivial)) fun role => when_only ?_) fun _ => ?_
    · exact bind_only (unwrapOrDefault_only (query_only trivial)) fun _ => require_only
    refine bind_only (transaction_unheard fun tx => ?_) fun _ => bind_only require_only fun _ => ?_
    · refine bind_only (dbCtx_only (query_only trivial)) fun removed => ?_
      exact bind_only (when_only (dbCtx_only (query_only trivial))) fun _ => trivial
    refine bind_only (ask_only trivial) fun _ => bind_only (unwrapOrDefault_only (query_only trivial)) fun remaining => ?_
    exact when_only (bind_only (query_only trivial) fun _ => trivial)
  exact (Trails.refl s').not_rekeyed (exec_unheard only ran)

theorem deleteAccount_never {auth : AuthUser} {hasBanned : Bool}
    (ran : s.deleteAccount auth hasBanned = some (r, s')) : ¬ Rekeyed c s s' := by
  refine (Trails.refl s').not_rekeyed ?_
  unfold State.deleteAccount at ran
  split at ran
  · rw [← (Prod.mk.inj (Option.some.inj ran)).2]
    rfl
  · dsimp only at ran
    split at ran
    · rw [← (Prod.mk.inj (Option.some.inj ran)).2]
      rfl
    · split at ran
      · cases ran
      · split at ran <;>
        · rw [← (Prod.mk.inj (Option.some.inj ran)).2]
          rfl

/-- How many accesses a route makes up to the end of the removal, where it goes on to re-key. -/
def Departure.removal (s : State) : Departure → Option Nat
  | leaveGroup auth groupId => some (if s.tables.getMemberRole groupId auth.userId = some .owner then 7 else 6)
  | removeMember auth _ targetUserId => some (if targetUserId = auth.userId then 6 else 7)
  | banMember .. => some 8
  | leaveConversation .. | deleteAccount .. => none

theorem ranTo_done {t : Task Unit} (done : (t.exec s).1.result = some r) :
    ranTo t s = some (r, (t.exec s).2) := by
  unfold ranTo
  rw [done]
  rfl

theorem of_ranTo {t : Task Unit} (ran : ranTo t s = some (r, s')) :
    t.exec s = (.done r, s') := by
  obtain ⟨result, ended, same⟩ := Option.map_eq_some_iff.mp ran
  obtain ⟨rfl, rfl⟩ := Prod.mk.inj same
  exact Prod.ext (Async.eq_done ended) rfl

section Examples

def attended : State := { (played founded).state with hub := Hub.new.register 1 0 0, outbox := [] }

theorem attended_parting : Parting attended 100 2 :=
  ⟨by decide +kernel, by decide +kernel, 1, by decide, by decide +kernel⟩

end Examples

end Routes

end Echo.Groups
