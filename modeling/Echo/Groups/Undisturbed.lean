import Echo.Groups.KeyTables

/-! Calls that nothing disturbs, while the database answers. Other transactions may be open. -/
namespace Echo.Groups
open Echo.Lib
open Echo.Server (Uuid)

namespace State

def healthy (s : State) : State := { s with faults := [] }

def within (s : State) (writes : List Write) : State :=
  { s with store := { s.store with
      writes := Function.update s.store.writes s.store.next writes
      next := s.store.next + 1 } }

def landed (s : State) (writes : List Write) : State :=
  { s with store := { s.store with
      tables := Store.applyAll (S := schema) s.tables writes
      writes := Function.update s.store.writes s.store.next []
      next := s.store.next + 1 } }

variable {s : State}

@[simp] theorem within_faults (writes : List Write) : (s.within writes).faults = s.faults := rfl

@[simp] theorem landed_faults (writes : List Write) : (s.landed writes).faults = s.faults := rfl

@[simp] theorem landed_tables (writes : List Write) :
    (s.landed writes).tables = Store.applyAll (S := schema) s.tables writes := rfl

theorem sqlPerform_healthy (healthy : s.faults = []) (r : Sql schema) :
    s.sqlPerform r = (s.store.perform false r).map fun (a, store) => (a, { s with store }) := by
  simp only [sqlPerform, fault, healthy, List.headD_nil, List.tail_nil]

end State

section Accesses
variable {α β : Type} {s s' : State}

theorem exec_ask {r : Request} {a : Answer r} (answered : State.perform r s = some (a, s')) :
    (ask r).exec s = (.done (.ok a), s') :=
  Async.exec_call answered _

theorem exec_dbCtx {access : Task (Except (Option Refusal) α)} {a : α}
    (ran : access.exec s = (.done (.ok (.ok a)), s')) : (dbCtx access).exec s = (.done (.ok a), s') :=
  Async.exec_bind_ok ran

theorem exec_bind {t : Task α} {f : α → Task β} {a : α} (ran : t.exec s = (.done (.ok a), s')) :
    (t >>= f).exec s = (f a).exec s' :=
  Async.exec_bind_ok ran

theorem exec_read {q : Query} {tx : Option Nat} {a : q.Result} (healthy : s.faults = [])
    (ran : q.eval (s.store.view tx) = .ok (a, [])) : (query q tx).exec s = (.done (.ok (.ok a)), s) := by
  refine exec_ask ?_
  change s.sqlPerform (.run tx q) = some (.ok a, s)
  have free : s.store.isFree tx [] = true := List.all_eq_true.mpr fun i _ => by simp
  have same : s.store.record tx [] = s.store := by
    cases tx with
    | none => rfl
    | some i => simp [Store.record]
  rw [State.sqlPerform_healthy healthy, Store.perform_run_ok (S := schema) ran free, same]
  rfl

theorem exec_write {q : Query} {a : q.Result} {writes more : List Write} (healthy : s.faults = [])
    (ran : q.eval (Store.applyAll (S := schema) s.tables writes) = .ok (a, more))
    (apart : ∀ i, Store.Apart (S := schema) more (s.store.writes i)) :
    (query q (some s.store.next)).exec (s.within writes) = (.done (.ok (.ok a)), s.within (writes ++ more)) := by
  refine exec_ask ?_
  change (s.within writes).sqlPerform (.run (some s.store.next) q) = some (.ok a, s.within (writes ++ more))
  have view : (s.within writes).store.view (some s.store.next) = Store.applyAll (S := schema) s.tables writes := by
    simp [Store.view, State.within, State.tables]
  have free : (s.within writes).store.isFree (some s.store.next) more = true := by
    refine List.all_eq_true.mpr fun i _ => decide_eq_true ?_
    by_cases mine : i = s.store.next
    · exact .inl (congrArg some mine)
    · refine .inr ?_
      have theirs : (s.within writes).store.writes i = s.store.writes i := Function.update_of_ne mine ..
      rw [theirs]
      exact apart i
  have kept : (s.within writes).store.record (some s.store.next) more = (s.within (writes ++ more)).store := by
    simp [Store.record, State.within]
  rw [← view] at ran
  rw [State.sqlPerform_healthy (by exact healthy), Store.perform_run_ok (S := schema) ran free, kept]
  rfl

theorem exec_transaction {body : Nat → Task α} {a : α} {writes : List Write} (healthy : s.faults = [])
    (ran : (body s.store.next).exec (s.within []) = (.done (.ok a), s.within writes)) :
    (transaction body).exec s = (.done (.ok a), s.landed writes) := by
  have started : (ask (.sql .start)).exec s = (.done (.ok (.ok s.store.next)), s.within []) := by
    refine exec_ask ?_
    change s.sqlPerform .start = _
    rw [State.sqlPerform_healthy healthy]
    rfl
  have committed : (ask (.sql (.commit s.store.next))).exec (s.within writes) =
      (.done (.ok (.ok ())), s.landed writes) := by
    refine exec_ask ?_
    change (s.within writes).sqlPerform (.commit s.store.next) = _
    rw [State.sqlPerform_healthy (by exact healthy)]
    simp [Store.perform, Store.committed, Store.discard, State.within, State.landed, State.tables]
    rfl
  unfold transaction
  rw [exec_bind (exec_dbCtx started)]
  have body := Async.exec_catching (body s.store.next)
    (fun e => do ask (.sql (.rollback s.store.next)); fail e) (s.within [])
  rw [ran] at body
  rw [exec_bind body, exec_bind (exec_dbCtx committed)]
  rfl

end Accesses
section Upload
variable {s : State} {c : Uuid} {auth : AuthUser} {body : UploadGroupKeyRequest}

theorem Tables.mem_memberIds {t : Tables} {c u : Uuid} : u ∈ t.getConversationMemberIds c ↔ t.isMember c u = true := by
  simp only [Tables.getConversationMemberIds, List.mem_map, List.mem_filter, Tables.isMember, Tables.getMemberRole,
    Option.isSome_iff_exists, Option.bind_eq_some_iff]
  constructor
  · rintro ⟨⟨_, row⟩, ⟨inside, active⟩, rfl⟩
    exact ⟨row.role, row, LinkedMap.find_eq_some.mpr inside, by simpa using active⟩
  · rintro ⟨role, row, found, active⟩
    refine ⟨(u, row), ⟨LinkedMap.find_eq_some.mp found, ?_⟩, rfl⟩
    cases removed : row.isRemoved with
    | true => simp [removed] at active
    | false => simp

theorem envelopesTargetMembers_ok {members : List Uuid} {envelopes : List KeyEnvelope}
    (inside : ∀ e ∈ envelopes, e.userId ∈ members) : envelopesTargetMembers members envelopes = .ok () := by
  induction envelopes with
  | nil => rfl
  | cons e envelopes ih =>
    rw [envelopesTargetMembers, if_pos (inside e List.mem_cons_self)]
    exact ih fun e there => inside e (List.mem_cons_of_mem _ there)

def envelopeWrites (c : Uuid) (body : UploadGroupKeyRequest) (envelopes : List KeyEnvelope) : List Write :=
  envelopes.map fun e => .envelope (envelopeRow c body e)

def uploadWrites (c userId : Uuid) (body : UploadGroupKeyRequest) : List Write :=
  .groupKey (sentinelRow c userId body) ::
    (envelopeWrites c body body.envelopes ++ [.rotation (rotationRow c userId body)])

/-- None of the rows an upload of this version needs is taken, and no open transaction has it. -/
structure Vacant (s : State) (c : Uuid) (v : Int) : Prop where
  known : (s.tables.conversations c).isSome
  unkeyed : ¬ s.tables.Keyed c v
  unlogged : s.tables.hasRotation c v = false
  keys : ∀ i, ∀ w ∈ s.store.writes i, Key.groupKey c v ∉ w.keys ∧ Key.rotation c v ∉ w.keys ∧
    ∀ u, Key.envelope c v u ∉ w.keys

theorem Vacant.apart {v : Int} {w : Write} (vacant : Vacant s c v)
    (needs : ∀ k ∈ w.keys, k = .groupKey c v ∨ k = .rotation c v ∨ ∃ u, k = .envelope c v u) (i : Nat) :
    Store.Apart (S := schema) [w] (s.store.writes i) := by
  intro w' here k held v' there taken
  rw [List.mem_singleton.mp here] at held
  obtain ⟨noKey, noRotation, noEnvelope⟩ := vacant.keys i v' there
  rcases needs k held with rfl | rfl | ⟨u, rfl⟩
  · exact noKey taken
  · exact noRotation taken
  · exact noEnvelope u taken

theorem exec_storeEnvelopes (healthy : s.faults = []) (vacant : Vacant s c body.keyVersion)
    {envelopes : List KeyEnvelope} {writes : List Write}
    (same : (Store.applyAll (S := schema) s.tables writes).conversations = s.tables.conversations) :
    (storeEnvelopes s.store.next c body envelopes).exec (s.within writes) =
      (.done (.ok ()), s.within (writes ++ envelopeWrites c body envelopes)) := by
  induction envelopes generalizing writes with
  | nil =>
    rw [envelopeWrites, List.map_nil, List.append_nil]
    rfl
  | cons e envelopes ih =>
    have stored : (query (.storeGroupKeyEnvelope (envelopeRow c body e)) (some s.store.next)).exec (s.within writes) =
        (.done (.ok (.ok ())), s.within (writes ++ [.envelope (envelopeRow c body e)])) := by
      have known : (Store.applyAll (S := schema) s.tables writes).conversations c ≠ none := by
        rw [same]
        exact Option.isSome_iff_ne_none.mp vacant.known
      exact exec_write healthy (by simp [Query.eval, envelopeRow, known])
        (vacant.apart (by simp [Write.keys, envelopeRow]))
    refine (exec_bind (exec_dbCtx stored)).trans ((ih ?_).trans ?_)
    · rw [Store.applyAll_append]
      have part : (Write.envelope (envelopeRow c body e)).isPartOf c body.keyVersion = true := by
        simp [Write.isPartOf, envelopeRow]
      exact (Tables.landed_one part).conversations.trans same
    · rw [List.append_assoc, envelopeWrites, envelopeWrites, List.map_cons, List.singleton_append]

theorem hasRotation_landed {t t' : Tables} {parts : List Write} {c : Uuid} {v : Int} (landed : t.Landed parts t')
    (none : ∀ row, .rotation row ∉ parts) (unlogged : t.hasRotation c v = false) : t'.hasRotation c v = false := by
  refine List.any_eq_false.mpr fun row inside => ?_
  rcases landed.logged row inside with there | there
  · exact List.any_eq_false.mp unlogged row there
  · exact (none row there).elim

theorem envelopeWrites_part {envelopes : List KeyEnvelope} {w : Write} (inside : w ∈ envelopeWrites c body envelopes) :
    w.isPartOf c body.keyVersion = true := by
  obtain ⟨e, -, rfl⟩ := List.mem_map.mp inside
  simp [Write.isPartOf, envelopeRow]

theorem uploadWrites_part {userId : Uuid} {w : Write}
    (inside : w ∈ envelopeWrites c body body.envelopes ++ [.rotation (rotationRow c userId body)]) :
    w.isPartOf c body.keyVersion = true := by
  rcases List.mem_append.mp inside with inside | inside
  · exact envelopeWrites_part inside
  · rw [List.mem_singleton.mp inside]
    simp [Write.isPartOf, rotationRow]

theorem Vacant.landed (vacant : Vacant s c body.keyVersion) (userId : Uuid) (parts : List Write)
    (each : ∀ w ∈ parts, w.isPartOf c body.keyVersion = true) :
    Tables.Landed { s.tables with groupKeys := s.tables.groupKeys ++ [sentinelRow c userId body] } parts
      (Store.applyAll (S := schema) s.tables (.groupKey (sentinelRow c userId body) :: parts)) := by
  have known : (s.tables.version (sentinelRow c userId body).conversationId).isSome := by
    rw [Tables.version_isSome]
    exact vacant.known
  have each : ∀ w ∈ parts, w.isPartOf (sentinelRow c userId body).conversationId
      (sentinelRow c userId body).keyVersion = true := each
  rcases Tables.upload_lands (t := s.tables) each with ⟨gone, -⟩ | ⟨-, landed⟩
  · rw [gone] at known
    cases known
  · exact landed

theorem exec_persist (healthy : s.faults = []) (vacant : Vacant s c body.keyVersion)
    (members : ∀ e ∈ body.envelopes, s.tables.isMember c e.userId = true) :
    (persistGroupKeyAndEnvelopes c auth.userId body).exec s =
      (.done (.ok (sentinelRow c auth.userId body)), s.landed (uploadWrites c auth.userId body)) := by
  refine exec_transaction healthy ?_
  have read : (query (.memberIds c) (some s.store.next)).exec (s.within []) =
      (.done (.ok (.ok (s.tables.getConversationMemberIds c))), s.within []) := by
    refine exec_read (by exact healthy) ?_
    simp [Store.view, State.within, Query.eval, Store.applyAll, State.tables]
  have targets : (ensureEnvelopesTargetMembers s.store.next c body.envelopes).exec (s.within []) =
      (.done (.ok ()), s.within []) := by
    refine (exec_bind (exec_dbCtx read)).trans ?_
    rw [envelopesTargetMembers_ok fun e inside => Tables.mem_memberIds.mpr (members e inside)]
    rfl
  have known : s.tables.conversations c ≠ none := Option.isSome_iff_ne_none.mp vacant.known
  have unkeyed : s.tables.hasGroupKey c body.keyVersion = false := by
    rw [← Bool.not_eq_true, Tables.hasGroupKey_iff]
    exact vacant.unkeyed
  have key : (query (.storeGroupKey (sentinelRow c auth.userId body)) (some s.store.next)).exec (s.within []) =
      (.done (.ok (.ok ())), s.within [.groupKey (sentinelRow c auth.userId body)]) :=
    exec_write healthy (by simp [Query.eval, sentinelRow, Store.applyAll, known, unkeyed])
      (vacant.apart (by simp [Write.keys, sentinelRow]))
  have landed := vacant.landed auth.userId
  have envelopes : (storeEnvelopes s.store.next c body body.envelopes).exec
      (s.within [.groupKey (sentinelRow c auth.userId body)]) = (.done (.ok ()), s.within
        (.groupKey (sentinelRow c auth.userId body) :: envelopeWrites c body body.envelopes)) :=
    exec_storeEnvelopes healthy vacant (landed [] (List.forall_mem_nil _)).conversations
  have logged : (query (.insertCompletedRotation (rotationRow c auth.userId body)) (some s.store.next)).exec
      (s.within (.groupKey (sentinelRow c auth.userId body) :: envelopeWrites c body body.envelopes)) =
        (.done (.ok (.ok ())), s.within (uploadWrites c auth.userId body)) := by
    have stored := landed (envelopeWrites c body body.envelopes) fun w => envelopeWrites_part
    have known : (Store.applyAll (S := schema) s.tables (.groupKey (sentinelRow c auth.userId body) ::
        envelopeWrites c body body.envelopes)).conversations c ≠ none := by
      rw [stored.conversations]
      exact known
    have unlogged := hasRotation_landed stored (by simp [envelopeWrites]) vacant.unlogged
    exact exec_write healthy (by simp [Query.eval, rotationRow, known, unlogged])
      (vacant.apart (by simp [Write.keys, rotationRow]))
  have stored : (storeGroupKey s.store.next (sentinelRow c auth.userId body)).exec (s.within []) =
      (.done (.ok ()), s.within [.groupKey (sentinelRow c auth.userId body)]) := (exec_bind key).trans rfl
  refine (exec_bind targets).trans ?_
  refine (exec_bind stored).trans ?_
  refine (exec_bind envelopes).trans ?_
  exact exec_bind (exec_dbCtx logged)

theorem exec_broadcastJson (memberIds : List Uuid) (notice : Notice) (exclude : Option Uuid) (s : State) :
    (ask (.broadcastJson memberIds notice exclude)).exec s = (.done (.ok ()), { s with
      outbox := ⟨memberIds.filter fun u => some u ≠ exclude, notice⟩ :: s.outbox }) := exec_ask rfl

theorem exec_broadcastKeyRotated (healthy : s.faults = []) (userId : Uuid) (v : Int) :
    ∃ s', (broadcastKeyRotated c userId v).exec s = (.done (.ok ()), s') ∧ s'.store = s.store ∧ s'.faults = [] := by
  have read : (unwrapOrDefault (query (.memberIds c) none)).exec s =
      (.done (.ok (s.tables.getConversationMemberIds c)), s) :=
    Async.exec_bind_ok (exec_read healthy rfl)
  have ran : (broadcastKeyRotated c userId v).exec s = _ :=
    (exec_bind read).trans ((exec_bind (exec_broadcastJson _ _ _ _)).trans (exec_broadcastJson _ _ _ _))
  exact ⟨_, ran, rfl, healthy⟩

theorem exec_uploadGroupKey (healthy : s.faults = []) (vacant : Vacant s c body.keyVersion)
    (valid : validateUploadRequest body = .ok ())
    (admin : (s.tables.getMemberRole c auth.userId).any Role.isAdminOrAbove = true)
    (members : ∀ e ∈ body.envelopes, s.tables.isMember c e.userId = true) :
    ∃ s', (uploadGroupKey auth c body).exec s = (.done (.ok (sentinelRow c auth.userId body)), s') ∧
      s'.tables = Store.applyAll (S := schema) s.tables (uploadWrites c auth.userId body) ∧ s'.faults = [] := by
  obtain ⟨role, found, above⟩ : ∃ role, s.tables.getMemberRole c auth.userId = some role ∧ role.isAdminOrAbove = true := by
    cases found : s.tables.getMemberRole c auth.userId with
    | none => simp [found] at admin
    | some role => exact ⟨role, rfl, by simpa [found] using admin⟩
  have allowed : (requireAdminOrAbove c auth.userId).exec s = (.done (.ok ()), s) := by
    have read : (dbCtx (query (.memberRole c auth.userId) none)).exec s = (.done (.ok (some role)), s) :=
      exec_dbCtx (exec_read healthy (by rw [← found]; rfl))
    refine (exec_bind read).trans ?_
    refine (exec_bind (t := okOr _ (some role)) rfl).trans ?_
    rw [require, if_pos above]
    rfl
  have checked : (lift (validateUploadRequest body)).exec s = (.done (.ok ()), s) := by
    rw [valid]
    rfl
  obtain ⟨s', told, store, fine⟩ := exec_broadcastKeyRotated (s := s.landed (uploadWrites c auth.userId body))
    (c := c) healthy auth.userId (sentinelRow c auth.userId body).keyVersion
  refine ⟨s', ?_, congrArg Store.tables store, fine⟩
  refine (exec_bind allowed).trans ?_
  refine (exec_bind checked).trans ?_
  refine (exec_bind (exec_persist healthy vacant members)).trans ?_
  exact exec_bind told

theorem exec_getLatestGroupKey {u : Uuid} {row : GroupKeyEnvelopeRow} (healthy : s.faults = [])
    (inside : s.tables.isMember c u = true) (mine : s.tables.getMyGroupKeyEnvelope c u = some row) :
    (getLatestGroupKey ⟨u⟩ c).exec s = (.done (.ok (.envelope row)), s) := by
  have member : (dbCtx (query (.isMember c u) none)).exec s = (.done (.ok true), s) :=
    exec_dbCtx (exec_read healthy (by rw [← inside]; rfl))
  have envelope : (dbCtx (query (.myGroupKeyEnvelope c u) none)).exec s = (.done (.ok (some row)), s) :=
    exec_dbCtx (exec_read healthy (by rw [← mine]; rfl))
  refine (exec_bind member).trans ?_
  refine (exec_bind (t := require true _) rfl).trans ?_
  exact exec_bind envelope

theorem exec_getLatestGroupKey_gone {u : Uuid} {row : GroupKeyRow} (healthy : s.faults = [])
    (inside : s.tables.isMember c u = true) (missing : s.tables.getMyGroupKeyEnvelope c u = none)
    (latest : s.tables.getLatestGroupKey c = some row) :
    (getLatestGroupKey ⟨u⟩ c).exec s =
      (.done (.ok (if row.encryptedKey = "__envelope__" then .gone row.keyVersion else .legacy row)), s) := by
  have member : (dbCtx (query (.isMember c u) none)).exec s = (.done (.ok true), s) :=
    exec_dbCtx (exec_read healthy (by rw [← inside]; rfl))
  have envelope : (dbCtx (query (.myGroupKeyEnvelope c u) none)).exec s = (.done (.ok none), s) :=
    exec_dbCtx (exec_read healthy (by rw [← missing]; rfl))
  have key : (dbCtx (query (.latestGroupKey c) none)).exec s = (.done (.ok (some row)), s) :=
    exec_dbCtx (exec_read healthy (by rw [← latest]; rfl))
  refine (exec_bind member).trans ?_
  refine (exec_bind (t := require true _) rfl).trans ?_
  refine (exec_bind envelope).trans ?_
  refine (exec_bind key).trans ?_
  refine (exec_bind (t := okOr _ (some row)) rfl).trans ?_
  split <;> rfl

theorem exec_getLatestGroupKey_refused {u : Uuid} (healthy : s.faults = [])
    (outside : s.tables.isMember c u = false) :
    (getLatestGroupKey ⟨u⟩ c).exec s = (.done (.error (.unauthorized "Not a member of this group")), s) := by
  have member : (dbCtx (query (.isMember c u) none)).exec s = (.done (.ok false), s) :=
    exec_dbCtx (exec_read healthy (by rw [← outside]; rfl))
  refine (exec_bind member).trans ?_
  exact Async.exec_bind_error rfl

end Upload
section Runs

def Request.commits : Request → Option Nat
  | .sql (.commit tx) => some tx
  | _ => none

def Request.stores : Request → Option GroupKeyRow
  | .sql (.run _ (.storeGroupKey row)) => some row
  | _ => none

theorem Request.commits_eq {r : Request} {tx : Nat} : tx ∈ r.commits ↔ r = .sql (.commit tx) := by
  constructor
  · intro some'
    unfold commits at some'
    split at some'
    · cases some'
      rfl
    · cases some'
  · rintro rfl
    rfl

theorem Request.stores_eq {r : Request} {row : GroupKeyRow} :
    row ∈ r.stores ↔ ∃ tx, r = .sql (.run tx (.storeGroupKey row)) := by
  constructor
  · intro some'
    unfold stores at some'
    split at some'
    · cases some'
      exact ⟨_, rfl⟩
    · cases some'
  · rintro ⟨tx, rfl⟩
    rfl

def Write.key? : Write → Option GroupKeyRow
  | groupKey row => some row
  | _ => none

def Write.envelope? : Write → Option GroupKeyEnvelopeRow
  | envelope row => some row
  | _ => none

theorem Write.key?_eq {w : Write} {row : GroupKeyRow} : row ∈ w.key? ↔ w = .groupKey row := by
  cases w <;> simp [key?]

theorem Write.envelope?_eq {w : Write} {row : GroupKeyEnvelopeRow} : row ∈ w.envelope? ↔ w = .envelope row := by
  cases w <;> simp [envelope?]

def keyFor (v : Int) (members : List Uuid) : UploadGroupKeyRequest where
  keyVersion := v
  envelopes := members.map fun u => ⟨u, "a2V5"⟩

def played (calls : List Call) : World machine AppError Unit :=
  (World.start (State.new fun _ => some "user")).after (schedule (oneByOne 30 calls))

def founded : List Call :=
  [.createGroup ⟨1⟩ 100 101 102 [2, 3] false true, .uploadGroupKey ⟨1⟩ 100 (keyFor 1 [1, 2, 3])]

end Runs
end Echo.Groups
