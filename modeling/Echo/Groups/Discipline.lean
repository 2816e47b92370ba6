import Echo.Lib.Contract
import Echo.Groups.Sockets

/-! What the routes write within a transaction, and in which order. Every call keeps to it, so
every open transaction is one of a few shapes. -/
namespace Echo.Groups
open Echo.Lib
open Echo.Server (Uuid)

namespace Write

/-- Rows of the key tables, and the version that is drawn for a rotation. -/
def isKey : Write → Bool
  | groupKey _ | envelope _ | rotation _ | keyVersion .. | purge .. => true
  | _ => false

def isVoice : Write → Bool
  | voiceSession _ | endSession .. | touchSession .. => true
  | _ => false

def isDeletion : Write → Bool
  | deleteConversation _ => true
  | _ => false

def isPlain (w : Write) : Bool := !w.isKey && !w.isVoice && !w.isDeletion

def isPartOf (conversationId : Uuid) (version : Int) : Write → Bool
  | envelope row => row.conversationId = conversationId && row.keyVersion = version
  | rotation row => row.conversationId = conversationId && row.keyVersion = version
  | _ => false

def endsFor (userId : Uuid) : Write → Bool
  | endSession _ u => u = userId
  | _ => false

end Write

def Uploading (conversationId : Uuid) (version : Int) (writes : List Write) : Prop :=
  ∃ row rest, writes = .groupKey row :: rest ∧ row.conversationId = conversationId ∧ row.keyVersion = version ∧
    ∀ w ∈ rest, w.isPartOf conversationId version = true

inductive Shaped : List Write → Prop
  | plain {writes : List Write} : (∀ w ∈ writes, w.isPlain = true) → Shaped writes
  | upload {conversationId : Uuid} {version : Int} {writes : List Write} :
    Uploading conversationId version writes → Shaped writes
  | drawn (conversationId : Uuid) (version : Int) : Shaped [.keyVersion conversationId version]
  | rotation (conversationId : Uuid) (version : Int) (rows : List (Int × Uuid)) :
    Shaped [.keyVersion conversationId version, .purge conversationId rows]
  | leaving {writes : List Write} (userId : Uuid) : (∀ w ∈ writes, w.endsFor userId = true) → Shaped writes
  | joining {writes : List Write} (row : VoiceSession) :
    (∀ w ∈ writes, w.endsFor row.userId = true) → Shaped (writes ++ [.voiceSession row])

namespace Query

def inTransaction (writes : List Write) : Query → Prop
  | storeGroupKey _ => writes = []
  | storeGroupKeyEnvelope row => Uploading row.conversationId row.keyVersion writes
  | insertCompletedRotation row => Uploading row.conversationId row.keyVersion writes
  | bumpKeyVersion _ => writes = []
  | purgeEnvelopes conversationId => ∃ version, writes = [.keyVersion conversationId version]
  | leaveVoiceSessions .. => writes = []
  | joinVoiceChannel _ userId => ∀ w ∈ writes, w.endsFor userId = true
  | leaveVoiceChannel .. | leaveAllUserVoiceSessions _ | touchUserVoiceSessions _ => False
  | cleanupStaleVoiceSessions _ | softDeleteChannel _ | deleteGroup .. | forceDeleteConversation _ => False
  | _ => ∀ w ∈ writes, w.isPlain = true

def onPool : Query → Bool
  | storeGroupKey _ | storeGroupKeyEnvelope _ | insertCompletedRotation _ | bumpKeyVersion _ => false
  | purgeEnvelopes _ | leaveVoiceSessions .. | joinVoiceChannel .. | memberLock .. => false
  | insertConversation .. | insertMember .. | addMember .. | joinPublicGroup .. | removeMember .. => false
  | changeMemberCount .. | banMember .. | setMemberRole .. | insertChannel _ => false
  | _ => true

end Query

abbrev Mode := Option (Nat × List Write)

def Permit (m : Mode) : Request → Prop
  | .sql .start => m = none
  | .sql (.run none q) => q.onPool = true
  | .sql (.run (some tx) q) => ∃ writes, m = some (tx, writes) ∧ q.inTransaction writes
  | .sql (.commit tx) => ∃ writes, m = some (tx, writes) ∧ ∀ c v, writes ≠ [.keyVersion c v]
  | .sql (.rollback tx) => ∃ writes, m = some (tx, writes)
  | .deleteUser .. => False
  | _ => True

def Next (m : Mode) : (r : Request) → Answer r → Mode → Prop
  | .sql .start, a, m' => match a with
    | .ok (tx : Nat) => m' = some (tx, [])
    | .error _ => m' = m
  | .sql (.run (some tx) q), a, m' => match a with
    | .ok (a : q.Result) => ∃ writes more t, m = some (tx, writes) ∧ q.eval t = .ok (a, more) ∧
        m' = some (tx, writes ++ more)
    | .error _ => m' = m
  | .sql (.commit _), _, m' => m' = none
  | .sql (.rollback _), _, m' => m' = none
  | _, _, m' => m' = m

def contract : Contract machine where
  Mode := Mode
  finished := none
  Permit := Permit
  Next := Next
  Rest _ := True
  Final m := m = none

section Shapes
variable {t : Tables} {writes more : List Write}

theorem Uploading.append {c : Uuid} {v : Int} (up : Uploading c v writes)
    (parts : ∀ w ∈ more, w.isPartOf c v = true) : Uploading c v (writes ++ more) := by
  obtain ⟨row, rest, rfl, here, version, each⟩ := up
  refine ⟨row, rest ++ more, rfl, here, version, ?_⟩
  intro w inside
  rcases List.mem_append.mp inside with inside | inside
  · exact each w inside
  · exact parts w inside

theorem ended_endsFor {sessions : List VoiceSession} {userId : Uuid} (mine : ∀ v ∈ sessions, v.userId = userId) :
    ∀ w ∈ (Query.ended t sessions).2, w.endsFor userId = true := by
  intro w inside
  obtain ⟨⟨v, c⟩, found, rfl⟩ := List.mem_map.mp inside
  obtain ⟨v', there, same⟩ := List.mem_filterMap.mp found
  obtain ⟨c', _, pair⟩ := Option.map_eq_some_iff.mp same
  obtain ⟨rfl, rfl⟩ := Prod.mk.inj pair
  simpa [Write.endsFor] using mine v' there

theorem Query.onPool_writes {q : Query} (pool : q.onPool = true) (wrote : q.Wrote t more) :
    ∀ w ∈ more, w.isKey = false ∧ ∀ row, w ≠ .voiceSession row := by
  have voiced : ∀ {sessions : List VoiceSession}, ∀ w ∈ (Query.ended t sessions).2,
      w.isKey = false ∧ ∀ row, w ≠ .voiceSession row := by
    intro sessions w inside
    obtain ⟨v, _, rfl⟩ := List.mem_map.mp inside
    exact ⟨rfl, nofun⟩
  cases wrote with
  | leaveAllUserVoiceSessions | cleanupStaleVoiceSessions => exact voiced
  | touchUserVoiceSessions u =>
    intro w inside
    obtain ⟨v, _, rfl⟩ := List.mem_map.mp inside
    exact ⟨rfl, nofun⟩
  | leaveVoiceSessions | joinVoiceChannel | storeGroupKey | storeGroupKeyEnvelope | insertCompletedRotation
  | bumpKeyVersion | purgeEnvelopes => cases pool
  | _ => simp [Write.isKey]

theorem Shaped.grow {q : Query} (fine : q.inTransaction writes) (shaped : Shaped writes)
    (wrote : q.Wrote t more) : Shaped (writes ++ more) := by
  have plain : ∀ {w : Write}, (∀ v ∈ writes, v.isPlain = true) → w.isPlain = true → Shaped (writes ++ [w]) := by
    intro w before now
    refine .plain fun v inside => ?_
    rcases List.mem_append.mp inside with inside | inside
    · exact before v inside
    · rw [List.mem_singleton.mp inside]
      exact now
  cases wrote with
  | nothing q => simpa using shaped
  | storeGroupKey known unused =>
    cases fine
    exact .upload ⟨_, [], rfl, rfl, rfl, by simp⟩
  | storeGroupKeyEnvelope | insertCompletedRotation => exact .upload (fine.append (by simp [Write.isPartOf]))
  | bumpKeyVersion known =>
    cases fine
    exact .drawn _ _
  | purgeEnvelopes c =>
    obtain ⟨version, rfl⟩ := fine
    exact .rotation _ _ _
  | leaveVoiceSessions c u =>
    cases fine
    exact .leaving u (ended_endsFor fun v inside => (by simpa using (List.mem_filter.mp inside).2 : _ ∧ _).1)
  | joinVoiceChannel row known => exact .joining row fine
  | leaveVoiceChannel | leaveAllUserVoiceSessions | touchUserVoiceSessions | cleanupStaleVoiceSessions
  | softDeleteChannel | deleteGroup | forceDeleteConversation => exact fine.elim
  | _ => exact plain fine rfl

end Shapes

/-- The turn of one call: how an access leaves the tables, the open transactions and its mode. -/
inductive Turn (st : Store schema) (m : Mode) : Request → Store schema → Mode → Prop
  | same (r : Request) : Turn st m r st m
  | opened (idle : m = none) : Turn st m (.sql .start) st.opened (some (st.next, []))
  | recorded {tx : Nat} {q : Query} {writes more : List Write} (mine : m = some (tx, writes))
    (fine : q.inTransaction writes) (wrote : q.Wrote (Store.applyAll (S := schema) st.tables writes) more)
    (free : st.isFree (some tx) more = true) :
    Turn st m (.sql (.run (some tx) q)) (st.record (some tx) more) (some (tx, writes ++ more))
  | pooled {q : Query} {more : List Write} (pool : q.onPool = true) (wrote : q.Wrote st.tables more)
    (free : st.isFree none more = true) : Turn st m (.sql (.run none q)) (st.record none more) m
  | committed {tx : Nat} {writes : List Write} (mine : m = some (tx, writes))
    (whole : ∀ c v, writes ≠ [.keyVersion c v]) : Turn st m (.sql (.commit tx)) (st.committed tx) none
  | dropped {tx : Nat} {writes : List Write} (r : Request) (mine : m = some (tx, writes)) :
    Turn st m r (st.discard tx) none
  | clock (ms : Nat) :
    Turn st m (.clock ms) { st with tables := { st.tables with now := st.tables.now + ms } } m

/-- Each call has the transaction its mode says, to itself, and no other is open. -/
structure Bound (modes : Nat → Mode) (st : Store schema) : Prop where
  writes : ∀ {i tx writes}, modes i = some (tx, writes) → tx < st.next ∧ st.writes tx = writes
  alone : ∀ {i j tx l l'}, modes i = some (tx, l) → modes j = some (tx, l') → i = j
  owned : ∀ {tx}, st.writes tx ≠ [] → ∃ i, modes i = some (tx, st.writes tx)

structure Base (modes : Nat → Mode) (st : Store schema) : Prop where
  bound : Bound modes st
  shaped : st.Holds (fun _ => True) fun _ writes => Shaped writes

theorem shaped_lasting : Store.Lasting (S := schema) (fun _ => True) fun _ writes => Shaped writes where
  empty _ := .plain fun _ inside => (List.not_mem_nil inside).elim
  lands _ _ := trivial
  beside _ shaped _ _ := shaped

section Steps
variable {modes : Nat → Mode} {s s' : State} {who : Nat} {r : Request} {st st' : Store schema} {m : Mode}

theorem State.sqlPerform_store {r : Sql schema} {a : r.Answer} (answered : s.sqlPerform r = some (a, s')) :
    s.store.perform s.fault r = some (a, s'.store) := by
  obtain ⟨⟨a', store⟩, performed, same⟩ := Option.map_eq_some_iff.mp answered
  cases same
  exact performed

theorem State.perform_store {a : Answer r} (quiet : r.isQuiet = true) (answered : machine.perform r s = some (a, s')) :
    s'.store = s.store := by
  cases r with
  | sql | clock | deleteUser => cases quiet
  | ended socket =>
    change (if _ then some ((), s) else none) = some (a, s') at answered
    split at answered
    · obtain ⟨-, rfl⟩ := Prod.mk.inj (Option.some.inj answered)
      rfl
    · cases answered
  | tick socket time =>
    change (if _ then some (false, s) else if _ then some (true, s) else none) = some (a, s') at answered
    split at answered
    · obtain ⟨-, rfl⟩ := Prod.mk.inj (Option.some.inj answered)
      rfl
    · split at answered
      · obtain ⟨-, rfl⟩ := Prod.mk.inj (Option.some.inj answered)
        rfl
      · cases answered
  | claimIfAbsent userId channelId deviceId =>
    have kept : (s.claimIfAbsent (userId, channelId) deviceId).2.store = s.store := by
      unfold State.claimIfAbsent
      split <;> rfl
    have same : s' = (s.claimIfAbsent (userId, channelId) deviceId).2 := (Prod.mk.inj (Option.some.inj answered)).2.symm
    rw [same, kept]
  | claim userId channelId deviceId =>
    have kept : (s.claim (userId, channelId) deviceId).2.store = s.store := by
      unfold State.claim
      simp only
      split
      · rfl
      · split
        · rfl
        · split <;> rfl
    have same : s' = (s.claim (userId, channelId) deviceId).2 := (Prod.mk.inj (Option.some.inj answered)).2.symm
    rw [same, kept]
  | _ =>
    obtain ⟨-, rfl⟩ := Prod.mk.inj (Option.some.inj answered)
    rfl

theorem turn {a : Answer r} (bound : Bound modes s.store) (permit : Permit (modes who) r)
    (answered : machine.perform r s = some (a, s')) :
    ∃ m, Next (modes who) r a m ∧ Turn s.store (modes who) r s'.store m := by
  cases r with
  | sql r =>
    have performed := State.sqlPerform_store answered
    cases r with
    | start =>
      rcases Store.perform_start performed with ⟨_, rfl, same⟩ | ⟨_, rfl, same⟩
      · rw [same]
        exact ⟨_, rfl, .same _⟩
      · rw [same]
        exact ⟨_, rfl, .opened permit⟩
    | run tx q =>
      rcases Store.perform_run performed with ⟨_, rfl, same⟩ | ⟨e, _, _, rfl, same⟩ | ⟨b, more, _, ran, free, rfl, same⟩
      · rw [same]
        cases tx <;> exact ⟨_, rfl, .same _⟩
      · rw [same]
        cases tx <;> exact ⟨_, rfl, .same _⟩
      · rw [same]
        cases tx with
        | none => exact ⟨_, rfl, .pooled permit (Query.eval_wrote ran) free⟩
        | some tx =>
          obtain ⟨writes, mine, fine⟩ := permit
          have view : s.store.view (some tx) = Store.applyAll s.store.tables writes := by
            rw [← (bound.writes mine).2]
            rfl
          rw [view] at ran
          exact ⟨_, ⟨writes, more, _, mine, ran, rfl⟩, .recorded mine fine (Query.eval_wrote ran) free⟩
    | commit tx =>
      obtain ⟨writes, mine, whole⟩ := permit
      rcases Store.perform_commit performed with ⟨_, rfl, same⟩ | ⟨_, rfl, same⟩
      · rw [same]
        exact ⟨_, rfl, .dropped _ mine⟩
      · rw [same]
        exact ⟨_, rfl, .committed mine whole⟩
    | rollback tx =>
      obtain ⟨writes, mine⟩ := permit
      obtain ⟨-, same⟩ := Prod.mk.inj (Option.some.inj performed)
      rw [← same]
      exact ⟨_, rfl, .dropped _ mine⟩
  | clock ms =>
    obtain ⟨-, rfl⟩ := Prod.mk.inj (Option.some.inj answered)
    exact ⟨_, rfl, .clock ms⟩
  | deleteUser userId hasBanned => exact permit.elim
  | _ =>
    rw [State.perform_store rfl answered]
    exact ⟨_, rfl, .same _⟩

theorem Bound.held (bound : Bound modes st) : Store.Held modes st := ⟨bound.writes, bound.alone, bound.owned⟩

theorem Bound.of_held (held : Store.Held modes st) : Bound modes st := ⟨held.writes, held.alone, held.owned⟩

theorem Bound.update (bound : Bound modes st) {tx : Nat} {l l' : List Write} (mine : modes who = some (tx, l))
    (tables : Tables) :
    Bound (Function.update modes who (some (tx, l')))
      { st with tables, writes := Function.update st.writes tx l' } := .of_held (bound.held.update mine tables)

theorem Bound.close (bound : Bound modes st) {tx : Nat} {l : List Write} (mine : modes who = some (tx, l))
    (tables : Tables) :
    Bound (Function.update modes who none) { st with tables, writes := Function.update st.writes tx [] } :=
  .of_held (bound.held.close mine tables)

theorem Bound.start (bound : Bound modes st) (idle : modes who = none) (empty : st.writes st.next = []) :
    Bound (Function.update modes who (some (st.next, []))) st.opened := .of_held (bound.held.start idle empty)

theorem Bound.tables (bound : Bound modes st) (tables : Tables) : Bound modes { st with tables } :=
  ⟨bound.writes, bound.alone, bound.owned⟩

theorem Base.step (base : Base modes st) (turned : Turn st (modes who) r st' m) :
    Base (Function.update modes who m) st' := by
  cases turned with
  | same r => rwa [Function.update_eq_self]
  | opened idle =>
    exact ⟨base.bound.start idle (base.shaped.unbegun (Nat.le_refl _)), base.shaped.opened⟩
  | @recorded tx q writes more mine fine wrote free =>
    obtain ⟨begun, same⟩ := base.bound.writes mine
    have shaped := base.shaped.pending tx
    rw [same] at shaped
    refine ⟨?_, base.shaped.record shaped_lasting free (fun i here => Option.some.inj here ▸ begun) ?_⟩
    · simp only [Store.record, same]
      exact base.bound.update mine st.tables
    · simp only [Option.map_some, Option.getD_some, same]
      exact shaped.grow fine wrote
  | pooled | clock =>
    rw [Function.update_eq_self]
    exact ⟨base.bound.tables _, trivial, base.shaped.pending, base.shaped.apart, base.shaped.unbegun⟩
  | committed mine whole =>
    exact ⟨base.bound.close mine _, base.shaped.committed shaped_lasting _⟩
  | dropped r mine => exact ⟨base.bound.close mine st.tables, base.shaped.discard shaped_lasting _⟩

theorem Base.holds {I : Tables → Prop} {J : Tables → List Write → Prop} (base : Base modes st)
    (lasting : Store.Lasting (S := schema) I J) (holds : st.Holds I J) (turned : Turn st (modes who) r st' m)
    (grow : ∀ {tx : Nat} {q : Query} {writes more : List Write}, r = .sql (.run (some tx) q) → q.inTransaction writes → Shaped writes →
      J st.tables writes → q.Wrote (Store.applyAll (S := schema) st.tables writes) more →
      J st.tables (writes ++ more))
    (pool : ∀ {q : Query} {more : List Write}, q.onPool = true → q.Wrote st.tables more → J st.tables more)
    (clock : ∀ {t now}, I t → I { t with now }) (clocked : ∀ {t l now}, J t l → J { t with now } l) :
    st'.Holds I J := by
  cases turned with
  | same r => exact holds
  | opened idle => exact holds.opened
  | @recorded tx q writes more mine fine wrote free =>
    obtain ⟨begun, same⟩ := base.bound.writes mine
    refine holds.record lasting free (fun i here => Option.some.inj here ▸ begun) ?_
    simp only [Option.map_some, Option.getD_some, same]
    exact grow rfl fine (same ▸ base.shaped.pending tx) (same ▸ holds.pending tx) wrote
  | pooled pooled wrote free => exact holds.record lasting free nofun (pool pooled wrote)
  | committed mine whole => exact holds.committed lasting _
  | dropped r mine => exact holds.discard lasting _
  | clock ms => exact ⟨clock holds.tables, fun i => clocked (holds.pending i), holds.apart, holds.unbegun⟩

theorem Base.restart (base : Base modes st) : Base (fun _ => none) st.restart :=
  ⟨⟨nofun, nofun, fun some' => (some' rfl).elim⟩, base.shaped.restart shaped_lasting⟩

end Steps

structure Lasts (ok : List (Event machine) → Event machine → Prop)
    (K : List (Event machine) → (Nat → Mode) → State → Prop) : Prop where
  step : ∀ {trace modes s r a s' m who}, Base modes s.store → K trace modes s →
    Turn s.store (modes who) r s'.store m → machine.perform r s = some (a, s') → ok trace ⟨who, r, s, s'⟩ →
    K (⟨who, r, s, s'⟩ :: trace) (Function.update modes who m) s'
  restart : ∀ {trace modes s}, Base modes s.store → K trace modes s → K trace (fun _ => none) s.restart

theorem Lasts.sound {ok : List (Event machine) → Event machine → Prop}
    {K : List (Event machine) → (Nat → Mode) → State → Prop} (lasts : Lasts ok K) :
    contract.Sound ok fun trace modes s => Base modes s.store ∧ K trace modes s where
  turns who :=
    { step := by
        intro trace modes s r a s' fit permit answered fine
        obtain ⟨m, next, turned⟩ := turn fit.1.bound permit answered
        exact ⟨m, next, fit.1.step turned, lasts.step fit.1 fit.2 turned answered fine⟩
      wait := fun _ _ _ => trivial }
  finish := by
    intro trace modes s i fit final
    have same : Function.update modes i contract.finished = modes := by
      rw [Function.update_eq_self_iff]
      exact final.symm
    rwa [same]
  restart fit _ := ⟨fit.1.restart, lasts.restart fit.1 fit.2⟩
  finished_rest := trivial

end Echo.Groups
