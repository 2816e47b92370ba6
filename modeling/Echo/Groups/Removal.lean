import Echo.Groups.Rekey

/-! What a removed member can still get. The removal, the bump of the version with its purge and
an upload are transactions of their own, and an upload checks its recipients before it commits. -/
namespace Echo.Groups
open Echo.Lib
open Echo.Server (Uuid)

def Removes (e : Event machine) (c u : Uuid) : Prop :=
  e.before.tables.isMember c u = true ∧ e.after.tables.isMember c u = false

/-- The call `i` has removed the user, who has not been a member since. -/
def Gone (i : Nat) (c u : Uuid) : List (Event machine) → Prop
  | [] => False
  | e :: trace => e.after.tables.isMember c u = false ∧ (e.who = i ∧ Removes e c u ∨ Gone i c u trace)

def Announced (i : Nat) (c u : Uuid) (v : Int) : List (Event machine) → Prop
  | [] => False
  | e :: trace => e.after.tables.isMember c u = false ∧
    (e.who = i ∧ Draws e c v ∧ Gone i c u trace ∨ Announced i c u v trace)

def Invites (e : Event machine) : Prop :=
  ∀ tx sent, e.request = .sql (.commit tx) → .envelope sent ∈ e.before.store.writes tx →
    e.before.tables.isMember sent.conversationId sent.recipientUserId = true

namespace Tables
variable {t t' : Tables}

def Bumps (t : Tables) (writes : List Write) : Prop :=
  ∀ {c v}, .keyVersion c v ∈ writes → ∀ n, t.version c = some n → n + 1 = v

theorem bumps_lasting : Store.Lasting (S := schema) (fun _ => True) Bumps where
  empty _ := nofun
  lands _ _ := trivial
  beside {t writes other} _ bumps _ apart := by
    intro c v inside
    rw [version_apart fun w there taken => apart _ inside _ (by simp [Write.keys]) w there taken]
    exact bumps inside

theorem quiet_envelopes {l : List Write} (none : ∀ w ∈ l, w.isKey = false) :
    ∀ e ∈ (Store.applyAll (S := schema) t l).envelopes, e ∈ t.envelopes := by
  induction l generalizing t with
  | nil => exact fun _ => id
  | cons w l ih =>
    intro e inside
    have before := ih (t := t.apply w) (fun w inside => none w (List.mem_cons_of_mem _ inside)) e inside
    cases apply_keyStep (t := t) (none w List.mem_cons_self) with
    | same keys envelopes rotations drawn version => rwa [envelopes] at before
    | created c keys envelopes rotations fresh drawn version => rwa [envelopes] at before
    | deleted c keys envelopes rotations drawn version =>
      rw [envelopes] at before
      exact (List.mem_filter.mp before).1

theorem landed_envelopes {l : List Write} (landing : Landing l) :
    ∀ e ∈ (Store.applyAll (S := schema) t l).envelopes, e ∈ t.envelopes ∨ .envelope e ∈ l := by
  intro e inside
  cases landing with
  | upload each =>
    rcases upload_lands (t := t) each with ⟨-, same⟩ | ⟨-, landed⟩
    · rw [same] at inside
      exact .inl inside
    · exact (landed.newer e inside).imp_right (List.mem_cons_of_mem _)
  | drawn c v => exact .inl inside
  | rotation c v rows => exact .inl (List.mem_filter.mp inside).1
  | quiet none => exact .inl (quiet_envelopes none e inside)

end Tables

def Write.isMembership : Write → Bool
  | member .. | deleteConversation _ => true
  | _ => false

theorem Tables.apply_members {t : Tables} {w : Write} (other : w.isMembership = false) :
    (t.apply w).members = t.members := by
  cases w with
  | member | deleteConversation => cases other
  | conversation | groupKey | envelope | rotation | channel | voiceSession | inviteToken | systemMessage =>
    simp only [apply]; split <;> rfl
  | _ => rfl

theorem Tables.applyAll_members {t : Tables} {l : List Write} (other : ∀ w ∈ l, w.isMembership = false) :
    (Store.applyAll (S := schema) t l).members = t.members := by
  induction l generalizing t with
  | nil => rfl
  | cons w l ih =>
    exact (ih fun w inside => other w (List.mem_cons_of_mem _ inside)).trans (apply_members (other w List.mem_cons_self))

theorem Query.onPool_membership {q : Query} {t : Tables} {more : List Write} (pool : q.onPool = true)
    (wrote : q.Wrote t more) : (∃ c, more = [.deleteConversation c]) ∨ ∀ w ∈ more, w.isMembership = false := by
  have voiced : ∀ {sessions : List VoiceSession}, ∀ w ∈ (Query.ended t sessions).2, w.isMembership = false := by
    intro sessions w inside
    obtain ⟨v, _, rfl⟩ := List.mem_map.mp inside
    rfl
  cases wrote with
  | deleteGroup g owner => exact .inl ⟨g, rfl⟩
  | forceDeleteConversation c => exact .inl ⟨c, rfl⟩
  | leaveAllUserVoiceSessions | cleanupStaleVoiceSessions => exact .inr voiced
  | touchUserVoiceSessions u =>
    refine .inr fun w inside => ?_
    obtain ⟨v, _, rfl⟩ := List.mem_map.mp inside
    rfl
  | insertMember | addMember | joinPublicGroup | removeMember | setMemberRole | leaveVoiceSessions => cases pool
  | _ => exact .inr (by simp [Write.isMembership])

theorem Announced.gone {i : Nat} {c u : Uuid} {v : Int} {trace : List (Event machine)}
    (announced : Announced i c u v trace) : Gone i c u trace := by
  induction trace with
  | nil => exact announced.elim
  | cons e trace ih =>
    obtain ⟨out, ⟨-, -, gone⟩ | before⟩ := announced
    · exact ⟨out, .inr gone⟩
    · exact ⟨out, .inr (ih before)⟩

section Turns
variable {s s' : State} {modes : Nat → Mode} {m : Mode} {r : Request} {who : Nat}

theorem envelope_invited (base : Base modes s.store) (turned : Turn s.store (modes who) r s'.store m)
    (invites : Invites ⟨who, r, s, s'⟩) {e : GroupKeyEnvelopeRow} (inside : e ∈ s'.tables.envelopes) :
    e ∈ s.tables.envelopes ∨ s.tables.isMember e.conversationId e.recipientUserId = true := by
  generalize after : s'.store = st' at turned
  have tables : s'.tables = st'.tables := congrArg Store.tables after
  rw [tables] at inside
  cases turned with
  | same | opened | recorded | dropped | clock => exact .inl inside
  | pooled pool wrote free =>
    exact .inl (Tables.quiet_envelopes (fun w there => (Query.onPool_writes pool wrote w there).1) e inside)
  | @committed tx l mine whole =>
    rcases Tables.landed_envelopes (base.shaped.pending tx).landing e inside with before | sent
    · exact .inl before
    · exact .inr (invites tx e rfl sent)

theorem removal_turn {c u : Uuid} (turned : Turn s.store (modes who) r s'.store m)
    (removes : Removes ⟨who, r, s, s'⟩ c u) : m = none ∨ ∀ e ∈ s'.tables.envelopes, e.conversationId ≠ c := by
  generalize after : s'.store = st' at turned
  have tables : s'.tables = st'.tables := congrArg Store.tables after
  obtain ⟨before, now⟩ := removes
  change s.tables.isMember c u = true at before
  change s'.tables.isMember c u = false at now
  have moved : st'.tables.members ≠ s.tables.members := by
    intro same
    rw [tables, Tables.isMember, Tables.getMemberRole, same] at now
    rw [Tables.isMember, Tables.getMemberRole, now] at before
    cases before
  cases turned with
  | same | opened | recorded | clock => exact (moved rfl).elim
  | pooled pool wrote free =>
    rcases Query.onPool_membership pool wrote with ⟨c', rfl⟩ | other
    · have here : c = c' := by
        by_contra different
        have same : (s.tables.apply (.deleteConversation c')).members c = s.tables.members c :=
          Function.update_of_ne different ..
        change s'.tables = s.tables.apply (.deleteConversation c') at tables
        rw [tables, Tables.isMember, Tables.getMemberRole, same] at now
        rw [Tables.isMember, Tables.getMemberRole, now] at before
        cases before
      refine .inr fun e inside => ?_
      change s'.tables = s.tables.apply (.deleteConversation c') at tables
      rw [tables] at inside
      simpa [here] using (List.mem_filter.mp inside).2
    · exact (moved (Tables.applyAll_members other)).elim
  | committed | dropped => exact .inl rfl

theorem purge_turn {c : Uuid} {tx : Nat} {l : List Write} {rows : List (Int × Uuid)}
    (turned : Turn s.store (modes who) r s'.store (some (tx, l))) (inside : .purge c rows ∈ l) :
    (∃ l', modes who = some (tx, l') ∧ .purge c rows ∈ l') ∨
      (s'.tables = s.tables ∧ ∀ e ∈ s.tables.envelopes, e.conversationId = c →
        (e.keyVersion, e.recipientUserId) ∈ rows) := by
  generalize after : s'.store = st' at turned
  have tables : s'.tables = st'.tables := congrArg Store.tables after
  generalize next : some (tx, l) = m' at turned
  cases turned with
  | same | pooled | clock => exact .inl ⟨l, next.symm, inside⟩
  | opened idle =>
    obtain ⟨rfl, rfl⟩ := Prod.mk.inj (Option.some.inj next)
    cases inside
  | @recorded tx' q writes more mine fine wrote free =>
    obtain ⟨rfl, rfl⟩ := Prod.mk.inj (Option.some.inj next)
    rcases List.mem_append.mp inside with before | now
    · exact .inl ⟨writes, mine, before⟩
    · refine .inr ⟨tables, fun e there here => ?_⟩
      rcases wrote.isKey_cases now rfl with
        ⟨_, _, h, _⟩ | ⟨_, _, h⟩ | ⟨_, _, h⟩ | ⟨_, _, _, _, h⟩ | ⟨c', rfl, same⟩
      · cases h
      · cases h
      · cases h
      · cases h
      · cases same
        obtain ⟨version, rfl⟩ := fine
        refine List.mem_map_of_mem (f := fun e : GroupKeyEnvelopeRow => (e.keyVersion, e.recipientUserId)) ?_
        exact List.mem_filter.mpr ⟨there, decide_eq_true here⟩
  | committed | dropped => cases next

theorem draw_turn {c : Uuid} {v : Int} (base : Base modes s.store) (bumps : s.store.Holds (fun _ => True) Tables.Bumps)
    (turned : Turn s.store (modes who) r s'.store m) (draws : Draws ⟨who, r, s, s'⟩ c v) :
    ∃ tx l rows, modes who = some (tx, l) ∧ .purge c rows ∈ l ∧
      ∀ e ∈ s'.tables.envelopes, e ∈ s.tables.envelopes ∧
        ¬ (e.conversationId = c ∧ (e.keyVersion, e.recipientUserId) ∈ rows) := by
  obtain ⟨tx, rfl, inside, now⟩ := draws
  have still : s.tables.version c ≠ some v := by
    intro before
    have := bumps.pending tx inside v before
    omega
  generalize after : s'.store = st' at turned
  have tables : s'.tables = st'.tables := congrArg Store.tables after
  change s'.tables.version c = some v at now
  rw [tables] at now
  cases turned with
  | same | dropped => exact (still now).elim
  | @committed tx' l mine whole =>
    have here := (base.bound.writes mine).2
    have shaped := base.shaped.pending tx
    change .keyVersion c v ∈ s.store.writes tx at inside
    rw [here] at inside shaped
    cases shaped.landing with
    | upload each =>
      rcases List.mem_cons.mp inside with first | part
      · cases first
      · cases each _ part
    | drawn c' v' => exact (whole c' v' rfl).elim
    | rotation c' v' rows =>
      have same : c = c' := by simpa using (show c = c' ∧ v = v' by simpa using inside).1
      subst same
      refine ⟨tx, _, rows, mine, by simp, fun e there => ?_⟩
      rw [tables] at there
      simp only [Store.committed] at there
      rw [here, Tables.rotation_lands] at there
      obtain ⟨before, spared⟩ := List.mem_filter.mp there
      exact ⟨before, of_decide_eq_true spared⟩
    | quiet none => cases none _ inside

end Turns

structure KeptOut (trace : List (Event machine)) (modes : Nat → Mode) (s : State) : Prop where
  bumps : s.store.Holds (fun _ => True) Tables.Bumps
  out : ∀ {i c u}, Gone i c u trace → s.tables.isMember c u = false
  /-- The purge that goes with the removal has found all there is. -/
  found : ∀ {i c u tx l rows}, Gone i c u trace → modes i = some (tx, l) → .purge c rows ∈ l →
    ∀ e ∈ s.tables.envelopes, e.conversationId = c → e.recipientUserId = u → (e.keyVersion, e.recipientUserId) ∈ rows
  empty : ∀ {i c u v}, Announced i c u v trace → ∀ e ∈ s.tables.envelopes,
    ¬ (e.conversationId = c ∧ e.recipientUserId = u)

theorem Tables.Bumps.grow {t : Tables} {q : Query} {l more : List Write} (bumps : t.Bumps l) (fine : q.inTransaction l)
    (wrote : q.Wrote (Store.applyAll (S := schema) t l) more) : t.Bumps (l ++ more) := by
  intro c v inside n now
  rcases List.mem_append.mp inside with before | new
  · exact bumps before n now
  · rcases wrote.isKey_cases new rfl with
      ⟨_, _, h, _⟩ | ⟨_, _, h⟩ | ⟨_, _, h⟩ | ⟨c', n', rfl, known, same⟩ | ⟨_, _, h⟩
    · cases h
    · cases h
    · cases h
    · cases same
      cases fine
      rw [show t.version c = some n' from known] at now
      cases now
      rfl
    · cases h

theorem keptOut_lasts : Lasts (fun _ e => Invites e) KeptOut where
  step {trace modes s r a s' m who} base kept turned answered invites := by
    have bumps : s'.store.Holds (fun _ => True) Tables.Bumps := by
      refine base.holds Tables.bumps_lasting kept.bumps turned ?_ ?_ (fun _ => trivial) (fun bumps => bumps)
      · exact fun _ fine _ bumps wrote => bumps.grow fine wrote
      · intro q more pool wrote c v inside
        cases (Query.onPool_writes pool wrote _ inside).1
    -- nothing new for somebody who was out before
    have older : ∀ {i c u}, Gone i c u trace → ∀ e ∈ s'.tables.envelopes, e.conversationId = c →
        e.recipientUserId = u → e ∈ s.tables.envelopes := by
      rintro i c u gone e inside rfl rfl
      rcases envelope_invited base turned invites inside with before | member
      · exact before
      · rw [kept.out gone] at member
        cases member
    refine ⟨bumps, fun gone => gone.1, ?_, ?_⟩
    · rintro i c u tx l rows ⟨-, ⟨rfl, removes⟩ | gone⟩ mine purges e inside here recipient
      · rcases removal_turn turned removes with rfl | none
        · simp at mine
        · exact (none e inside here).elim
      · have before := older gone e inside here recipient
        by_cases same : i = who
        · subst same
          rw [Function.update_self] at mine
          subst mine
          rcases purge_turn turned purges with ⟨l', open', there⟩ | ⟨-, all⟩
          · exact kept.found gone open' there e before here recipient
          · exact all e before here
        · rw [Function.update_of_ne same] at mine
          exact kept.found gone mine purges e before here recipient
    · rintro i c u v ⟨-, ⟨rfl, draws, gone⟩ | announced⟩ e inside ⟨here, recipient⟩
      · obtain ⟨tx, l, rows, mine, purges, spared⟩ := draw_turn base kept.bumps turned draws
        obtain ⟨before, missed⟩ := spared e inside
        exact missed ⟨here, kept.found gone mine purges e before here recipient⟩
      · exact kept.empty announced e (older announced.gone e inside here recipient) ⟨here, recipient⟩
  restart base kept := ⟨kept.bumps.restart Tables.bumps_lasting, kept.out, fun _ mine => (by cases mine), kept.empty⟩

/-- Once the version for a removal is drawn, the tables have no envelope for the removed user and
the routes give none, until somebody lets the user in again. -/
theorem removed_member_kept_out {s : State} {run : List (Move machine AppError Unit)}
    (idle : s.store.writes = fun _ => []) (calls : ∀ move ∈ run, Calls move)
    (clear : Clear (fun _ e => Invites e) ((World.start s).after run).trace) {i : Nat} {c u : Uuid} {v : Int}
    (announced : Announced i c u v ((World.start s).after run).trace) :
    (∀ e ∈ ((World.start s).after run).state.tables.envelopes, ¬ (e.conversationId = c ∧ e.recipientUserId = u)) ∧
      ((World.start s).after run).state.tables.getMyGroupKeyEnvelope c u = none ∧
      (getLatestGroupKey ⟨u⟩ c).exec ((World.start s).after run).state.healthy =
        (.done (.error (.unauthorized "Not a member of this group")), ((World.start s).after run).state.healthy) := by
  have start : KeptOut [] (fun _ => none) s := by
    refine ⟨⟨trivial, fun i => ?_, fun {i j} _ => ?_, fun {i} _ => ?_⟩, nofun, nofun, nofun⟩
    · rw [idle]
      exact nofun
    · rw [idle]
      exact nofun
    · rw [idle]
  obtain ⟨modes, base, kept⟩ := keptOut_lasts.holds calls idle start clear
  have none := kept.empty announced
  refine ⟨none, ?_, exec_getLatestGroupKey_refused rfl (kept.out announced.gone)⟩
  rcases Tables.highest_spec GroupKeyEnvelopeRow.keyVersion
      ((((World.start s).after run).state.tables.envelopesOf c).filter fun row => row.recipientUserId = u) with
    ⟨-, found⟩ | ⟨top, there, -, -⟩
  · exact found
  · obtain ⟨there, recipient⟩ := List.mem_filter.mp there
    obtain ⟨there, here⟩ := List.mem_filter.mp there
    exact (none top there ⟨of_decide_eq_true here, of_decide_eq_true recipient⟩).elim

section Examples

instance (e : Event machine) (c u : Uuid) : Decidable (Removes e c u) := inferInstanceAs (Decidable (_ ∧ _))

instance Gone.decidable (i : Nat) (c u : Uuid) : (trace : List (Event machine)) → Decidable (Gone i c u trace)
  | [] => isFalse id
  | e :: trace => by
    have := Gone.decidable i c u trace
    exact inferInstanceAs (Decidable (_ ∧ (_ ∧ _ ∨ _)))

instance Announced.decidable (i : Nat) (c u : Uuid) (v : Int) :
    (trace : List (Event machine)) → Decidable (Announced i c u v trace)
  | [] => isFalse id
  | e :: trace => by
    have := Announced.decidable i c u v trace
    exact inferInstanceAs (Decidable (_ ∧ (_ ∧ _ ∧ _ ∨ _)))

instance (e : Event machine) : Decidable (Invites e) :=
  decidable_of_iff (∀ tx ∈ Request.commits e.request, ∀ w ∈ e.before.store.writes tx, ∀ sent ∈ Write.envelope? w,
      e.before.tables.isMember sent.conversationId sent.recipientUserId = true)
    ⟨fun invites tx sent asked inside =>
        invites tx (Request.commits_eq.mpr asked) _ inside sent (Write.envelope?_eq.mpr rfl),
      fun invites tx commits _ inside sent same =>
        invites tx sent (Request.commits_eq.mp commits) (Write.envelope?_eq.mp same ▸ inside)⟩

/-- The group loses a member and is re-keyed. -/
theorem removed_member_kept_out_rekeyed :
    let run := founded ++ [.removeMember ⟨1⟩ 100 3, .uploadGroupKey ⟨1⟩ 100 (keyFor 2 [1, 2])]
    Announced 2 100 3 2 (played run).trace ∧ (played run).state.tables.getMyGroupKeyEnvelope 100 3 = none := by
  have fine : ∀ calls, Clear (fun _ e => Invites e) (played calls).trace → Announced 2 100 3 2 (played calls).trace →
      (played calls).state.tables.getMyGroupKeyEnvelope 100 3 = none :=
    fun calls clear announced => (removed_member_kept_out rfl (schedule_calls _) clear announced).2.1
  exact ⟨by decide +kernel, fine _ (by decide +kernel) (by decide +kernel)⟩

/-- The upload has checked its recipients when the member is removed, and is committed after it. -/
def overtaking : List (Call ⊕ Nat) :=
  oneByOne 30 founded ++ [.inl (.uploadGroupKey ⟨1⟩ 100 (keyFor 2 [1, 2, 3])), .inr 2, .inr 2] ++
    .inl (.removeMember ⟨1⟩ 100 3) :: (List.replicate 30 (.inr 3) ++ List.replicate 30 (.inr 2))

theorem removed_member_gets_key :
    ∃ run, (∀ move ∈ run, Calls move) ∧
      Announced 3 100 3 2 ((World.start (State.new fun _ => some "user")).after run).trace ∧
      (((World.start (State.new fun _ => some "user")).after run).state.tables.getMyGroupKeyEnvelope 100 3).map
        GroupKeyEnvelopeRow.keyVersion = some 2 := by
  refine ⟨schedule overtaking, schedule_calls _, ?_, ?_⟩
  · decide +kernel
  · decide +kernel

end Examples
end Echo.Groups
