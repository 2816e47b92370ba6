import Echo.Groups.Mannered

/-! How often an invite is used. Its row is locked before it is looked at, so it is never used more
often than it allows. Whether somebody came in by it is not looked at. -/
namespace Echo.Groups

def Write.isMember : Write → Bool
  | member .. => true
  | _ => false

namespace Membership
open Echo.Lib
open Echo.Server (Uuid)

def uses (token : String) (writes : List Write) : Nat := writes.count (.useInvite token)

theorem uses_append (token : String) (writes more : List Write) :
    uses token (writes ++ more) = uses token writes + uses token more := List.count_append

theorem uses_cons (token : String) (w : Write) (writes : List Write) :
    uses token (w :: writes) = uses token writes + if w = .useInvite token then 1 else 0 := by
  rw [uses, List.count_cons, ← uses]
  simp only [beq_iff_eq]

theorem uses_none {token : String} {writes : List Write} (unused : .useInvite token ∉ writes) :
    uses token writes = 0 := List.count_eq_zero_of_not_mem unused

def accepts (token : String) (e : Event machine) : Bool :=
  match (e.request : Request) with
  | .sql (.commit tx) => !e.before.fault && decide (.useInvite token ∈ e.before.store.writes tx)
  | _ => false

def admits (token : String) (e : Event machine) : Bool :=
  match (e.request : Request) with
  | .sql (.commit tx) => accepts token e && (e.before.store.writes tx).any Write.isMember
  | _ => false

def memberships (token : String) (trace : List (Event machine)) : Nat := trace.countP (admits token)

/-- An accept of an invite comes to its upsert before anybody else has let its user in. -/
def FindsOutside (_ : List (Event machine)) (e : Event machine) : Prop :=
  ∀ tx g u token row, e.request = .sql (.run (some tx) (.addMember g u)) →
    .lockInvite token row ∈ e.before.store.writes tx → (e.before.store.view (some tx)).isMember g u = false

section Journals
variable {journal : Journal} {token : String} {row : InviteToken}

theorem lock_first (kept : manner.Kept journal) (inside : .lockInvite token row ∈ journal.writes) :
    ∃ a rest, journal = ⟨.lockInviteToken token, a, [.lockInvite token row]⟩ :: rest := by
  induction kept with
  | nil => cases inside
  | @snoc journal q a more t kept fine ran ih =>
    rw [Journal.writes_append, Journal.writes_cons, Journal.writes_nil, List.append_nil] at inside
    rcases List.mem_append.mp inside with old | new
    · obtain ⟨b, rest, rfl⟩ := ih old
      exact ⟨b, rest ++ [⟨q, a, more⟩], rfl⟩
    · have fine : Within journal q := fine
      cases Query.eval_wrote ran with
      | nothing may => cases new
      | leaveVoiceSessions | leaveAllUserVoiceSessions | cleanupStaleVoiceSessions | touchUserVoiceSessions => cases fine
      | lockInviteToken found =>
        cases List.mem_singleton.mp new
        cases fine
        exact ⟨a, [], rfl⟩
      | _ => cases List.mem_singleton.mp new

theorem use_entry {q : Query} {t : Tables} {more : List Write} (fine : Within journal q) (wrote : q.Wrote t more)
    (inside : .useInvite token ∈ more) : q = .useInviteToken token ∧ more = [.useInvite token] := by
  cases wrote with
  | nothing may => cases inside
  | leaveVoiceSessions | leaveAllUserVoiceSessions | cleanupStaleVoiceSessions | touchUserVoiceSessions => cases fine
  | useInviteToken found =>
    cases List.mem_singleton.mp inside
    exact ⟨rfl, rfl⟩
  | _ => cases List.mem_singleton.mp inside

theorem used_once (kept : manner.Kept journal) : uses token journal.writes ≤ 1 := by
  induction kept with
  | nil => exact Nat.zero_le 1
  | @snoc journal q a more t kept fine ran ih =>
    rw [Journal.writes_append, Journal.writes_cons, Journal.writes_nil, List.append_nil, uses_append]
    by_cases used : Write.useInvite token ∈ more
    · obtain ⟨rfl, rfl⟩ := use_entry fine (Query.eval_wrote ran) used
      have unused : Write.useInvite token ∉ journal.writes := fun inside => fine.1 _ inside rfl
      rw [uses_none unused, Nat.zero_add]
      exact List.count_le_length
    · rw [uses_none used]
      exact ih

theorem used_locked (kept : manner.Kept journal) (inside : .useInvite token ∈ journal.writes) :
    (∃ row, .lockInvite token row ∈ journal.writes ∧ row.isExhausted = false) ∧ ∃ g u a, Told journal (.addMember g u) a := by
  induction kept with
  | nil => cases inside
  | @snoc journal q a more t kept fine ran ih =>
    have grown : ((∃ row, Write.lockInvite token row ∈ journal.writes ∧ row.isExhausted = false) ∧
        ∃ g u a, Told journal (.addMember g u) a) →
        (∃ row, Write.lockInvite token row ∈ Journal.writes (S := schema) (journal ++ [⟨q, a, more⟩]) ∧ row.isExhausted = false) ∧
        ∃ g u b, Told (journal ++ [⟨q, a, more⟩]) (.addMember g u) b := by
      rintro ⟨⟨row, locks, usable⟩, g, u, b, told⟩
      refine ⟨⟨row, ?_, usable⟩, g, u, b, told.mono fun e inside => List.mem_append_left [⟨q, a, more⟩] inside⟩
      rw [Journal.writes_append]
      exact List.mem_append_left _ locks
    rw [Journal.writes_append, Journal.writes_cons, Journal.writes_nil, List.append_nil] at inside
    rcases List.mem_append.mp inside with old | new
    · exact grown (ih old)
    · obtain ⟨rfl, -⟩ := use_entry fine (Query.eval_wrote ran) new
      exact grown fine.2

theorem token_landed {t : Tables} {writes : List Write} (ours : ∀ w ∈ writes, Ours w) (token : String) :
    (Store.applyAll (S := schema) t writes).inviteTokens token = (t.inviteTokens token).map fun row =>
      { row with useCount := row.useCount + uses token writes } := by
  induction writes generalizing t with
  | nil => simp [Store.applyAll, uses]
  | cons w writes ih =>
    obtain ⟨kept, old, valid⟩ := ours w List.mem_cons_self
    refine (ih (t := t.apply w) fun w inside => ours w (List.mem_cons_of_mem _ inside)).trans ?_
    rw [Tables.inviteTokens_apply (old token), uses_cons]
    cases w with
    | useInvite token' =>
      simp only [Write.onToken]
      by_cases here : token' = token
      · subst here
        simp [Option.map_map, Function.comp_def, Int.add_assoc, Int.add_comm]
      · simp [here]
    | deleteInvite token' => exact (valid token' rfl).elim
    | deleteConversation c => exact (kept c rfl).elim
    | _ => simp [Write.onToken]

end Journals

structure Used (trace : List (Event machine)) (t : Tables) : Prop where
  counted : ∀ {token row}, t.inviteTokens token = some row → row.useCount = trace.countP (accepts token)
  bounded : ∀ {token row}, t.inviteTokens token = some row → ∀ n, row.maxUses = some n → row.useCount ≤ max n 0
  fresh : ∀ {token}, token ∉ t.drawnTokens → trace.countP (accepts token) = 0

section Uses
variable {trace : List (Event machine)} {t t' : Tables} {e : Event machine} {token : String}

theorem countP_skip (other : accepts token e = false) :
    (e :: trace).countP (accepts token) = trace.countP (accepts token) :=
  List.countP_cons_of_neg (by rw [other]; exact Bool.false_ne_true)

theorem Used.inherit (used : Used trace t) (other : ∀ token, accepts token e = false)
    (rows : ∀ token row, t'.inviteTokens token = some row → t.inviteTokens token = some row)
    (drawn : ∀ token ∈ t.drawnTokens, token ∈ t'.drawnTokens) : Used (e :: trace) t' where
  counted found := by
    rw [countP_skip (other _)]
    exact used.counted (rows _ _ found)
  bounded found := used.bounded (rows _ _ found)
  fresh undrawn := by
    rw [countP_skip (other _)]
    exact used.fresh fun there => undrawn (drawn _ there)

theorem accepts_other {who : Nat} {s s' : State} {r : Sql schema} (other : ∀ tx, r = .commit tx → s.fault = true) :
    accepts token ⟨who, .sql r, s, s'⟩ = false := by
  cases r with
  | commit tx => exact (congrArg (fun b => !b && _) (other tx rfl)).trans (Bool.false_and _)
  | _ => rfl

theorem accepts_commit {who tx : Nat} {s s' : State} (through : s.fault = false) :
    accepts token ⟨who, .sql (.commit tx), s, s'⟩ = decide (.useInvite token ∈ s.store.writes tx) := by
  change (!s.fault && _) = _
  rw [through]
  rfl

theorem token_kept {w : Write} {row : InviteToken} (old : ∀ row, w ≠ .inviteToken token row)
    (unused : w ≠ .useInvite token) (found : (t.apply w).inviteTokens token = some row) :
    t.inviteTokens token = some row := by
  rw [Tables.inviteTokens_apply old] at found
  cases w with
  | useInvite token' =>
    have other : token' ≠ token := by
      rintro rfl
      exact unused rfl
    exact (if_neg other).symm.trans found
  | deleteInvite token' =>
    simp only [Write.onToken] at found
    split at found
    · cases found
    · exact found
  | deleteConversation c => exact (Option.filter_eq_some_iff.mp found).1
  | _ => exact found

theorem drawnTokens_applyAll {writes : List Write} (drawn : token ∈ t.drawnTokens) :
    token ∈ (Store.applyAll (S := schema) t writes).drawnTokens := by
  induction writes generalizing t with
  | nil => exact drawn
  | cons w writes ih => exact ih (t := t.apply w) (Tables.drawnTokens_apply drawn)

theorem Used.alone {q : Query} {more : List Write} (used : Used trace t) (other : ∀ token, accepts token e = false)
    (fine : q.isAlone = true) (wrote : q.Wrote t more) :
    Used (e :: trace) (Store.applyAll (S := schema) t more) := by
  have single : ∀ w : Write, (∀ token row, w ≠ .inviteToken token row) → (∀ token, w ≠ .useInvite token) →
      Used (e :: trace) (Store.applyAll (S := schema) t [w]) := fun w old unused =>
    used.inherit other (fun token _ => token_kept (old token) (unused token)) fun _ => Tables.drawnTokens_apply
  cases wrote with
  | nothing may => exact used.inherit other (fun _ _ => id) fun _ => id
  | leaveVoiceSessions | leaveAllUserVoiceSessions | cleanupStaleVoiceSessions | touchUserVoiceSessions
  | useInviteToken => cases fine
  | @createInviteToken token c u expiresAt maxUses known unused fresh =>
    have made : t.apply (.inviteToken token ⟨c, u, expiresAt, maxUses, 0⟩) = { t with
        inviteTokens := Function.update t.inviteTokens token (some ⟨c, u, expiresAt, maxUses, 0⟩)
        drawnTokens := token :: t.drawnTokens } := if_pos known
    change Used (e :: trace) (t.apply (.inviteToken token ⟨c, u, expiresAt, maxUses, 0⟩))
    rw [made]
    have rows : ∀ {token' row}, Function.update t.inviteTokens token (some ⟨c, u, expiresAt, maxUses, 0⟩) token' = some row →
        (token' = token ∧ row = ⟨c, u, expiresAt, maxUses, 0⟩) ∨ t.inviteTokens token' = some row := by
      intro token' row found
      rw [Function.update_apply] at found
      split at found
      · exact .inl ⟨‹_›, (Option.some.inj found).symm⟩
      · exact .inr found
    refine ⟨fun {token'} row found => ?_, fun found n limit => ?_, fun undrawn => ?_⟩
    · rw [countP_skip (other _)]
      rcases rows found with ⟨rfl, rfl⟩ | old
      · exact (congrArg Int.ofNat (used.fresh fresh)).symm
      · exact used.counted old
    · rcases rows found with ⟨rfl, rfl⟩ | old
      · exact Int.le_max_right n 0
      · exact used.bounded old n limit
    · rw [countP_skip (other _)]
      exact used.fresh fun there => undrawn (List.mem_cons_of_mem _ there)
  | _ => exact single _ (fun _ _ => nofun) fun _ => nofun

theorem Used.commit {journal : Journal} (used : Used trace t) (kept : manner.Kept journal) (standing : Standing t journal)
    (counts : ∀ token, accepts token e = decide (.useInvite token ∈ journal.writes)) :
    Used (e :: trace) (Store.applyAll (S := schema) t journal.writes) := by
  have locked : ∀ {token}, .useInvite token ∈ journal.writes → ∃ row, row.isExhausted = false ∧
      token ∈ t.drawnTokens ∧ (t.inviteTokens token = some row ∨ t.inviteTokens token = none) := by
    intro token inside
    obtain ⟨⟨row, locks, usable⟩, -⟩ := used_locked kept inside
    obtain ⟨a, rest, rfl⟩ := lock_first kept locks
    exact ⟨row, usable, standing.1 row (List.mem_singleton_self _)⟩
  have ours : ∀ w ∈ journal.writes, Ours w := by
    intro w inside
    obtain ⟨e, there, written⟩ := Journal.mem_writes inside
    exact (kept_entry kept e there).2 w written
  have once : ∀ token, uses token journal.writes = if .useInvite token ∈ journal.writes then 1 else 0 := by
    intro token
    split
    · exact Nat.le_antisymm (used_once kept) (List.count_pos_iff.mpr ‹_›)
    · exact uses_none ‹_›
  have rows : ∀ {token row}, (Store.applyAll (S := schema) t journal.writes).inviteTokens token = some row →
      ∃ before, t.inviteTokens token = some before ∧
        row = { before with useCount := before.useCount + uses token journal.writes } := by
    intro token row found
    rw [token_landed ours] at found
    obtain ⟨before, there, rfl⟩ := Option.map_eq_some_iff.mp found
    exact ⟨before, there, rfl⟩
  refine ⟨fun {token row} found => ?_, fun {token row} found n limit => ?_, fun {token} undrawn => ?_⟩
  · obtain ⟨before, there, rfl⟩ := rows found
    have earlier := used.counted there
    rw [List.countP_cons, counts, once]
    by_cases inside : .useInvite token ∈ journal.writes
    · simp [inside, earlier]
    · simp [inside, earlier]
  · obtain ⟨before, there, rfl⟩ := rows found
    have earlier := used.bounded there n limit
    by_cases inside : .useInvite token ∈ journal.writes
    · obtain ⟨row, usable, -, same | gone⟩ := locked inside
      · obtain rfl := Option.some.inj (there.symm.trans same)
        have limit : before.maxUses = some n := limit
        have room : before.useCount < n := by
          simpa [InviteToken.isExhausted, limit] using usable
        simp only [once, inside, if_true]
        omega
      · rw [gone] at there
        cases there
    · simp only [once, inside, if_false]
      omega
  · have before : token ∉ t.drawnTokens := fun there => undrawn (drawnTokens_applyAll there)
    rw [countP_skip]
    · exact used.fresh before
    · rw [counts]
      refine decide_eq_false fun inside => ?_
      obtain ⟨row, -, drawn, -⟩ := locked inside
      exact before drawn

theorem used_lasts : Lasts (fun _ _ => True) fun trace _ s => Used trace s.tables where
  restart _ used := used
  step {trace stages s r s' stage who} base used changed _ := by
    cases changed with
    | quiet other same =>
      have tables : s'.tables = s.tables := congrArg Store.tables same
      rw [tables]
      refine used.inherit (fun token => ?_) (fun _ _ => id) fun _ => id
      cases r with
      | sql r => exact (other r rfl).elim
      | _ => rfl
    | clock after =>
      have tables : s'.tables = _ := congrArg Store.tables after
      rw [tables]
      exact used.inherit (fun _ => rfl) (fun _ _ => id) fun _ => id
    | deleted free after =>
      have tables : s'.tables = _ := congrArg Store.tables after
      rw [tables]
      exact used.inherit (fun _ => rfl) (fun _ _ found => (Option.filter_eq_some_iff.mp found).1) fun _ => id
    | @sql r _ _ turned =>
      generalize after : s'.store = st' at turned
      have tables : s'.tables = st'.tables := congrArg Store.tables after
      rw [tables]
      have same : (∀ tx, r = .commit tx → s.fault = true) → Used (⟨who, .sql r, s, s'⟩ :: trace) s.tables := fun other =>
        used.inherit (fun _ => accepts_other other) (fun _ _ => id) fun _ => id
      cases turned with
      | same r other => exact same fun tx is => (other tx is).elim
      | opened idle => exact same nofun
      | asked mine fine ran free => exact same nofun
      | alone fine ran free => exact used.alone (fun _ => accepts_other nofun) fine (Query.eval_wrote ran)
      | @committed tx journal mine whole through =>
        have wrote := (base.tracked.writes mine).2
        have landed : (s.store.committed tx).tables = Store.applyAll (S := schema) s.tables journal.writes := by
          rw [← wrote]
          rfl
        rw [landed]
        refine used.commit (base.tracked.kept mine) (base.standing mine) fun token => ?_
        rw [accepts_commit through, wrote]
      | dropped r mine failed => exact same failed

end Uses

section Admitted
variable {journal : Journal} {trace : List (Event machine)} {e : Event machine} {token : String}

/-- Who has locked an invite and asked for somebody's membership has got it. -/
def Letting (journal : Journal) : Prop :=
  ∀ token row g u a writes, .lockInvite token row ∈ journal.writes → ⟨.addMember g u, a, writes⟩ ∈ journal →
    ∃ w ∈ writes, w.isMember = true

theorem Letting.snoc {q : Query} {a : q.Result} {more : List Write} {v : Tables} (letting : Letting journal)
    (fine : Within journal q) (ran : q.eval v = .ok (a, more))
    (outside : ∀ g u token row, q = .addMember g u → .lockInvite token row ∈ journal.writes → v.isMember g u = false) :
    Letting (journal ++ [⟨q, a, more⟩]) := by
  intro token row g u b writes locks inside
  rw [Journal.writes_append, Journal.writes_cons, Journal.writes_nil, List.append_nil] at locks
  rcases List.mem_append.mp locks with before | locks
  · rcases List.mem_append.mp inside with old | new
    · exact letting token row g u b writes before old
    · cases List.mem_singleton.mp new
      have outside := outside g u token row rfl before
      simp only [Query.eval] at ran
      split at ran
      · cases ran
      · split at ran
        · rename_i here
          rw [outside] at here
          cases here
        · cases ran
          exact ⟨_, List.mem_singleton_self _, rfl⟩
  · -- a lock comes first, and with it nobody is asked to be let in
    cases Query.eval_wrote ran with
    | nothing may => cases locks
    | leaveVoiceSessions | leaveAllUserVoiceSessions | cleanupStaleVoiceSessions | touchUserVoiceSessions => cases fine
    | lockInviteToken found =>
      cases fine
      cases List.mem_singleton.mp inside
    | _ => cases List.mem_singleton.mp locks

theorem admits_accepts (admitted : admits token e = true) : accepts token e = true := by
  unfold admits at admitted
  split at admitted
  · exact (Bool.and_eq_true_iff.mp admitted).1
  · cases admitted

theorem memberships_le (token : String) (trace : List (Event machine)) :
    memberships token trace ≤ trace.countP (accepts token) := List.countP_mono_left fun _ _ => admits_accepts

def Fruitful (trace : List (Event machine)) : Prop := ∀ token, memberships token trace = trace.countP (accepts token)

theorem Fruitful.cons (fruitful : Fruitful trace) (same : ∀ token, accepts token e = true → admits token e = true) :
    Fruitful (e :: trace) := by
  intro token
  rw [memberships, List.countP_cons, List.countP_cons, ← memberships, fruitful token]
  have both : admits token e = accepts token e := Bool.eq_iff_iff.mpr ⟨admits_accepts, same token⟩
  rw [both]

theorem fruitful_lasts : Lasts FindsOutside fun trace stages _ =>
    (∀ {i tx journal}, stages i = some (tx, journal) → Letting journal) ∧ Fruitful trace where
  restart _ both := ⟨nofun, both.2⟩
  step {trace stages s r s' stage who} base both changed outside := by
    obtain ⟨letting, fruitful⟩ := both
    have others : ∀ {stage' : Stage schema}, (∀ {tx journal}, stage' = some (tx, journal) → Letting journal) →
        ∀ {i tx journal}, Function.update stages who stage' i = some (tx, journal) → Letting journal := by
      intro stage' mine i tx journal theirs
      rw [Function.update_apply] at theirs
      split at theirs
      · exact mine theirs
      · exact letting theirs
    cases changed with
    | quiet other same =>
      refine ⟨others letting, fruitful.cons fun token used => ?_⟩
      cases r with
      | sql r => exact (other r rfl).elim
      | _ => cases used
    | clock | deleted => exact ⟨others letting, fruitful.cons nofun⟩
    | @sql r _ _ turned =>
      have same : (∀ tx, r = .commit tx → s.fault = true) → Fruitful (⟨who, .sql r, s, s'⟩ :: trace) := fun other =>
        fruitful.cons fun token used => by
          rw [accepts_other other] at used
          cases used
      generalize after : s'.store = st' at turned
      cases turned with
      | same r other => exact ⟨others letting, same fun tx is => (other tx is).elim⟩
      | opened idle =>
        refine ⟨others fun mine => ?_, same nofun⟩
        obtain ⟨-, rfl⟩ := Prod.mk.inj (Option.some.inj mine)
        exact fun _ _ _ _ _ _ _ inside => (List.not_mem_nil inside).elim
      | @asked tx q journal a more mine fine ran free =>
        have wrote := (base.tracked.writes mine).2
        refine ⟨others fun mine' => ?_, same nofun⟩
        obtain ⟨-, rfl⟩ := Prod.mk.inj (Option.some.inj mine')
        refine (letting mine).snoc fine ran fun g u token row adds locks => ?_
        rw [← wrote] at locks ⊢
        exact outside tx g u token row (adds ▸ rfl) locks
      | alone fine ran free => exact ⟨others letting, same nofun⟩
      | @committed tx journal mine whole through =>
        refine ⟨others fun mine => (Option.some_ne_none _ mine.symm).elim, fruitful.cons fun token used => ?_⟩
        have wrote := (base.tracked.writes mine).2
        have inside := used
        rw [accepts_commit through, wrote] at inside
        obtain ⟨⟨row, locks, -⟩, g, u, a, writes, told⟩ := used_locked (base.tracked.kept mine) (of_decide_eq_true inside)
        obtain ⟨w, written, isMember⟩ := letting mine token row g u a writes locks told
        refine Bool.and_eq_true_iff.mpr ⟨used, List.any_eq_true.mpr ⟨w, ?_, isMember⟩⟩
        exact wrote ▸ Journal.writes_mem told written
      | dropped r mine failed => exact ⟨others fun mine => (Option.some_ne_none _ mine.symm).elim, same failed⟩

end Admitted

/-- An invite is used as often as its accepts come through, within what it allows. Every use is a
membership where nobody comes in between by another way. -/
theorem invite_uses {usernames : Uuid → Option String} {run : List (Move machine AppError Unit)}
    (calls : ∀ move ∈ run, MembershipCalls move) :
    let w := (World.start (State.new usernames)).after run
    ∀ token row, w.state.tables.inviteTokens token = some row →
      row.useCount = w.trace.countP (accepts token) ∧ (memberships token w.trace : Int) ≤ row.useCount ∧
      (∀ n, row.maxUses = some n → row.useCount ≤ max n 0 ∧ (memberships token w.trace : Int) ≤ max n 0) ∧
      (Clear FindsOutside w.trace → row.useCount = memberships token w.trace) := by
  intro w token row found
  obtain ⟨-, -, used⟩ := used_lasts.holds (.new usernames) ⟨nofun, nofun, fun _ => rfl⟩ calls (Clear.anything _)
  have counted := used.counted found
  have fewer : (memberships token w.trace : Int) ≤ row.useCount := by
    rw [counted]
    exact Int.ofNat_le.mpr (memberships_le token w.trace)
  refine ⟨counted, fewer, fun n limit => ?_, fun clear => ?_⟩
  · have bounded := used.bounded found n limit
    exact ⟨bounded, fewer.trans bounded⟩
  · obtain ⟨-, -, -, fruitful⟩ := fruitful_lasts.holds (.new usernames) ⟨nofun, fun _ => rfl⟩ calls clear
    rw [counted, fruitful token]

section Examples

def adds : Request → Option (Nat × Uuid × Uuid)
  | .sql (.run (some tx) (.addMember g u)) => some (tx, g, u)
  | _ => none

theorem adds_eq {r : Request} {tx : Nat} {g u : Uuid} :
    (tx, g, u) ∈ adds r ↔ r = .sql (.run (some tx) (.addMember g u)) := by
  constructor
  · intro some'
    unfold adds at some'
    split at some'
    · cases some'
      rfl
    · cases some'
  · rintro rfl
    rfl

def locks : Write → Option (String × InviteToken)
  | .lockInvite token row => some (token, row)
  | _ => none

theorem locks_eq {w : Write} {token : String} {row : InviteToken} :
    (token, row) ∈ locks w ↔ w = .lockInvite token row := by
  cases w <;> simp [locks]

instance (trace : List (Event machine)) (e : Event machine) : Decidable (FindsOutside trace e) :=
  decidable_of_iff (∀ asked ∈ adds e.request, ∀ w ∈ e.before.store.writes asked.1, ∀ _ ∈ locks w,
      (e.before.store.view (some asked.1)).isMember asked.2.1 asked.2.2 = false)
    ⟨fun outside tx g u token row asked inside =>
        outside (tx, g, u) (adds_eq.mpr asked) _ inside (token, row) (locks_eq.mpr rfl),
      fun outside asked some' _ inside lock locked =>
        outside asked.1 asked.2.1 asked.2.2 lock.1 lock.2 (adds_eq.mp some') (locks_eq.mp locked ▸ inside)⟩

def offered : List MembershipCall :=
  [.createGroup ⟨1⟩ 100 101 102 [3] false false, .createInvite ⟨1⟩ 100 "invite" ⟨none, some 2⟩]

theorem invite_uses_single :
    let turns := World.oneByOne 20 (offered ++ [.acceptInvite ⟨2⟩ "invite"])
    ∃ row, (played turns).state.tables.inviteTokens "invite" = some row ∧ row.useCount = 1 ∧
      memberships "invite" (played turns).trace = 1 := by
  have fine : ∀ turns row, Clear FindsOutside (played turns).trace →
      (played turns).state.tables.inviteTokens "invite" = some row →
      row.useCount = memberships "invite" (played turns).trace :=
    fun turns row clear found => (invite_uses (schedule_calls turns) "invite" row found).2.2.2 clear
  intro turns
  have there : ((played turns).state.tables.inviteTokens "invite").any (fun row => row.useCount = 1) = true := by
    decide +kernel
  obtain ⟨row, found, used⟩ := (Option.any_eq_true _ _).mp there
  have used := of_decide_eq_true used
  have counted := fine turns row (by decide +kernel) found
  exact ⟨row, found, used, Int.ofNat_inj.mp (counted.symm.trans used)⟩

/-- Two accepts of one user, both past the check for a membership before either locks the invite. -/
def hasty : List (MembershipCall ⊕ Nat) :=
  World.oneByOne 20 offered ++ [.inl (.acceptInvite ⟨2⟩ "invite"), .inl (.acceptInvite ⟨2⟩ "invite")] ++
    List.replicate 4 (.inr 2) ++ List.replicate 4 (.inr 3) ++ List.replicate 20 (.inr 2) ++ List.replicate 20 (.inr 3)

theorem invite_used_up :
    ∃ run, (∀ move ∈ run, MembershipCalls move) ∧
      let w := (World.start (State.new fun _ => some "user")).after run
      (w.state.tables.inviteTokens "invite").map (fun row => (row.maxUses, row.useCount)) = some (some 2, 2) ∧
        memberships "invite" w.trace = 1 := by
  refine ⟨World.schedule MembershipCall.program hasty, schedule_calls _, ?_, ?_⟩
  · decide +kernel
  · decide +kernel

end Examples

end Membership
end Echo.Groups
