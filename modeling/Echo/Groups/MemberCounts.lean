import Echo.Groups.Mannered

/-! `member_count` beside the members it counts. A journal owes the members it let in or out and has
not counted yet, and commits when it owes none. -/
namespace Echo.Groups
open Echo.Lib
open Echo.Server (Uuid)

def Write.isCounting : Write → Bool
  | member .. | conversation .. | memberCount .. => true
  | _ => false

namespace Tables
variable {t : Tables} {c u : Uuid} {w : Write}

def active (t : Tables) (c : Uuid) : Nat := (t.members c).entries.countP fun e => !e.2.isRemoved

theorem active_eq : (t.getConversationMemberIds c).length = t.active c := by
  rw [active, getConversationMemberIds, List.length_map, List.countP_eq_length_filter]

theorem active_same {t' : Tables} (same : t'.members c = t.members c) : t'.active c = t.active c := by
  rw [active, same, active]

theorem active_conversation {kind : Server.ConversationKind} {shown encrypted : Bool} :
    (t.apply (.conversation c kind shown encrypted)).members = t.members := by
  simp only [apply]
  split <;> rfl

theorem isMember_any : t.isMember c u = ((t.members c).find u).any fun row => !row.isRemoved := by
  rw [isMember, getMemberRole_eq, memberAt]
  cases (t.members c).find u with
  | none => rfl
  | some row => cases gone : row.isRemoved <;> simp [gone]

theorem active_member (row : Member) : (t.apply (.member c u row)).active c + (t.isMember c u).toNat =
    t.active c + (!row.isRemoved).toNat := by
  have here : (t.apply (.member c u row)).members c = (t.members c).insert u row := Function.update_self ..
  rw [active, here, isMember_any]
  exact LinkedMap.countP_insert _ u row fun e => !e.2.isRemoved

theorem conversations_apply : (t.apply w).conversations c = (w.onCell c (t.cell c)).1 := congrArg Prod.fst cell_apply

end Tables

namespace Membership
variable {t v : Tables} {journal : Journal} {e : Entry schema} {w : Write}

def Counted (t : Tables) (journal : Journal) : Prop :=
  ∀ c row, t.conversations c = some row → row.memberCount + owed c journal = t.active c

namespace Counted

theorem aside (counted : Counted t journal) (other : w.isCounting = false) :
    Counted (Store.applyAll (S := schema) t [w]) journal := by
  intro c row alive
  have alive := Tables.conversations_apply.symm.trans alive
  cases w with
  | member | conversation | memberCount => cases other
  | keyVersion c' =>
    simp only [Write.onCell] at alive
    split at alive
    · obtain ⟨row', found, rfl⟩ := Option.map_eq_some_iff.mp alive
      exact counted c row' found
    · exact counted c row alive
  | deleteConversation c' =>
    simp only [Write.onCell] at alive
    split at alive
    · cases alive
    · rename_i apart
      have same : (t.apply (.deleteConversation c')).members c = t.members c := Function.update_of_ne (Ne.symm apart) ..
      exact (counted c row alive).trans (congrArg Nat.cast (Tables.active_same same).symm)
  | groupKey | envelope | rotation | channel | voiceSession | inviteToken | systemMessage =>
    refine (counted c row alive).trans (congrArg Nat.cast (Tables.active_same ?_).symm)
    simp only [Store.applyAll, List.foldl_cons, List.foldl_nil, Tables.apply]
    split <;> rfl
  | _ => exact counted c row alive

/-- A membership that is written and owed alike. -/
theorem member {c u : Uuid} {row : Member} (counted : Counted t journal)
    (paid : (t.conversations c).isSome → owedBy c e = ((!row.isRemoved).toNat : Int) - (t.isMember c u).toNat)
    (others : ∀ c', c ≠ c' → owedBy c' e = 0) : Counted (t.apply (.member c u row)) (journal ++ [e]) := by
  intro c' row' alive
  have was := counted c' row' alive
  rw [owed_append, owed_cons, owed_nil, Int.add_zero]
  by_cases here : c = c'
  · subst here
    have moved := Tables.active_member (t := t) (c := c) (u := u) row
    rw [paid (Option.isSome_of_mem alive)]
    omega
  · have same : (t.apply (.member c u row)).members c' = t.members c' := Function.update_of_ne (Ne.symm here) ..
    rw [others c' here, Tables.active_same same, Int.add_zero]
    exact was

theorem entry (counted : Counted t journal) (sane : Sane t) (valid : Valid t e) (fine : Within journal e.query)
    (wrote : e.query.Wrote v e.writes) : Counted (Store.applyAll (S := schema) t e.writes) (journal ++ [e]) := by
  obtain ⟨q, a, writes⟩ := e
  have quiet (none : ∀ c, owedBy c ⟨q, a, writes⟩ = 0) (same : Counted (Store.applyAll (S := schema) t writes) journal) :
      Counted (Store.applyAll (S := schema) t writes) (journal ++ [⟨q, a, writes⟩]) := by
    intro c row alive
    rw [owed_append, owed_cons, owed_nil, none, Int.add_zero, Int.add_zero]
    exact same c row alive
  cases wrote with
  | nothing may =>
    refine quiet (fun c => ?_) counted
    cases q with
    | insertMember c' u role =>
      exact if_neg fun both => both.2.elim (fun owner => valid.2.1 owner rfl) fun some' => some' rfl
    | addMember | joinPublicGroup | removeMember => exact if_neg fun both => both.2 rfl
    | changeMemberCount => cases may
    | _ => rfl
  | @insertConversation c shown encrypted absent =>
    -- a new conversation counts nobody, and nobody is in it
    have fresh : c ∉ t.drawnIds := valid
    obtain rfl : journal = [] := fine
    refine quiet (fun _ => rfl) fun c' row alive => ?_
    change (t.apply (.conversation c .group shown encrypted)).conversations c' = some row at alive
    rw [Tables.conversations_apply] at alive
    change row.memberCount + 0 = ((t.apply (.conversation c .group shown encrypted)).active c' : Int)
    rw [Tables.active_same (congrFun Tables.active_conversation c')]
    simp only [Write.onCell] at alive
    split at alive
    · rename_i here
      subst here
      rw [if_neg (by simp [Tables.cell, fresh])] at alive
      cases alive
      have empty : (t.members c).entries = [] := by
        refine List.eq_nil_iff_forall_not_mem.mpr fun e inside => ?_
        have found := LinkedMap.find_eq_some.mpr inside
        exact Option.some_ne_none _ (found.symm.trans (sane.members fresh e.1))
      rw [Tables.active, empty]
      rfl
    · exact counted c' row alive
  | @insertMember c u role known absent =>
    refine counted.member (fun alive => ?_) fun c' apart => by simp [owedBy, apart]
    have outside : t.isMember c u = false := by
      rw [Tables.isMember, Tables.getMemberRole_eq, valid.2.2 _ (List.mem_singleton_self _) alive]
      rfl
    simp [owedBy, outside]
  | addMember | joinPublicGroup =>
    refine counted.member (fun alive => ?_) fun c' apart => by simp [owedBy, apart]
    simp [owedBy, (valid _ (List.mem_singleton_self _)).2 alive]
  | removeMember inside =>
    refine counted.member (fun alive => ?_) fun c' apart => by simp [owedBy, apart]
    simp [owedBy, Tables.isMember_iff.mpr ⟨_, (valid _ (List.mem_singleton_self _)).2 alive⟩]
  | setMemberRole role inside =>
    refine counted.member (fun alive => ?_) fun c' apart => rfl
    simp [owedBy, (valid _ (List.mem_singleton_self _)).2 alive]
  | changeMemberCount g change =>
    intro c row alive
    change (t.apply (.memberCount g change)).conversations c = some row at alive
    rw [Tables.conversations_apply] at alive
    -- the call counts exactly what its journal still owes
    have due : owed g journal = change := fine
    rw [owed_append, owed_cons, owed_nil]
    change _ = (t.active c : Int)
    simp only [Write.onCell] at alive
    simp only [owedBy]
    split at alive
    · rename_i here
      subst here
      obtain ⟨row', found, rfl⟩ := Option.map_eq_some_iff.mp alive
      have was := counted g row' found
      rw [if_pos rfl]
      dsimp only
      omega
    · rename_i apart
      rw [if_neg apart, Int.add_zero, Int.add_zero]
      exact counted c row alive
  | memberLock | banMember | lockInviteToken | useInviteToken | bumpKeyVersion | purgeEnvelopes | insertChannel =>
    exact quiet (fun _ => rfl) (counted.aside rfl)
  | _ => cases fine

theorem alone {q : Query} {more : List Write} (counted : Counted t []) (fine : q.isAlone = true)
    (wrote : q.Wrote t more) : Counted (Store.applyAll (S := schema) t more) [] := by
  cases wrote with
  | nothing may => exact counted
  | leaveVoiceSessions | leaveAllUserVoiceSessions | cleanupStaleVoiceSessions | touchUserVoiceSessions
  | insertMember | addMember | joinPublicGroup | removeMember | setMemberRole | insertConversation
  | changeMemberCount => cases fine
  | _ => exact counted.aside rfl

theorem landed (counted : Counted t []) (sane : Sane t) (kept : manner.Kept journal) (standing : Standing t journal) :
    Counted (Store.applyAll (S := schema) t journal.writes) journal := by
  induction kept with
  | nil => exact counted
  | snoc kept fine ran ih =>
    obtain ⟨before, last⟩ := standing.last
    have view := Standing.sane before (fun e inside => (kept_entry kept e inside).1) sane
    rw [Journal.writes_append, Store.applyAll_append]
    simpa using (ih before).entry view last fine (Query.eval_wrote ran)

end Counted

def deletes : Request → Option Uuid
  | .deleteUser u _ => some u
  | _ => none

def SparesMembers (_ : List (Event machine)) (e : Event machine) : Prop :=
  ∀ u ∈ deletes e.request, ∀ c ∈ e.before.tables.drawnIds, (e.before.tables.conversations c).isSome →
    e.before.tables.isMember c u = false

instance (trace : List (Event machine)) (e : Event machine) : Decidable (SparesMembers trace e) :=
  inferInstanceAs (Decidable (∀ u ∈ deletes e.request, ∀ c ∈ e.before.tables.drawnIds,
    (e.before.tables.conversations c).isSome → e.before.tables.isMember c u = false))

theorem counted_lasts : Lasts SparesMembers fun _ _ s => Counted s.tables [] where
  restart _ counted := counted
  step {trace stages s r s' stage who} base counted changed spares := by
    cases changed with
    | quiet other same =>
      have tables : s'.tables = s.tables := congrArg Store.tables same
      rwa [tables]
    | clock after =>
      have tables : s'.tables = _ := congrArg Store.tables after
      rw [tables]
      exact counted
    | @deleted u hasBanned s' free after =>
      have tables : s'.tables = _ := congrArg Store.tables after
      rw [tables]
      intro c row alive
      have drawn : c ∈ s.tables.drawnIds := by
        refine Classical.byContradiction fun undrawn => ?_
        exact Option.some_ne_none _ (alive.symm.trans (base.sane.conversations undrawn))
      -- the rows go with the account, and no statement counts them
      have outside := spares u rfl c drawn (Option.isSome_of_mem alive)
      rw [Tables.isMember_any] at outside
      have stays := (s.tables.members c).countP_erase u fun e => !e.2.isRemoved
      rw [outside] at stays
      refine (counted c row alive).trans ?_
      rw [Tables.active, ← stays]
      rfl
    | sql turned =>
      generalize after : s'.store = st' at turned
      have tables : s'.tables = st'.tables := congrArg Store.tables after
      rw [tables]
      cases turned with
      | same | opened | asked | dropped => exact counted
      | alone fine ran free => exact counted.alone fine (Query.eval_wrote ran)
      | @committed tx journal mine whole through =>
        intro c row alive
        have settled := counted.landed base.sane (base.tracked.kept mine) (base.standing mine) c row
        rw [whole.1 c, ← (base.tracked.writes mine).2] at settled
        exact settled alive

end Membership
end Echo.Groups
