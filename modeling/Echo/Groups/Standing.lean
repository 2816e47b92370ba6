import Echo.Groups.Memberships

/-! What a transaction was told of the rows it writes stays true until it ends: the others leave
these rows alone, or the whole conversation is deleted. -/
namespace Echo.Groups.Membership
open Echo.Lib
open Echo.Server (Uuid)

structure Sane (t : Tables) : Prop where
  conversations : ∀ {c}, c ∉ t.drawnIds → t.conversations c = none
  members : ∀ {c}, c ∉ t.drawnIds → ∀ u, t.memberAt c u = none
  tokens : ∀ {token}, token ∉ t.drawnTokens → t.inviteTokens token = none

/-- What an entry knew of the rows it writes, as far as their conversation still exists. -/
def Valid (v : Tables) (e : Entry schema) : Prop :=
  match e.query with
  | .insertConversation c _ _ => c ∉ v.drawnIds
  | .insertMember c u role => c ∈ v.drawnIds ∧ (role = .owner → e.writes ≠ []) ∧
      ∀ row, .member c u row ∈ e.writes → (v.conversations c).isSome → v.memberAt c u = none
  | .addMember c u | .joinPublicGroup c u => ∀ row, .member c u row ∈ e.writes →
      c ∈ v.drawnIds ∧ ((v.conversations c).isSome → v.isMember c u = false)
  | .removeMember c u => ∀ row, .member c u row ∈ e.writes →
      c ∈ v.drawnIds ∧ ((v.conversations c).isSome → v.memberAt c u = some ⟨row.role, false⟩)
  | .setMemberRole c u _ => ∀ row, .member c u row ∈ e.writes →
      c ∈ v.drawnIds ∧ ((v.conversations c).isSome → v.isMember c u = true)
  | .lockInviteToken token => ∀ row, .lockInvite token row ∈ e.writes →
      token ∈ v.drawnTokens ∧ (v.inviteTokens token = some row ∨ v.inviteTokens token = none)
  | _ => True

def Standing (t : Tables) (journal : Journal) : Prop := journal.Stands Valid t

namespace Sane
variable {t : Tables}

theorem apply {w : Write} (sane : Sane t) (known : ∀ c u row, w = .member c u row → c ∈ t.drawnIds) :
    Sane (t.apply w) := by
  have drawn : ∀ {c}, c ∉ (t.apply w).drawnIds → c ∉ t.drawnIds :=
    fun undrawn there => undrawn ((Tables.since_apply w).drawn there)
  refine ⟨fun {c} undrawn => ?_, fun {c} undrawn u => ?_, fun {token} undrawn => ?_⟩
  · have before : t.cell c = (none, false) := Prod.ext (sane.conversations (drawn undrawn)) (decide_eq_false (drawn undrawn))
    have both := Tables.cell_apply (t := t) (w := w) (c := c)
    rw [before] at both
    obtain ⟨row, gone⟩ := Prod.mk.inj both
    rw [row]
    have gone : (w.onCell c (none, false)).2 = false := gone ▸ decide_eq_false undrawn
    cases w with
    | conversation c' =>
      simp only [Write.onCell] at gone ⊢
      split
      · rename_i here
        rw [if_pos here] at gone
        cases gone
      · rfl
    | memberCount | keyVersion | deleteConversation =>
      dsimp only
      split <;> rfl
    | _ => rfl
  · rw [Tables.memberAt_apply, sane.members (drawn undrawn)]
    cases w with
    | member c' u' row =>
      simp only [Write.onMember]
      refine if_neg ?_
      rintro ⟨rfl, -⟩
      exact drawn undrawn (known _ _ _ rfl)
    | deleteConversation =>
      simp only [Write.onMember]
      split <;> rfl
    | _ => rfl
  · have before : t.inviteTokens token = none := sane.tokens fun there => undrawn (Tables.drawnTokens_apply there)
    by_cases new : ∃ row, w = .inviteToken token row
    · obtain ⟨row, rfl⟩ := new
      simp only [Tables.apply] at undrawn ⊢
      split
      · rename_i known
        rw [if_pos known] at undrawn
        exact (undrawn List.mem_cons_self).elim
      · exact before
    · rw [Tables.inviteTokens_apply (not_exists.mp new), before]
      cases w with
      | useInvite | deleteInvite =>
        simp only [Write.onToken]
        split <;> rfl
      | _ => rfl

theorem applyAll {writes : List Write} (sane : Sane t)
    (known : ∀ c u row, .member c u row ∈ writes → c ∈ t.drawnIds) : Sane (Store.applyAll (S := schema) t writes) := by
  induction writes generalizing t with
  | nil => exact sane
  | cons w writes ih =>
    refine ih (t := t.apply w) (sane.apply fun c u row same => known c u row (same ▸ List.mem_cons_self)) ?_
    exact fun c u row inside => (Tables.since_apply w).drawn (known c u row (List.mem_cons_of_mem _ inside))

end Sane

theorem Valid.drawn {v : Tables} {e : Entry schema} (valid : Valid v e) {t : Tables} (wrote : e.query.Wrote t e.writes)
    {c u : Uuid} {row : Member} (inside : .member c u row ∈ e.writes) : c ∈ v.drawnIds := by
  obtain ⟨q, a, writes⟩ := e
  simp only at wrote inside
  have voiced : ∀ {sessions : List VoiceSession}, .member c u row ∉ (Query.ended t sessions).2 := by
    intro sessions there
    obtain ⟨v, -, same⟩ := List.mem_map.mp there
    cases same
  cases wrote with
  | nothing may => cases inside
  | leaveVoiceSessions | leaveAllUserVoiceSessions | cleanupStaleVoiceSessions => exact (voiced inside).elim
  | touchUserVoiceSessions =>
    obtain ⟨v, -, same⟩ := List.mem_map.mp inside
    cases same
  | insertMember role known absent =>
    cases List.mem_singleton.mp inside
    exact valid.1
  | addMember | joinPublicGroup | removeMember | setMemberRole =>
    cases List.mem_singleton.mp inside
    exact (valid _ inside).1
  | _ => cases List.mem_singleton.mp inside

theorem Standing.sane {t : Tables} {journal : Journal} (standing : Standing t journal)
    (wrote : ∀ e ∈ journal, ∃ t, e.query.Wrote t e.writes) (sane : Sane t) :
    Sane (Store.applyAll (S := schema) t journal.writes) := by
  induction journal generalizing t with
  | nil => exact sane
  | cons e journal ih =>
    rw [Journal.writes_cons, Store.applyAll_append]
    obtain ⟨t', mine⟩ := wrote e List.mem_cons_self
    refine ih standing.2 (fun e inside => wrote e (List.mem_cons_of_mem _ inside)) (sane.applyAll ?_)
    exact fun c u row inside => standing.1.drawn mine inside

/-- Tables that agree in all rows of these keys, but for conversations deleted in between. -/
structure Kin (keys : Key → Prop) (t t' : Tables) : Prop where
  since : ∀ c, t.Since t' c
  cell : ∀ {c}, keys (.conversation c) → t'.cell c = t.cell c
  member : ∀ {c u}, keys (.member c u) → t'.memberAt c u = t.memberAt c u ∨
    t'.conversations c = none ∧ c ∈ t'.drawnIds ∧ ¬ keys (.conversation c)
  drawnTokens : ∀ token ∈ t.drawnTokens, token ∈ t'.drawnTokens
  token : ∀ {token}, keys (.inviteToken token) → t'.inviteTokens token = t.inviteTokens token ∨
    t'.inviteTokens token = none

/-- Writes of a journal neither delete a conversation nor make or revoke a token. -/
def Ours (w : Write) : Prop :=
  (∀ c, w ≠ .deleteConversation c) ∧ (∀ token row, w ≠ .inviteToken token row) ∧ ∀ token, w ≠ .deleteInvite token

theorem within_ours {journal : Journal} {q : Query} {t : Tables} {more : List Write} (fine : Within journal q)
    (wrote : q.Wrote t more) : ∀ w ∈ more, Ours w := by
  intro w inside
  cases wrote with
  | nothing may => cases inside
  | leaveVoiceSessions | leaveAllUserVoiceSessions | cleanupStaleVoiceSessions | touchUserVoiceSessions
  | deleteGroup | forceDeleteConversation | createInviteToken | deleteInviteToken => cases fine
  | _ =>
    rw [List.mem_singleton.mp inside]
    exact ⟨nofun, nofun, nofun⟩

namespace Kin
variable {keys : Key → Prop} {t t' : Tables} {w : Write} {e : Entry schema}

theorem alive_apply {c : Uuid} (ours : Ours w) (alive : (t.conversations c).isSome) :
    ((t.apply w).conversations c).isSome := by
  have both := congrArg Prod.fst (Tables.cell_apply (t := t) (w := w) (c := c))
  change (t.apply w).conversations c = _ at both
  rw [both]
  cases w with
  | conversation c' =>
    simp only [Write.onCell]
    split
    · split
      · exact alive
      · rfl
    · exact alive
  | memberCount | keyVersion =>
    simp only [Write.onCell]
    split
    · rw [Option.isSome_map]
      exact alive
    · exact alive
  | deleteConversation c' => exact (ours.1 c' rfl).elim
  | _ => exact alive

theorem new_apply {c : Uuid} (undrawn : c ∉ t.drawnIds) (drawn : c ∈ (t.apply w).drawnIds) (t' : Tables) :
    ((t.apply w).conversations c).isSome ∧ c ∈ (t'.apply w).drawnIds := by
  have before : (t.cell c).2 = false := decide_eq_false undrawn
  have both := Prod.mk.inj (Tables.cell_apply (t := t) (w := w) (c := c))
  have both' := Prod.mk.inj (Tables.cell_apply (t := t') (w := w) (c := c))
  have now : (w.onCell c (t.cell c)).2 = true := both.2 ▸ decide_eq_true drawn
  suffices new : ((w.onCell c (t.cell c)).1).isSome ∧ (w.onCell c (t'.cell c)).2 = true from
    ⟨both.1 ▸ new.1, of_decide_eq_true (both'.2.trans new.2)⟩
  cases w with
  | conversation c' =>
    simp only [Write.onCell] at now ⊢
    split
    · rename_i here
      rw [if_neg (by rw [before]; exact Bool.false_ne_true)]
      refine ⟨rfl, ?_⟩
      split <;> trivial
    · rename_i other
      rw [if_neg other, before] at now
      cases now
  | memberCount | keyVersion | deleteConversation =>
    simp only [Write.onCell] at now
    split at now <;> exact (Bool.false_ne_true (before.symm.trans now)).elim
  | _ => exact (Bool.false_ne_true (before.symm.trans now)).elim

theorem apply (kin : Kin keys t t') (ours : Ours w) : Kin keys (t.apply w) (t'.apply w) where
  since c := by
    by_cases drawn : c ∈ t.drawnIds
    · refine ⟨fun _ => (Tables.since_apply w).drawn ((kin.since c).drawn drawn), fun _ alive => ?_⟩
      have before := (Tables.since_apply w).alive ((kin.since c).drawn drawn) alive
      exact alive_apply ours ((kin.since c).alive drawn before)
    · exact ⟨fun new => (new_apply drawn new t').2, fun new _ => (new_apply drawn new t').1⟩
  cell mine := by rw [Tables.cell_apply, Tables.cell_apply, kin.cell mine]
  member mine := by
    rcases kin.member mine with same | ⟨gone, drawn, free⟩
    · exact .inl (by rw [Tables.memberAt_apply, Tables.memberAt_apply, same])
    · refine .inr ⟨?_, (Tables.since_apply w).drawn drawn, free⟩
      refine Option.not_isSome_iff_eq_none.mp fun alive => ?_
      have before := (Tables.since_apply w).alive drawn alive
      rw [gone] at before
      cases before
  drawnTokens token drawn := by
    cases w with
    | inviteToken token' row => exact (ours.2.1 token' row rfl).elim
    | conversation | groupKey | envelope | rotation | channel | voiceSession | systemMessage =>
      simp only [Tables.apply] at drawn ⊢; split at drawn <;> split <;> exact kin.drawnTokens token drawn
    | _ => exact kin.drawnTokens token drawn
  token mine := by
    rw [Tables.inviteTokens_apply (ours.2.1 _), Tables.inviteTokens_apply (ours.2.1 _)]
    rcases kin.token mine with same | gone
    · exact .inl (by rw [same])
    · right
      rw [gone]
      cases w with
      | useInvite | deleteInvite =>
        simp only [Write.onToken]
        split <;> rfl
      | _ => rfl

theorem applyAll {writes : List Write} (kin : Kin keys t t') (ours : ∀ w ∈ writes, Ours w) :
    Kin keys (Store.applyAll (S := schema) t writes) (Store.applyAll (S := schema) t' writes) := by
  induction writes generalizing t t' with
  | nil => exact kin
  | cons w writes ih =>
    exact ih (kin.apply (ours w List.mem_cons_self)) fun w inside => ours w (List.mem_cons_of_mem _ inside)

theorem memberAt (kin : Kin keys t t') {c u : Uuid} (mine : keys (.member c u)) (alive : (t'.conversations c).isSome) :
    t'.memberAt c u = t.memberAt c u := by
  rcases kin.member mine with same | ⟨gone, -, -⟩
  · exact same
  · rw [gone] at alive
    cases alive

theorem isMember (kin : Kin keys t t') {c u : Uuid} (mine : keys (.member c u)) (alive : (t'.conversations c).isSome) :
    t'.isMember c u = t.isMember c u := by
  unfold Tables.isMember
  rw [Tables.getMemberRole_eq, Tables.getMemberRole_eq, kin.memberAt mine alive]

theorem valid (kin : Kin keys t t') {v : Tables} (wrote : e.query.Wrote v e.writes)
    (mine : ∀ w ∈ e.writes, ∀ k ∈ w.keys, keys k) (valid : Valid t e) : Valid t' e := by
  obtain ⟨q, a, writes⟩ := e
  simp only at wrote mine
  have held : ∀ {c u row}, .member c u row ∈ writes → keys (.member c u) :=
    fun inside => mine _ inside _ (List.mem_singleton_self _)
  cases q with
  | insertConversation c shown encrypted =>
    cases wrote with
    | nothing may => cases may
    | insertConversation shown encrypted absent =>
      have same := kin.cell (mine _ List.mem_cons_self (.conversation c) (List.mem_singleton_self _))
      have drawn := (Prod.mk.inj same).2
      have before : c ∉ t.drawnIds := valid
      exact of_decide_eq_false (drawn.trans (decide_eq_false before))
  | insertMember c u role =>
    obtain ⟨drawn, owner, free⟩ := valid
    refine ⟨(kin.since c).drawn drawn, owner, fun row inside alive => ?_⟩
    rw [kin.memberAt (held inside) alive]
    exact free row inside ((kin.since c).alive drawn alive)
  | addMember c u =>
    intro row inside
    obtain ⟨drawn, outside⟩ := valid row inside
    refine ⟨(kin.since c).drawn drawn, fun alive => ?_⟩
    rw [kin.isMember (held inside) alive]
    exact outside ((kin.since c).alive drawn alive)
  | joinPublicGroup c u =>
    intro row inside
    obtain ⟨drawn, outside⟩ := valid row inside
    refine ⟨(kin.since c).drawn drawn, fun alive => ?_⟩
    rw [kin.isMember (held inside) alive]
    exact outside ((kin.since c).alive drawn alive)
  | removeMember c u =>
    intro row inside
    obtain ⟨drawn, there⟩ := valid row inside
    refine ⟨(kin.since c).drawn drawn, fun alive => ?_⟩
    rw [kin.memberAt (held inside) alive]
    exact there ((kin.since c).alive drawn alive)
  | setMemberRole c u role =>
    intro row inside
    obtain ⟨drawn, there⟩ := valid row inside
    refine ⟨(kin.since c).drawn drawn, fun alive => ?_⟩
    rw [kin.isMember (held inside) alive]
    exact there ((kin.since c).alive drawn alive)
  | lockInviteToken token =>
    intro row inside
    obtain ⟨drawn, found⟩ := valid row inside
    refine ⟨kin.drawnTokens token drawn, ?_⟩
    rcases kin.token (mine _ inside (.inviteToken token) (List.mem_singleton_self _)) with same | gone
    · rwa [same]
    · exact .inr gone
  | _ => trivial

theorem standing {journal : Journal} (kin : Kin keys t t')
    (wrote : ∀ e ∈ journal, (∃ v, e.query.Wrote v e.writes) ∧ ∀ w ∈ e.writes, Ours w)
    (mine : ∀ w ∈ journal.writes, ∀ k ∈ w.keys, keys k) (standing : Standing t journal) : Standing t' journal := by
  induction journal generalizing t t' with
  | nil => exact trivial
  | cons e journal ih =>
    rw [Journal.writes_cons] at mine
    obtain ⟨⟨v, here⟩, ours⟩ := wrote e List.mem_cons_self
    refine ⟨kin.valid here (fun w inside => mine w (List.mem_append_left _ inside)) standing.1, ?_⟩
    refine ih (kin.applyAll ours) (fun e inside => wrote e (List.mem_cons_of_mem _ inside)) ?_ standing.2
    exact fun w inside => mine w (List.mem_append_right _ inside)

theorem refl (keys : Key → Prop) (t : Tables) : Kin keys t t where
  since c := .refl t c
  cell _ := rfl
  member _ := .inl rfl
  drawnTokens _ drawn := drawn
  token _ := .inl rfl

theorem trans {t'' : Tables} (first : Kin keys t t') (second : Kin keys t' t'') : Kin keys t t'' where
  since c := (first.since c).trans (second.since c)
  cell mine := (second.cell mine).trans (first.cell mine)
  member mine := by
    rcases second.member mine with same | gone
    · rcases first.member mine with same' | ⟨gone, drawn, free⟩
      · exact .inl (same.trans same')
      · refine .inr ⟨Option.not_isSome_iff_eq_none.mp fun alive => ?_, (second.since _).drawn drawn, free⟩
        have before := (second.since _).alive drawn alive
        rw [gone] at before
        cases before
    · exact .inr gone
  drawnTokens token drawn := second.drawnTokens token (first.drawnTokens token drawn)
  token mine := by
    rcases second.token mine with same | gone
    · rcases first.token mine with same' | gone
      · exact .inl (same.trans same')
      · exact .inr (same.trans gone)
    · exact .inr gone

theorem of_write (free : ∀ k ∈ w.keys, ¬ keys k)
    (held : ∀ {c u}, keys (.member c u) → c ∈ t.drawnIds ∨ keys (.conversation c)) : Kin keys t (t.apply w) where
  since c := Tables.since_apply w
  cell {c} mine := by
    change (Store.applyAll (S := schema) t [w]).cell c = t.cell c
    refine Tables.cell_apart fun w' inside => ?_
    rw [List.mem_singleton.mp inside]
    exact fun there => free _ there mine
  member {c u} mine := by
    by_cases deleted : w = .deleteConversation c
    · subst deleted
      have other : ¬ keys (.conversation c) := free _ (List.mem_singleton_self _)
      exact .inr ⟨by simp [Tables.apply], (held mine).resolve_right other, other⟩
    · left
      change (Store.applyAll (S := schema) t [w]).memberAt c u = t.memberAt c u
      refine Tables.memberAt_apart fun w' inside => ?_
      rw [List.mem_singleton.mp inside]
      exact ⟨fun there => free _ there mine, deleted⟩
  drawnTokens token drawn := Tables.drawnTokens_apply drawn
  token {token} mine := by
    have other : ∀ row, w ≠ .inviteToken token row := by
      rintro row rfl
      exact free _ (List.mem_singleton_self _) mine
    rw [Tables.inviteTokens_apply other]
    cases w with
    | useInvite | deleteInvite =>
      refine .inl (if_neg ?_)
      rintro rfl
      exact free _ (List.mem_singleton_self _) mine
    | deleteConversation c =>
      simp only [Write.onToken]
      cases t.inviteTokens token with
      | none => exact .inl rfl
      | some row =>
        rw [Option.filter_some]
        split
        · exact .inl rfl
        · exact .inr rfl
    | _ => exact .inl rfl

theorem of_apart {more : List Write} (free : ∀ w ∈ more, ∀ k ∈ w.keys, ¬ keys k)
    (held : ∀ {c u}, keys (.member c u) → c ∈ t.drawnIds ∨ keys (.conversation c)) :
    Kin keys t (Store.applyAll (S := schema) t more) := by
  induction more generalizing t with
  | nil => exact .refl keys t
  | cons w more ih =>
    refine (of_write (free w List.mem_cons_self) held).trans
      (ih (fun w inside => free w (List.mem_cons_of_mem _ inside)) fun mine => ?_)
    exact (held mine).imp_left (Tables.since_apply w).drawn

theorem of_dropUser {u : Uuid} (free : ∀ c, ¬ keys (.member c u)) : Kin keys t (t.dropUser u) where
  since c := ⟨id, fun _ => id⟩
  cell _ := rfl
  member {c u'} mine := by
    have other : u' ≠ u := by
      rintro rfl
      exact free c mine
    exact .inl (LinkedMap.find_erase other)
  drawnTokens _ drawn := drawn
  token {token} _ := by
    change (t.inviteTokens token).filter _ = _ ∨ (t.inviteTokens token).filter _ = _
    cases t.inviteTokens token with
    | none => exact .inl rfl
    | some row =>
      rw [Option.filter_some]
      split
      · exact .inl rfl
      · exact .inr rfl

theorem of_now (now : Nat) : Kin keys t { t with now } := ⟨fun _ => ⟨id, fun _ => id⟩, fun _ => rfl, fun _ => .inl rfl,
  fun _ drawn => drawn, fun _ => .inl rfl⟩

end Kin

section Base
variable {stages : Nat → Stage schema} {s s' : State} {who : Nat} {r : Request} {stage : Stage schema}
  {journal other : Journal} {t : Tables}

theorem kept_entry (kept : manner.Kept journal) :
    ∀ e ∈ journal, (∃ v, e.query.Wrote v e.writes) ∧ ∀ w ∈ e.writes, Ours w := by
  intro e inside
  obtain ⟨⟨before, fine⟩, v, ran⟩ := kept.entry inside
  exact ⟨⟨v, Query.eval_wrote ran⟩, within_ours fine (Query.eval_wrote ran)⟩

theorem Standing.held (standing : Standing t journal) (wrote : ∀ e ∈ journal, ∃ v, e.query.Wrote v e.writes)
    {c u : Uuid} {row : Member} (inside : .member c u row ∈ journal.writes) :
    c ∈ t.drawnIds ∨ ∃ w ∈ journal.writes, Key.conversation c ∈ w.keys := by
  induction journal generalizing t with
  | nil => cases inside
  | cons e journal ih =>
    rw [Journal.writes_cons] at inside ⊢
    obtain ⟨v, here⟩ := wrote e List.mem_cons_self
    rcases List.mem_append.mp inside with now | later
    · exact .inl (standing.1.drawn here now)
    · rcases ih standing.2 (fun e inside => wrote e (List.mem_cons_of_mem _ inside)) later with drawn | ⟨w, there, key⟩
      · by_cases made : ∃ w ∈ e.writes, Key.conversation c ∈ w.keys
        · obtain ⟨w, there, key⟩ := made
          exact .inr ⟨w, List.mem_append_left _ there, key⟩
        · left
          have same := Tables.cell_apart (t := t) (c := c) fun w there key => made ⟨w, there, key⟩
          exact of_decide_eq_true ((Prod.mk.inj same).2.symm.trans (decide_eq_true drawn))
      · exact .inr ⟨w, List.mem_append_right _ there, key⟩

def Holds (journal : Journal) (k : Key) : Prop := ∃ w ∈ journal.writes, k ∈ w.keys

theorem Standing.kin (standing : Standing t journal) (kept : manner.Kept journal) {more : List Write}
    (apart : Store.Apart (S := schema) journal.writes more) : Kin (Holds journal) t (Store.applyAll (S := schema) t more) := by
  refine .of_apart (fun w inside k key mine => ?_) fun {c u} mine => ?_
  · obtain ⟨w', written, key'⟩ := mine
    exact apart w' written k key' w inside key
  · obtain ⟨w, written, key⟩ := mine
    cases w with
    | member c' u' row =>
      cases List.mem_singleton.mp key
      exact standing.held (fun e inside => (kept_entry kept e inside).1) written
    | purge c' rows =>
      obtain ⟨p, -, same⟩ := List.mem_map.mp key
      cases same
    | systemMessage row => cases key
    | _ => cases List.mem_singleton.mp key

theorem Standing.lasts (standing : Standing t journal) (kept : manner.Kept journal) {t' : Tables}
    (kin : Kin (Holds journal) t t') : Standing t' journal :=
  kin.standing (kept_entry kept) (fun w inside _ key => ⟨w, inside, key⟩) standing

theorem alone_member {q : Query} {more : List Write} (fine : q.isAlone = true) (wrote : q.Wrote t more) {c u : Uuid}
    {row : Member} : .member c u row ∉ more := by
  intro inside
  cases wrote with
  | nothing may => cases inside
  | leaveVoiceSessions | leaveAllUserVoiceSessions | cleanupStaleVoiceSessions | touchUserVoiceSessions
  | insertMember | addMember | joinPublicGroup | removeMember | setMemberRole => cases fine
  | _ => cases List.mem_singleton.mp inside

structure Base (stages : Nat → Stage schema) (s : State) : Prop where
  tracked : s.store.Tracked manner stages
  sane : Sane s.tables
  standing : ∀ {i tx journal}, stages i = some (tx, journal) → Standing s.tables journal

theorem asked_valid {q : Query} {a : q.Result} {more : List Write} {v : Tables} (sane : Sane v)
    (fine : Within journal q) (founded : ∀ {c}, Founding c journal → c ∈ v.drawnIds ∧ ∀ u, journal.length = 1 → v.memberAt c u = none)
    (ran : q.eval v = .ok (a, more)) : Valid v ⟨q, a, more⟩ := by
  have drawn : ∀ {c u row}, v.memberAt c u = some row → c ∈ v.drawnIds := by
    intro c u row found
    refine Classical.byContradiction fun undrawn => ?_
    rw [sane.members undrawn u] at found
    cases found
  have known : ∀ {c}, (v.conversations c).isSome → c ∈ v.drawnIds := by
    intro c alive
    refine Classical.byContradiction fun undrawn => ?_
    rw [sane.conversations undrawn] at alive
    cases alive
  have wrote := Query.eval_wrote ran
  cases q with
  | insertConversation c shown encrypted =>
    cases wrote with
    | nothing may => cases may
    | insertConversation shown encrypted absent => exact absent
  | insertMember c u role =>
    obtain ⟨founding, first, -⟩ := fine
    refine ⟨(founded founding).1, fun owner => ?_, fun row inside _ => ?_⟩
    · have fresh := (founded founding).2 u (first owner)
      simp only [Query.eval] at ran
      split at ran
      · cases ran
      · split at ran
        · rename_i found
          change (v.memberAt c u).isSome = true at found
          rw [fresh] at found
          cases found
        · cases ran
          exact List.cons_ne_nil _ _
    · cases wrote with
      | nothing may => cases inside
      | insertMember role known absent => exact absent
  | addMember c u =>
    intro row inside
    cases wrote with
    | nothing may => cases inside
    | addMember alive outside => exact ⟨known alive, fun _ => outside⟩
  | joinPublicGroup c u =>
    intro row inside
    cases wrote with
    | nothing may => cases inside
    | joinPublicGroup alive outside => exact ⟨known alive, fun _ => outside⟩
  | removeMember c u =>
    intro row inside
    cases wrote with
    | nothing may => cases inside
    | removeMember there =>
      cases List.mem_singleton.mp inside
      have found := Tables.getMemberRole_iff.mp there
      exact ⟨drawn found, fun _ => found⟩
  | setMemberRole c u role =>
    intro row inside
    cases wrote with
    | nothing may => cases inside
    | setMemberRole role there =>
      obtain ⟨before, found⟩ := Tables.isMember_iff.mp there
      exact ⟨drawn found, fun _ => there⟩
  | lockInviteToken token =>
    intro row inside
    cases wrote with
    | nothing may => cases may
    | lockInviteToken found =>
      cases List.mem_singleton.mp inside
      refine ⟨Classical.byContradiction fun undrawn => ?_, .inl found⟩
      rw [sane.tokens undrawn] at found
      cases found
  | _ => trivial

theorem Standing.founded (standing : Standing t journal) (kept : manner.Kept journal) (sane : Sane t) {c : Uuid}
    (founding : Founding c journal) :
    c ∈ (Store.applyAll (S := schema) t journal.writes).drawnIds ∧
      ∀ u, journal.length = 1 → (Store.applyAll (S := schema) t journal.writes).memberAt c u = none := by
  obtain ⟨shown, encrypted, a, writes, rest, rfl⟩ := founding
  obtain ⟨⟨v, wrote⟩, -⟩ := kept_entry kept _ List.mem_cons_self
  have fresh : c ∉ t.drawnIds := standing.1
  simp only at wrote
  cases wrote with
  | nothing may => cases may
  | insertConversation shown encrypted absent =>
    have made : c ∈ (t.apply (.conversation c .group shown encrypted)).drawnIds := by
      simp [Tables.apply, fresh]
    refine ⟨?_, fun u alone => ?_⟩
    · rw [Journal.writes_cons, Store.applyAll_append]
      exact (Tables.since_applyAll _).drawn made
    · obtain rfl : rest = [] := List.length_eq_zero_iff.mp (by simpa using alone)
      change (t.apply (.conversation c .group shown encrypted)).memberAt c u = none
      rw [Tables.memberAt_apply]
      exact sane.members fresh u

theorem Base.step (base : Base stages s) (changed : Change s (stages who) r s' stage) :
    Base (Function.update stages who stage) s' := by
  have others : ∀ {i tx journal}, Function.update stages who none i = some (tx, journal) →
      i ≠ who ∧ stages i = some (tx, journal) := by
    intro i tx journal theirs
    simp only [Function.update_apply] at theirs
    split at theirs
    · cases theirs
    · exact ⟨‹_›, theirs⟩
  cases changed with
  | quiet other same =>
    rw [Function.update_eq_self]
    have tables : s'.tables = s.tables := congrArg Store.tables same
    exact ⟨same ▸ base.tracked, tables ▸ base.sane, fun mine => tables ▸ base.standing mine⟩
  | clock after =>
    rw [Function.update_eq_self]
    have tables : s'.tables = _ := congrArg Store.tables after
    refine ⟨after ▸ base.tracked.tables _, tables ▸ ⟨base.sane.1, base.sane.2, base.sane.3⟩, fun mine => tables ▸ ?_⟩
    exact (base.standing mine).lasts (base.tracked.kept mine) (.of_now _)
  | @deleted u hasBanned s' free after =>
    rw [Function.update_eq_self]
    have tables : s'.tables = _ := congrArg Store.tables after
    refine ⟨after ▸ base.tracked.tables _, tables ▸ ⟨base.sane.1, fun undrawn u' => ?_, fun undrawn => ?_⟩,
      fun {i tx journal} mine => tables ▸ ?_⟩
    · by_cases him : u' = u
      · subst him
        exact LinkedMap.find_erase_self ..
      · exact (LinkedMap.find_erase him).trans (base.sane.members undrawn u')
    · change (s.tables.inviteTokens _).filter _ = none
      rw [base.sane.tokens undrawn]
      rfl
    · refine (base.standing mine).lasts (base.tracked.kept mine) (.of_dropUser fun c taken => ?_)
      obtain ⟨w, inside, key⟩ := taken
      obtain ⟨begun, same⟩ := base.tracked.writes mine
      have refers : w.refersTo u = true := by
        cases w with
        | member c' u' row =>
          cases List.mem_singleton.mp key
          exact decide_eq_true rfl
        | purge c' rows =>
          obtain ⟨p, -, same⟩ := List.mem_map.mp key
          cases same
        | systemMessage row => cases key
        | _ => cases List.mem_singleton.mp key
      refine Bool.false_ne_true (free.symm.trans ?_)
      refine List.any_eq_true.mpr ⟨tx, List.mem_range.mpr begun, List.any_eq_true.mpr ⟨w, ?_, refers⟩⟩
      rw [same]
      exact inside
  | sql turned =>
    have tracked := base.tracked.step turned
    generalize after : s'.store = st' at turned
    have tables : s'.tables = st'.tables := congrArg Store.tables after
    suffices both : Sane st'.tables ∧ ∀ {i tx journal}, Function.update stages who stage i = some (tx, journal) →
        Standing st'.tables journal from ⟨tracked, tables ▸ both.1, fun mine => tables ▸ both.2 mine⟩
    cases turned with
    | same r other =>
      rw [Function.update_eq_self]
      exact ⟨base.sane, base.standing⟩
    | opened idle =>
      refine ⟨base.sane, fun {i tx journal} mine => ?_⟩
      simp only [Function.update_apply] at mine
      split at mine
      · obtain ⟨-, rfl⟩ := Prod.mk.inj (Option.some.inj mine)
        exact trivial
      · exact base.standing mine
    | @asked tx q journal a more mine fine ran free =>
      refine ⟨base.sane, fun {i tx' journal'} theirs => ?_⟩
      simp only [Function.update_apply] at theirs
      split at theirs
      · obtain ⟨-, rfl⟩ := Prod.mk.inj (Option.some.inj theirs)
        have kept := base.tracked.kept mine
        have standing := base.standing mine
        have view := standing.sane (fun e inside => (kept_entry kept e inside).1) base.sane
        exact standing.snoc (asked_valid view fine (standing.founded kept base.sane) ran)
      · exact base.standing theirs
    | @alone q a more fine ran free =>
      rw [Function.update_eq_self]
      refine ⟨base.sane.applyAll fun c u row inside => ?_, fun {i tx journal} mine => ?_⟩
      · exact (alone_member fine (Query.eval_wrote ran) inside).elim
      · obtain ⟨begun, same⟩ := base.tracked.writes mine
        refine (base.standing mine).lasts (base.tracked.kept mine) ((base.standing mine).kin (base.tracked.kept mine) ?_)
        rw [← same]
        exact (Store.isFree_apart free begun nofun).symm
    | @committed tx journal mine whole through =>
      have same := (base.tracked.writes mine).2
      have kept := base.tracked.kept mine
      have landed : (s.store.committed tx).tables = Store.applyAll (S := schema) s.tables journal.writes := by
        rw [← same]
        rfl
      rw [landed]
      refine ⟨(base.standing mine).sane (fun e inside => (kept_entry kept e inside).1) base.sane,
        fun {i tx' journal'} theirs => ?_⟩
      obtain ⟨different, theirs⟩ := others theirs
      refine (base.standing theirs).lasts (base.tracked.kept theirs)
        ((base.standing theirs).kin (base.tracked.kept theirs) ?_)
      have apart : tx' ≠ tx := by
        rintro rfl
        exact different (base.tracked.alone theirs mine)
      rw [← (base.tracked.writes theirs).2, ← same]
      exact base.tracked.apart apart
    | dropped r mine failed => exact ⟨base.sane, fun theirs => base.standing (others theirs).2⟩

theorem Base.restart (base : Base stages s) : Base (fun _ => none) s.restart :=
  ⟨base.tracked.restart, base.sane, nofun⟩

theorem Base.new (usernames : Uuid → Option String) : Base (fun _ => none) (State.new usernames) :=
  ⟨.start rfl, ⟨fun _ => rfl, fun _ _ => rfl, fun _ => rfl⟩, nofun⟩

end Base

structure Lasts (ok : List (Event machine) → Event machine → Prop)
    (K : List (Event machine) → (Nat → Stage schema) → State → Prop) : Prop where
  step : ∀ {trace stages s r s' stage who}, Base stages s → K trace stages s → Change s (stages who) r s' stage →
    ok trace ⟨who, r, s, s'⟩ → K (⟨who, r, s, s'⟩ :: trace) (Function.update stages who stage) s'
  restart : ∀ {trace stages s}, Base stages s → K trace stages s → K trace (fun _ => none) s.restart

theorem Lasts.sound {ok : List (Event machine) → Event machine → Prop}
    {K : List (Event machine) → (Nat → Stage schema) → State → Prop} (lasts : Lasts ok K) :
    contract.Sound ok fun trace stages s => Base stages s ∧ K trace stages s where
  turns who :=
    { step := by
        intro trace stages s r a s' fit permit answered fine
        obtain ⟨stage, next, changed⟩ := change fit.1.tracked permit answered
        exact ⟨stage, next, fit.1.step changed, lasts.step fit.1 fit.2 changed fine⟩
      wait := fun _ _ _ => trivial }
  finish := by
    intro trace stages s i fit final
    have same : Function.update stages i contract.finished = stages := by
      rw [Function.update_eq_self_iff]
      exact final.symm
    rw [same]
    exact fit
  restart := fun fit _ => ⟨fit.1.restart, lasts.restart fit.1 fit.2⟩
  finished_rest := trivial

end Echo.Groups.Membership
