import Echo.Groups.Standing

/-! Every membership call keeps to the manner. -/
namespace Echo.Groups.Membership
open Echo.Lib
open Echo.Server (Uuid ConversationKind)

def Outside : Request → Prop
  | .sql (.run none q) => q.isAlone = true
  | .sql _ => False
  | _ => True

def Tidy {α : Type} (t : Task α) : Prop := t.Keeps contract none fun m _ => m = none

namespace Tidy
variable {α β : Type}

variable {t : Task α}

theorem of_only (only : t.Only Outside) : Tidy t := by
  refine Async.Only.keeps only (fun {r} fine => ?_) (fun {r a m'} fine moved => ?_) trivial
  · cases r with
    | sql r =>
      cases r with
      | run tx q =>
        cases tx with
        | none => exact fine
        | some tx => exact fine.elim
      | _ => exact fine.elim
    | _ => exact trivial
  · cases r with
    | sql r =>
      cases r with
      | run tx q =>
        cases tx with
        | none => exact moved
        | some tx => exact fine.elim
      | _ => exact fine.elim
    | _ => exact moved

theorem bind {f : α → Task β} (first : Tidy t) (rest : ∀ a, Tidy (f a)) : Tidy (t >>= f) := by
  refine Async.Keeps.bind (first.mono fun m r idle => ?_)
  subst idle
  cases r with
  | ok a => exact rest a
  | error e => exact rfl

theorem catching {handler : AppError → Task α} (first : Tidy t) (handled : ∀ e, Tidy (handler e)) :
    Tidy (t.catching handler) := by
  refine Async.Keeps.catching (first.mono fun m r idle => ?_)
  subst idle
  cases r with
  | ok a => exact rfl
  | error e => exact handled e

end Tidy

section Journals
variable {journal more : Journal} {c : Uuid}

@[simp] theorem owed_nil : owed c [] = 0 := rfl

@[simp] theorem owed_append : owed c (journal ++ more) = owed c journal + owed c more := by
  simp [owed]

@[simp] theorem owed_cons {e : Entry schema} : owed c (e :: journal) = owedBy c e + owed c journal := by
  simp [owed]

structure Even (journal : Journal) : Prop where
  owed : ∀ c, owed c journal = 0
  free : ∀ w ∈ journal.writes, w.isInvite = false

theorem Even.append (before : Even journal) (after : Even more) : Even (journal ++ more) where
  owed c := by rw [owed_append, before.owed, after.owed, Int.add_zero]
  free w inside := by
    rw [Journal.writes_append] at inside
    rcases List.mem_append.mp inside with old | new
    · exact before.free w old
    · exact after.free w new

theorem Even.whole (even : Even journal) : Whole journal :=
  ⟨even.owed, fun _ _ inside => (Bool.false_ne_true (even.free _ inside).symm).elim⟩

end Journals

/-- The transaction is still open, and may be committed if the call has not failed. -/
def Closing {α : Type} (tx : Nat) (m : Stage schema) (r : Except AppError α) : Prop :=
  ∃ journal, m = some (tx, journal) ∧ ∀ a, r = .ok a → Whole journal

theorem started_keeps : (dbCtx (ask (.sql .start))).Keeps contract none fun m r =>
    (∃ tx, r = .ok tx ∧ m = some (tx, [])) ∨ (∃ e, r = .error e) ∧ m = none := by
  refine ⟨rfl, fun a m next => ⟨trivial, ?_⟩⟩
  cases a with
  | error e => exact .inr ⟨⟨_, rfl⟩, next⟩
  | ok tx => exact .inl ⟨tx, rfl, next⟩

theorem transaction_tidy {α : Type} {body : Nat → Task α}
    (keeps : ∀ tx, (body tx).Keeps contract (some (tx, [])) (Closing tx)) : Tidy (transaction body) := by
  refine Async.Keeps.bind (started_keeps.mono fun m r opened => ?_)
  rcases opened with ⟨tx, rfl, rfl⟩ | ⟨⟨e, rfl⟩, rfl⟩
  · refine Async.Keeps.bind (Async.Keeps.catching ((keeps tx).mono fun m r closing => ?_))
    obtain ⟨journal, rfl, whole⟩ := closing
    cases r with
    | ok a =>
      refine ⟨⟨journal, rfl, whole a rfl⟩, fun b m closed => ⟨trivial, ?_⟩⟩
      cases b <;> exact closed
    | error e => exact ⟨⟨journal, rfl⟩, fun b m closed => ⟨trivial, closed⟩⟩
  · exact rfl

section Within
variable {α β : Type} {q : Query} {tx : Nat} {journal : Journal}

theorem query_asked (fine : Within journal q) : (query q (some tx)).Keeps contract (some (tx, journal)) fun m r =>
    (∃ a more t, r = .ok (.ok a) ∧ q.eval t = .ok (a, more) ∧ m = some (tx, journal ++ [⟨q, a, more⟩])) ∨
      (∃ e, r = .ok (.error e)) ∧ m = some (tx, journal) := by
  refine ⟨⟨journal, rfl, fine⟩, fun a m next => ⟨trivial, ?_⟩⟩
  cases a with
  | error e => exact .inr ⟨⟨e, rfl⟩, next⟩
  | ok a =>
    obtain ⟨before, more, t, mine, ran, rfl⟩ := next
    obtain ⟨-, rfl⟩ := Prod.mk.inj (Option.some.inj mine)
    exact .inl ⟨a, more, t, rfl, ran, rfl⟩

variable {post : Stage schema → Except AppError α → Prop} {e : AppError} {m : Stage schema}

theorem asked_bind {f : q.Result → Task α} (fine : Within journal q)
    (fails : ∀ e, post (some (tx, journal)) (.error e))
    (rest : ∀ {a more t}, q.eval t = .ok (a, more) → (f a).Keeps contract (some (tx, journal ++ [⟨q, a, more⟩])) post) :
    (dbCtx (query q (some tx)) >>= f).Keeps contract (some (tx, journal)) post := by
  refine Async.Keeps.bind (Async.Keeps.bind ((query_asked fine).mono fun m r answered => ?_))
  rcases answered with ⟨a, more, t, rfl, ran, rfl⟩ | ⟨⟨e, rfl⟩, rfl⟩
  · exact rest ran
  · exact fails _

theorem require_bind {condition : Bool} {f : Unit → Task α}
    (fails : post m (.error e))
    (rest : condition = true → (f ()).Keeps contract m post) : (require condition e >>= f).Keeps contract m post := by
  cases condition with
  | true => exact rest rfl
  | false => exact fails

theorem require_keeps {condition : Bool}
    {post : Stage schema → Except AppError Unit → Prop} (fails : post m (.error e)) (rest : post m (.ok ())) :
    (require condition e).Keeps contract m post := by
  cases condition with
  | true => exact rest
  | false => exact fails

theorem okOr_bind {o : Option β} {f : β → Task α}
    (fails : post m (.error e))
    (rest : ∀ b, o = some b → (f b).Keeps contract m post) : (okOr e o >>= f).Keeps contract m post := by
  cases o with
  | some b => exact rest b rfl
  | none => exact fails

theorem read_entry {a : q.Result} {more : List Write} {t : Tables} (read : q.isRead = true)
    (ran : q.eval t = .ok (a, more)) : more = [] ∧ Even [⟨q, a, more⟩] := by
  have nothing : more = [] := by
    cases Query.eval_wrote ran with
    | nothing => rfl
    | _ => cases read
  subst nothing
  refine ⟨rfl, fun c => ?_, nofun⟩
  cases q with
  | insertMember | addMember | joinPublicGroup | removeMember | changeMemberCount => cases read
  | _ => rfl

theorem read_within (read : q.isRead = true) : Within journal q := by
  cases q with
  | conversationKind | isPublic | memberRole | isMember | memberIds | isBanned => exact read
  | _ => cases read

theorem memberIds_closing {g : Uuid} (even : Even journal) :
    (unwrapOrDefault (query (.memberIds g) (some tx))).Keeps contract (some (tx, journal)) (Closing tx) := by
  refine Async.Keeps.bind ((query_asked (read_within rfl)).mono fun m r answered => ?_)
  rcases answered with ⟨a, more, t, rfl, ran, rfl⟩ | ⟨⟨e, rfl⟩, rfl⟩
  · exact ⟨_, rfl, fun _ _ => (even.append (read_entry rfl ran).2).whole⟩
  · exact ⟨_, rfl, fun _ _ => even.whole⟩

end Within

section Bodies
variable {tx : Nat} {journal : Journal} {g u : Uuid} {t : Tables} {more : List Write}

variable {a : Bool} {q : Query}

theorem add_entry (ran : (Query.addMember g u).eval t = .ok (a, more)) :
    a = true ∧ more = [.member g u ⟨.member, false⟩] ∨ a = false ∧ more = [] := by
  simp only [Query.eval] at ran
  split at ran
  · cases ran
  · split at ran
    · cases ran
      exact .inr ⟨rfl, rfl⟩
    · cases ran
      exact .inl ⟨rfl, rfl⟩

theorem join_entry (ran : (Query.joinPublicGroup g u).eval t = .ok (a, more)) :
    a = true ∧ more = [.member g u ⟨.member, false⟩] ∨ a = false ∧ more = [] := by
  simp only [Query.eval] at ran
  split at ran
  · cases ran
    exact .inr ⟨rfl, rfl⟩
  · split at ran
    · cases ran
      exact .inl ⟨rfl, rfl⟩
    · cases ran
      exact .inr ⟨rfl, rfl⟩

theorem remove_entry (ran : (Query.removeMember g u).eval t = .ok (a, more)) :
    a = true ∧ (∃ role, more = [.member g u ⟨role, true⟩]) ∨ a = false ∧ more = [] := by
  simp only [Query.eval] at ran
  split at ran
  · cases ran
    exact .inr ⟨rfl, rfl⟩
  · cases ran
    exact .inl ⟨rfl, _, rfl⟩

theorem counted_even {a : q.Result} {change : Int} {b : Unit} {counts : List Write}
    (owes : ∀ c, owedBy c ⟨q, a, more⟩ = if g = c then change else 0)
    (free : ∀ w ∈ more, w.isInvite = false) (ran : (Query.changeMemberCount g change).eval t = .ok (b, counts)) :
    Even [⟨q, a, more⟩, ⟨.changeMemberCount g change, b, counts⟩] := by
  cases ran
  refine ⟨fun c => ?_, fun w inside => ?_⟩
  · have paid : owedBy c ⟨.changeMemberCount g change, (), [.memberCount g change]⟩ = if g = c then -change else 0 := rfl
    rw [owed_cons, owed_cons, owes, paid, owed_nil]
    split
    · omega
    · rfl
  · rcases List.mem_append.mp (Journal.writes_cons _ _ ▸ inside) with first | second
    · exact free w first
    · rw [List.mem_singleton.mp second]
      rfl

theorem uncounted_even {a : q.Result} (owes : ∀ c, owedBy c ⟨q, a, more⟩ = 0)
    (free : ∀ w ∈ more, w.isInvite = false) : Even [⟨q, a, more⟩] := by
  refine ⟨fun c => ?_, fun w inside => ?_⟩
  · rw [owed_cons, owes]
    rfl
  · rw [Journal.writes_cons, Journal.writes_nil, List.append_nil] at inside
    exact free w inside

theorem count_keeps {a : q.Result} {change : Int} {b : Bool} (settled : ∀ c, owed c journal = 0)
    (owes : ∀ c, owedBy c ⟨q, a, more⟩ = if g = c then change else 0)
    (free : ∀ w ∈ more, w.isInvite = false) :
    (do
      dbCtx (query (.changeMemberCount g change) (some tx))
      pure b : Task Bool).Keeps contract (some (tx, journal ++ [⟨q, a, more⟩])) fun m r =>
        ∃ rest, m = some (tx, journal ++ ⟨q, a, more⟩ :: rest) ∧ ∀ b', r = .ok b' → b' = b ∧ Even (⟨q, a, more⟩ :: rest) := by
  have due : owed g (journal ++ [⟨q, a, more⟩]) = change := by
    rw [owed_append, settled, owed_cons, owes, if_pos rfl, owed_nil]
    simp
  refine asked_bind (q := .changeMemberCount g change) due (fun e => ⟨[], rfl, nofun⟩) fun {b' counts t} ran => ?_
  refine ⟨[_], by rw [List.append_assoc]; rfl, fun _ same => ?_⟩
  cases same
  exact ⟨rfl, counted_even owes free ran⟩

theorem addMemberInTx_keeps (settled : ∀ c, owed c journal = 0) (fine : Within journal (.addMember g u)) :
    (addMemberInTx tx g u).Keeps contract (some (tx, journal)) fun m r =>
      ∃ more, m = some (tx, journal ++ more) ∧ ∀ b, r = .ok b → Even more ∧ Told more (.addMember g u) b := by
  refine asked_bind (q := .addMember g u) fine (fun e => ⟨[], by rw [List.append_nil], nofun⟩) fun {a more t} ran => ?_
  rcases add_entry ran with ⟨rfl, rfl⟩ | ⟨rfl, rfl⟩
  · refine (count_keeps settled (g := g) (fun c => ?_) (fun w inside => ?_)).mono fun m r counted => ?_
    · exact if_congr (by simp) rfl rfl
    · rw [List.mem_singleton.mp inside]
      rfl
    · obtain ⟨rest, same, even⟩ := counted
      refine ⟨_, same, fun b here => ?_⟩
      obtain ⟨rfl, even⟩ := even b here
      exact ⟨even, _, List.mem_cons_self⟩
  · refine ⟨_, rfl, fun b same => ?_⟩
    cases same
    refine ⟨uncounted_even (fun c => ?_) fun _ inside => (List.not_mem_nil inside).elim, _, List.mem_singleton_self _⟩
    exact if_neg fun both => both.2 rfl

theorem removeMemberInTx_keeps (settled : ∀ c, owed c journal = 0) (fine : Within journal (.removeMember g u)) :
    (removeMemberInTx tx g u).Keeps contract (some (tx, journal)) fun m r =>
      ∃ more, m = some (tx, journal ++ more) ∧ ∀ b, r = .ok b → Even more ∧ Told more (.removeMember g u) b := by
  refine asked_bind (q := .removeMember g u) fine (fun e => ⟨[], by rw [List.append_nil], nofun⟩) fun {a more t} ran => ?_
  rcases remove_entry ran with ⟨rfl, role, rfl⟩ | ⟨rfl, rfl⟩
  · refine (count_keeps settled (g := g) (fun c => ?_) (fun w inside => ?_)).mono fun m r counted => ?_
    · exact if_congr (by simp) rfl rfl
    · rw [List.mem_singleton.mp inside]
      rfl
    · obtain ⟨rest, same, even⟩ := counted
      refine ⟨_, same, fun b here => ?_⟩
      obtain ⟨rfl, even⟩ := even b here
      exact ⟨even, _, List.mem_cons_self⟩
  · refine ⟨_, rfl, fun b same => ?_⟩
    cases same
    refine ⟨uncounted_even (fun c => ?_) fun _ inside => (List.not_mem_nil inside).elim, _, List.mem_singleton_self _⟩
    exact if_neg fun both => both.2 rfl

theorem joinPublicGroup_tidy : Tidy (transaction fun tx => do
    let joined : Bool ← dbCtx (query (.joinPublicGroup g u) (some tx))
    when joined (dbCtx (query (.changeMemberCount g 1) (some tx)))
    pure joined) := by
  refine transaction_tidy fun tx => ?_
  refine asked_bind (q := .joinPublicGroup g u) rfl (fun e => ⟨[], rfl, nofun⟩) fun {a more t} ran => ?_
  rcases join_entry ran with ⟨rfl, rfl⟩ | ⟨rfl, rfl⟩
  · refine (count_keeps (fun c => rfl) (g := g) (fun c => ?_) (fun w inside => ?_)).mono fun m r counted => ?_
    · exact if_congr (by simp) rfl rfl
    · rw [List.mem_singleton.mp inside]
      rfl
    · obtain ⟨rest, same, even⟩ := counted
      exact ⟨_, same, fun b here => (even b here).2.whole⟩
  · refine ⟨_, rfl, fun b _ => (uncounted_even (fun c => ?_) fun _ inside => (List.not_mem_nil inside).elim).whole⟩
    exact if_neg fun both => both.2 rfl

end Bodies

section Lookups
variable {g u v : Uuid} {auth : AuthUser}

variable {c : Uuid}

theorem memberIds_only : (unwrapOrDefault (query (.memberIds c) none)).Only Outside :=
  unwrapOrDefault_only (query_only rfl)

theorem broadcastToConversation_only {n : Notice} : (broadcastToConversation c n).Only Outside := by
  refine bind_only (query_only rfl) fun answer => ?_
  split
  · exact trivial
  · exact ask_only trivial

theorem broadcastMemberSystemMessage_only {actor target : Uuid} {text : String} {recipients : List Uuid} :
    (broadcastMemberSystemMessage c actor text target recipients).Only Outside := by
  refine bind_only (query_only rfl) fun answer => ?_
  split
  · exact trivial
  · exact ask_only trivial

theorem onlineSubset_only {members : List Uuid} : (onlineSubset members).Only Outside := by
  induction members with
  | nil => exact trivial
  | cons member members ih => exact bind_only (ask_only trivial) fun _ => bind_only ih fun _ => trivial

theorem broadcastRotationRequested_only {n : Int} : (broadcastRotationRequested c n).Only Outside := by
  refine bind_only (query_only rfl) fun answer => ?_
  split
  · exact trivial
  · refine bind_only onlineSubset_only fun online => ?_
    split
    · exact trivial
    · exact broadcastToConversation_only

theorem bumpKeyVersionAndPurgeEnvelopes_tidy : Tidy (bumpKeyVersionAndPurgeEnvelopes c) := by
  refine transaction_tidy fun tx => ?_
  refine asked_bind (q := .bumpKeyVersion c) rfl (fun e => ⟨[], rfl, nofun⟩) fun {a more t} ran => ?_
  have bumped : Even [⟨.bumpKeyVersion c, a, more⟩] := by
    refine uncounted_even (fun _ => rfl) fun w inside => ?_
    cases Query.eval_wrote ran with
    | nothing may => cases inside
    | bumpKeyVersion known => exact List.mem_singleton.mp inside ▸ rfl
  refine asked_bind (q := .purgeEnvelopes c) trivial (fun e => ⟨_, rfl, nofun⟩) fun {a' more' t'} ran' => ?_
  cases ran'
  refine ⟨_, rfl, fun _ _ => (bumped.append (uncounted_even (fun _ => rfl) fun w inside => ?_)).whole⟩
  exact List.mem_singleton.mp inside ▸ rfl

theorem rotateGroupKeyAfterMemberLoss_tidy : Tidy (rotateGroupKeyAfterMemberLoss c) := by
  refine .bind (.of_only (query_only rfl)) fun answer => ?_
  split
  · exact .of_only trivial
  · split
    · refine .catching (.bind bumpKeyVersionAndPurgeEnvelopes_tidy fun _ => .of_only ?_) fun _ => .of_only trivial
      exact broadcastRotationRequested_only
    · exact .of_only trivial

theorem afterMemberLoss_tidy {actor target : Uuid} {action : String} : Tidy (afterMemberLoss c actor target action) := by
  refine .bind (.of_only memberIds_only) fun remaining => ?_
  split
  · exact .of_only (bind_only (query_only rfl) fun _ => trivial)
  · refine .bind rotateGroupKeyAfterMemberLoss_tidy fun _ => .of_only (bind_only (query_only rfl) fun answer => ?_)
    split
    · exact broadcastMemberSystemMessage_only
    · exact trivial

theorem callerRole_only : (callerRole none g u).Only Outside :=
  bind_only (dbCtx_only (query_only rfl)) fun _ => okOr_only

theorem announceJoined_only : (announceJoined auth g).Only Outside := by
  refine bind_only (ask_only trivial) fun _ => bind_only (query_only rfl) fun joiner => ?_
  refine bind_only memberIds_only fun existing => ?_
  split
  · refine bind_only (ask_only trivial) fun _ => bind_only (query_only rfl) fun answer => ?_
    split
    · exact trivial
    · exact bind_only memberIds_only fun _ => ask_only trivial
  · exact trivial

end Lookups

/-- The transaction holds the lock of a member, and has only read since. -/
structure Under (journal : Journal) (g u : Uuid) : Prop where
  locked : Locked journal
  mine : .memberLock g u ∈ journal.writes
  even : Even journal

section Locked
variable {α : Type} {tx : Nat} {journal : Journal} {g u v : Uuid} {t : Tables} {more : List Write}
  {post : Stage schema → Except AppError α → Prop}

theorem memberLock_bind {f : Unit → Task α} (fails : ∀ e, post (some (tx, [])) (.error e))
    (rest : ∀ journal, Under journal g u → (f ()).Keeps contract (some (tx, journal)) post) :
    (dbCtx (query (.memberLock g u) (some tx)) >>= f).Keeps contract (some (tx, [])) post := by
  refine asked_bind (q := .memberLock g u) rfl fails fun {a more t} ran => ?_
  cases ran
  refine rest _ ⟨fun w inside => ?_, List.mem_singleton_self _, ?_⟩
  · cases List.mem_singleton.mp inside
    rfl
  · refine uncounted_even (fun _ => rfl) fun w inside => ?_
    exact List.mem_singleton.mp inside ▸ rfl

variable {q : Query}

theorem Under.read {a : q.Result} (under : Under journal g u) (read : q.isRead = true)
    (ran : q.eval t = .ok (a, more)) : Under (journal ++ [⟨q, a, more⟩]) g u := by
  obtain ⟨rfl, even⟩ := read_entry read ran
  have same : Journal.writes (journal ++ [⟨q, a, []⟩]) = journal.writes := by simp
  exact ⟨by unfold Locked; rw [same]; exact under.locked, by rw [same]; exact under.mine, under.even.append even⟩

theorem read_bind {f : q.Result → Task α} (under : Under journal g u) (read : q.isRead = true)
    (fails : ∀ e, post (some (tx, journal)) (.error e))
    (rest : ∀ a journal', Under journal' g u → (∀ e ∈ journal, e ∈ journal') → Told journal' q a →
      (f a).Keeps contract (some (tx, journal')) post) :
    (dbCtx (query q (some tx)) >>= f).Keeps contract (some (tx, journal)) post := by
  refine asked_bind (read_within read) fails fun {a more t} ran => ?_
  refine rest a _ (under.read read ran) (fun e inside => List.mem_append_left _ inside) ⟨more, ?_⟩
  exact List.mem_append_right _ (List.mem_singleton_self _)

theorem callerRole_bind {f : Role → Task α} (under : Under journal g u) (fails : ∀ journal e, post (some (tx, journal)) (.error e))
    (rest : ∀ role journal', Under journal' g u → (f role).Keeps contract (some (tx, journal')) post) :
    (callerRole (some tx) g v >>= f).Keeps contract (some (tx, journal)) post := by
  refine Async.Keeps.bind (read_bind (q := .memberRole g v) under rfl (fun e => fails _ e) fun role journal' under' _ _ => ?_)
  cases role with
  | none => exact fails _ _
  | some role => exact rest role journal' under'

theorem Told.mono {journal' : Journal} {a : q.Result} (told : Told journal q a)
    (grown : ∀ e ∈ journal, e ∈ journal') : Told journal' q a := told.imp fun _ inside => grown _ inside

end Locked

section Calls
variable {auth : AuthUser} {g u : Uuid}

variable {tx : Nat} {journal : Journal} {c : Uuid} {token : String}

theorem closing_fails {α : Type} (e : AppError) :
    Closing tx (some (tx, journal)) (.error e : Except AppError α) := ⟨journal, rfl, nofun⟩

theorem addMember_tidy : Tidy (addMember auth g u) := by
  refine .bind (.of_only (dbCtx_only (query_only rfl))) fun _ => .bind (.of_only okOr_only) fun username => ?_
  refine .bind (transaction_tidy fun tx => ?_) fun allMembers => .of_only ?_
  · refine memberLock_bind (fun e => closing_fails e) fun journal under => ?_
    refine callerRole_bind under (fun _ e => closing_fails e) fun role journal under => ?_
    refine read_bind (q := .conversationKind g) under rfl (fun e => closing_fails e) fun kind journal under _ _ => ?_
    refine require_bind (closing_fails _) fun _ => ?_
    refine read_bind (q := .isPublic g) under rfl (fun e => closing_fails e) fun shown journal under _ _ => ?_
    refine require_bind (closing_fails _) fun _ => ?_
    refine read_bind (q := .isBanned g u) under rfl (fun e => closing_fails e) fun banned journal under _ told => ?_
    refine require_bind (closing_fails _) fun free => ?_
    refine read_bind (q := .isMember g u) under rfl (fun e => closing_fails e) fun already journal' under' grown _ => ?_
    refine require_bind (closing_fails _) fun _ => ?_
    have free : banned = false := (Bool.not_eq_true' (b := banned)).mp free
    have fine : Within journal' (.addMember g u) := ⟨under'.locked, .inl ⟨under'.mine, free ▸ told.mono grown⟩⟩
    refine Async.Keeps.bind ((addMemberInTx_keeps under'.even.owed fine).mono fun m r added => ?_)
    obtain ⟨more, rfl, even⟩ := added
    cases r with
    | error e => exact closing_fails e
    | ok b => exact require_bind (closing_fails _) fun _ => memberIds_closing (under'.even.append (even b rfl).1)
  · exact bind_only (ask_only trivial) fun _ => bind_only (ask_only trivial) fun _ => broadcastMemberSystemMessage_only

theorem removeMember_tidy : Tidy (removeMember auth g u) := by
  refine .bind (transaction_tidy fun tx => ?_) fun _ => .bind (.of_only (ask_only trivial)) fun _ => afterMemberLoss_tidy
  refine memberLock_bind (fun e => closing_fails e) fun journal under => ?_
  refine callerRole_bind under (fun _ e => closing_fails e) fun role journal under => ?_
  refine require_bind (closing_fails _) fun _ => ?_
  have spared : (when (u ≠ auth.userId) do
      let targetRole : Option Role ← dbCtx (query (.memberRole g u) (some tx))
      require (targetRole ≠ some .owner) (.badRequest "Cannot remove the group owner")).Keeps contract (some (tx, journal))
      fun m r => ∃ journal', m = some (tx, journal') ∧ Under journal' g u := by
    refine Async.Keeps.ite (fun _ => ?_) fun _ => ⟨journal, rfl, under⟩
    refine read_bind (q := .memberRole g u) under rfl (fun e => ⟨journal, rfl, under⟩) fun role journal' under' _ _ => ?_
    exact Async.Keeps.ite (fun _ => ⟨journal', rfl, under'⟩) fun _ => ⟨journal', rfl, under'⟩
  refine Async.Keeps.bind (spared.mono fun m r still => ?_)
  obtain ⟨journal', rfl, under'⟩ := still
  cases r with
  | error e => exact closing_fails e
  | ok _ =>
    have fine : Within journal' (.removeMember g u) := ⟨under'.locked, .inr under'.mine⟩
    refine Async.Keeps.bind ((removeMemberInTx_keeps under'.even.owed fine).mono fun m r removed => ?_)
    obtain ⟨more, rfl, even⟩ := removed
    cases r with
    | error e => exact closing_fails e
    | ok b => exact require_keeps (closing_fails _) ⟨_, rfl, fun _ _ => (under'.even.append (even b rfl).1).whole⟩

theorem banMember_tidy : Tidy (banMember auth g u) := by
  refine .bind (transaction_tidy fun tx => ?_) fun _ => .bind (.of_only (ask_only trivial)) fun _ => afterMemberLoss_tidy
  refine memberLock_bind (fun e => closing_fails e) fun journal under => ?_
  refine callerRole_bind under (fun _ e => closing_fails e) fun role journal under => ?_
  refine require_bind (closing_fails _) fun _ => ?_
  refine read_bind (q := .memberRole g u) under rfl (fun e => closing_fails e) fun targetRole journal under _ _ => ?_
  refine require_bind (closing_fails _) fun _ => require_bind (closing_fails _) fun _ => ?_
  have fine : Within journal (.removeMember g u) := ⟨under.locked, .inr under.mine⟩
  refine Async.Keeps.bind (Async.Keeps.bind ((removeMemberInTx_keeps under.even.owed fine).mono fun m r removed => ?_))
  obtain ⟨more, rfl, even⟩ := removed
  cases r with
  | error e => exact closing_fails e
  | ok b =>
    obtain ⟨even, told⟩ := even b rfl
    have barred : Within (journal ++ more) (.banMember g u) := by
      refine ⟨?_, b, told.mono fun e inside => List.mem_append_right _ inside⟩
      rw [Journal.writes_append]
      exact List.mem_append_left _ under.mine
    refine Async.Keeps.bind ((query_asked barred).mono fun m r answered => ?_)
    rcases answered with ⟨a, banned, t, rfl, ran, rfl⟩ | ⟨⟨e, rfl⟩, rfl⟩
    · refine ⟨_, rfl, fun _ _ => ((under.even.append even).append (uncounted_even (fun _ => rfl) fun w inside => ?_)).whole⟩
      cases Query.eval_wrote ran with
      | nothing may => cases may
      | banMember => exact List.mem_singleton.mp inside ▸ rfl
    · exact closing_fails _

theorem changeMemberRole_tidy {role : Role} : Tidy (changeMemberRole auth g u role) := by
  refine require_bind rfl fun proper => Tidy.bind (.of_only require_only) fun _ => ?_
  refine Tidy.bind (transaction_tidy fun tx => ?_) fun allMembers => .of_only ?_
  · refine memberLock_bind (fun e => closing_fails e) fun journal under => ?_
    refine callerRole_bind under (fun _ e => closing_fails e) fun caller journal under => ?_
    refine require_bind (closing_fails _) fun _ => ?_
    refine read_bind (q := .memberRole g u) under rfl (fun e => closing_fails e) fun target journal under _ told => ?_
    refine okOr_bind (closing_fails _) fun before found => require_bind (closing_fails _) fun common => ?_
    subst found
    have fine : Within journal (.setMemberRole g u role) :=
      ⟨under.locked, under.mine, of_decide_eq_true proper, before, told, of_decide_eq_true common⟩
    refine asked_bind (q := .setMemberRole g u role) fine (fun e => closing_fails e) fun {a more t} ran => ?_
    have even : Even (journal ++ [⟨.setMemberRole g u role, a, more⟩]) := by
      refine under.even.append (uncounted_even (fun _ => rfl) fun w inside => ?_)
      cases Query.eval_wrote ran with
      | nothing may => cases inside
      | setMemberRole role there => exact List.mem_singleton.mp inside ▸ rfl
    exact require_bind (closing_fails _) fun _ => memberIds_closing even
  · exact bind_only (ask_only trivial) fun _ => ask_only trivial

theorem leave_tidy : Tidy (removeMemberTx g u) := by
  refine transaction_tidy fun tx => ?_
  have fine : Within [] (.removeMember g u) := ⟨fun _ inside => (List.not_mem_nil inside).elim, .inl rfl⟩
  refine (removeMemberInTx_keeps (fun _ => rfl) fine).mono fun m r removed => ?_
  obtain ⟨more, rfl, even⟩ := removed
  exact ⟨_, rfl, fun b same => (even b same).1.whole⟩

theorem ensureNotOwnerOfOthers_only : (ensureNotOwnerOfOthers g u).Only Outside :=
  bind_only (dbCtx_only (query_only rfl)) fun _ => when_only (bind_only memberIds_only fun _ => require_only)

theorem leaveGroup_tidy : Tidy (leaveGroup auth g) := by
  refine .bind (.of_only ensureNotOwnerOfOthers_only) fun _ => .bind (.of_only (query_only rfl)) fun leaver => ?_
  refine .bind leave_tidy fun _ => .bind (.of_only require_only) fun _ => .bind (.of_only (ask_only trivial)) fun _ => ?_
  refine .bind (.of_only memberIds_only) fun remaining => ?_
  split
  · exact .of_only (bind_only (query_only rfl) fun _ => trivial)
  · refine .bind rotateGroupKeyAfterMemberLoss_tidy fun _ => .of_only ?_
    split
    · exact broadcastMemberSystemMessage_only
    · exact trivial

theorem leaveConversation_tidy : Tidy (leaveConversation auth g) := by
  refine .bind (.of_only ensureNotOwnerOfOthers_only) fun _ => .bind leave_tidy fun _ => .of_only ?_
  refine bind_only require_only fun _ => bind_only (ask_only trivial) fun _ => bind_only memberIds_only fun remaining => ?_
  exact when_only (bind_only (query_only rfl) fun _ => trivial)

theorem joinGroup_tidy : Tidy (joinGroup auth g) := by
  refine .bind (.of_only (dbCtx_only (query_only rfl))) fun _ => .bind (.of_only require_only) fun _ => ?_
  refine .bind (.of_only (dbCtx_only (query_only rfl))) fun _ => .bind (.of_only require_only) fun _ => ?_
  refine .bind joinPublicGroup_tidy fun _ => .of_only (bind_only require_only fun _ => ?_)
  refine bind_only (ask_only trivial) fun _ => bind_only (query_only rfl) fun joiner => ?_
  refine bind_only memberIds_only fun existing => ?_
  split
  · exact bind_only (ask_only trivial) fun _ => broadcastMemberSystemMessage_only
  · exact trivial

theorem asked_keeps {q : Query} {post : Stage schema → Except AppError q.Result → Prop}
    (fine : Within journal q) (fails : ∀ e, post (some (tx, journal)) (.error e))
    (rest : ∀ {a more t}, q.eval t = .ok (a, more) → post (some (tx, journal ++ [⟨q, a, more⟩])) (.ok a)) :
    (dbCtx (query q (some tx))).Keeps contract (some (tx, journal)) post := by
  refine Async.Keeps.bind ((query_asked fine).mono fun m r answered => ?_)
  rcases answered with ⟨a, more, t, rfl, ran, rfl⟩ | ⟨⟨e, rfl⟩, rfl⟩
  · exact rest ran
  · exact fails _

/-- A conversation is being made, with its owner and `n` members that are not counted yet. -/
structure Founded (c : Uuid) (n : Int) (journal : Journal) : Prop where
  founding : Founding c journal
  owner : ∃ u a writes, ⟨.insertMember c u .owner, a, writes⟩ ∈ journal
  due : owed c journal = n
  others : ∀ c', c' ≠ c → owed c' journal = 0
  free : ∀ w ∈ journal.writes, w.isInvite = false

theorem Founding.append (founding : Founding c journal) (more : Journal) :
    Founding c (journal ++ more) := by
  obtain ⟨shown, encrypted, a, writes, rest, rfl⟩ := founding
  exact ⟨shown, encrypted, a, writes, rest ++ more, rfl⟩

theorem insert_entry {role : Role} {a : Bool} {t : Tables} {more : List Write}
    (ran : (Query.insertMember c u role).eval t = .ok (a, more)) :
    a = true ∧ more = [.member c u ⟨role, false⟩] ∨ a = false ∧ more = [] := by
  simp only [Query.eval] at ran
  split at ran
  · cases ran
  · split at ran
    · cases ran
      exact .inr ⟨rfl, rfl⟩
    · cases ran
      exact .inl ⟨rfl, rfl⟩

theorem insertMembers_keeps {creator : Uuid} {members : List Uuid} {n : Int}
    (founded : Founded c n journal) :
    (insertMembers tx c creator members).Keeps contract (some (tx, journal)) fun m r =>
      ∃ journal', m = some (tx, journal') ∧ ∀ k, r = .ok k → Founded c (n + k) journal' := by
  induction members generalizing n journal with
  | nil =>
    refine ⟨journal, rfl, fun k same => ?_⟩
    cases same
    rwa [Int.add_zero]
  | cons member members ih =>
    refine Async.Keeps.ite (fun _ => ih founded) fun _ => ?_
    have fine : Within journal (.insertMember c member .member) :=
      ⟨founded.founding, nofun, fun _ => ⟨rfl, founded.owner⟩⟩
    refine asked_bind fine (fun e => ⟨journal, rfl, nofun⟩) fun {a more t} ran => ?_
    obtain ⟨u, b, writes, inside⟩ := founded.owner
    have known : ∀ k, owedBy c ⟨.insertMember c member .member, a, more⟩ = k →
        Founded c (n + k) (journal ++ [⟨.insertMember c member .member, a, more⟩]) := by
      intro k one
      refine ⟨founded.founding.append _, ⟨u, b, writes, List.mem_append_left _ inside⟩, ?_, fun c' other => ?_, fun w there => ?_⟩
      · rw [owed_append, founded.due, owed_cons, one, owed_nil, Int.add_zero]
      · rw [owed_append, founded.others c' other, owed_cons, owed_nil]
        have none : owedBy c' ⟨.insertMember c member .member, a, more⟩ = 0 := if_neg fun both => other both.1.symm
        rw [none]
        rfl
      · rw [Journal.writes_append] at there
        rcases List.mem_append.mp there with old | new
        · exact founded.free w old
        · rw [Journal.writes_cons, Journal.writes_nil, List.append_nil] at new
          rcases insert_entry ran with ⟨-, rfl⟩ | ⟨-, rfl⟩
          · exact List.mem_singleton.mp new ▸ rfl
          · cases new
    rcases insert_entry ran with ⟨rfl, rfl⟩ | ⟨rfl, rfl⟩
    · have one := known 1 (if_pos ⟨rfl, .inr (List.cons_ne_nil _ _)⟩)
      refine Async.Keeps.bind ((ih one).mono fun m r more => ?_)
      obtain ⟨journal', rfl, rest⟩ := more
      cases r with
      | error e => exact ⟨journal', rfl, nofun⟩
      | ok k =>
        refine ⟨journal', rfl, fun k' same => ?_⟩
        cases same
        rw [if_pos rfl, Int.add_comm k 1, ← Int.add_assoc]
        exact rest k rfl
    · have one := known 0 (if_neg fun both => both.2.elim nofun fun some' => some' rfl)
      refine Async.Keeps.bind ((ih one).mono fun m r more => ?_)
      obtain ⟨journal', rfl, rest⟩ := more
      cases r with
      | error e => exact ⟨journal', rfl, nofun⟩
      | ok k =>
        refine ⟨journal', rfl, fun k' same => ?_⟩
        cases same
        rw [Int.add_zero] at rest
        exact rest k rfl

theorem createGroup_tidy {text voice : Uuid} {members : List Uuid} {shown encrypted : Bool} :
    Tidy (createGroup auth g text voice members shown encrypted) := by
  refine transaction_tidy fun tx => ?_
  refine asked_bind (q := .insertConversation g shown encrypted) rfl (fun e => closing_fails e) fun {a₁ made t₁} ran₁ => ?_
  have made' : ∀ w ∈ made, w.isInvite = false := by
    intro w inside
    cases Query.eval_wrote ran₁ with
    | nothing may => cases inside
    | insertConversation => exact List.mem_singleton.mp inside ▸ rfl
  have founding : Founding g ([] ++ [⟨.insertConversation g shown encrypted, a₁, made⟩]) := ⟨_, _, _, _, [], rfl⟩
  refine asked_bind (q := .insertMember g auth.userId .owner) ⟨founding, fun _ => rfl, fun other => (other rfl).elim⟩
    (fun e => closing_fails e) fun {a₂ owner t₂} ran₂ => ?_
  have first : Founded g 1 ([] ++ [⟨.insertConversation g shown encrypted, a₁, made⟩] ++
      [⟨.insertMember g auth.userId .owner, a₂, owner⟩]) := by
    refine ⟨founding.append _, ⟨_, _, _, List.mem_append_right _ (List.mem_singleton_self _)⟩, ?_, fun c' other => ?_, ?_⟩
    · have one : owedBy g ⟨.insertMember g auth.userId .owner, a₂, owner⟩ = 1 := if_pos ⟨rfl, .inl rfl⟩
      rw [owed_append, owed_cons, owed_nil, one]
      rfl
    · have none : owedBy c' ⟨.insertMember g auth.userId .owner, a₂, owner⟩ = 0 := if_neg fun both => other both.1.symm
      rw [owed_append, owed_cons, owed_nil, none]
      rfl
    · intro w inside
      rw [Journal.writes_append] at inside
      rcases List.mem_append.mp inside with old | new
      · rw [List.nil_append, Journal.writes_cons, Journal.writes_nil, List.append_nil] at old
        exact made' w old
      · rw [Journal.writes_cons, Journal.writes_nil, List.append_nil] at new
        rcases insert_entry ran₂ with ⟨-, rfl⟩ | ⟨-, rfl⟩
        · exact List.mem_singleton.mp new ▸ rfl
        · cases new
  refine Async.Keeps.bind ((insertMembers_keeps first).mono fun m r inserted => ?_)
  obtain ⟨journal, rfl, founded⟩ := inserted
  cases r with
  | error e => exact closing_fails e
  | ok k =>
    have founded := founded k rfl
    refine asked_bind (q := .changeMemberCount g (k + 1)) (founded.due.trans (Int.add_comm 1 k))
      (fun e => closing_fails e) fun {a₃ counts t₃} ran₃ => ?_
    cases ran₃
    have even : Even (journal ++ [⟨.changeMemberCount g (k + 1), (), [.memberCount g (k + 1)]⟩]) := by
      refine ⟨fun c => ?_, fun w inside => ?_⟩
      · have paid : owedBy c ⟨.changeMemberCount g (k + 1), (), [.memberCount g (k + 1)]⟩ = if g = c then -(k + 1) else 0 := rfl
        rw [owed_append, owed_cons, owed_nil, paid]
        by_cases here : c = g
        · rw [here, founded.due, if_pos rfl]
          omega
        · rw [founded.others c here, if_neg (Ne.symm here)]
          rfl
      · rw [Journal.writes_append] at inside
        rcases List.mem_append.mp inside with old | new
        · exact founded.free w old
        · exact List.mem_singleton.mp new ▸ rfl
    have channel : ∀ {row a more t}, (Query.insertChannel row).eval t = .ok (a, more) → Even [⟨.insertChannel row, a, more⟩] := by
      intro row a more t ran
      refine uncounted_even (fun _ => rfl) fun w inside => ?_
      cases Query.eval_wrote ran with
      | nothing may => cases may
      | insertChannel => exact List.mem_singleton.mp inside ▸ rfl
    refine asked_bind (q := .insertChannel ⟨text, g, false, false⟩) trivial (fun e => closing_fails e) fun ran₄ => ?_
    refine asked_keeps (q := .insertChannel ⟨voice, g, true, false⟩) trivial (fun e => closing_fails e) fun ran₅ => ?_
    exact ⟨_, rfl, fun _ _ => ((even.append (channel ran₄)).append (channel ran₅)).whole⟩

theorem utcNow_bind {α : Type} {f : Nat → Task α} {m : Stage schema} {post : Stage schema → Except AppError α → Prop}
    (rest : ∀ now, (f now).Keeps contract m post) : (ask .utcNow >>= f).Keeps contract m post := by
  refine ⟨trivial, fun now m' same => ⟨trivial, ?_⟩⟩
  rw [(same : m' = m)]
  exact rest now

theorem acceptInviteInTx_keeps :
    (acceptInviteInTx tx token u).Keeps contract (some (tx, [])) fun m r => ∃ journal, m = some (tx, journal) ∧
      ∀ outcome, r = .ok outcome → outcome = .added ∨ outcome = .alreadyMember → Whole journal := by
  refine asked_bind (q := .lockInviteToken token) rfl (fun e => ⟨[], rfl, nofun⟩) fun {row locked t} ran => ?_
  have here : locked = [.lockInvite token row] := by
    simp only [Query.eval] at ran
    split at ran
    · cases ran
    · cases ran
      rfl
  subst here
  refine utcNow_bind fun now => Async.Keeps.ite (fun _ => ⟨_, rfl, ?_⟩) fun _ => ?_
  · rintro outcome same (rfl | rfl) <;> cases same
  refine Async.Keeps.ite (fun _ => ⟨_, rfl, ?_⟩) fun usable => ?_
  · rintro outcome same (rfl | rfl) <;> cases same
  have locks : Write.lockInvite token row ∈
      Lib.Journal.writes (S := schema) ([] ++ [⟨.lockInviteToken token, row, [.lockInvite token row]⟩]) :=
    List.mem_singleton_self _
  have fine : Within ([] ++ [⟨.lockInviteToken token, row, [.lockInvite token row]⟩]) (.addMember row.conversationId u) :=
    ⟨fun w inside => List.mem_singleton.mp inside ▸ rfl, .inr ⟨token, row, locks, rfl⟩⟩
  have settled : ∀ c, owed c ([] ++ [⟨.lockInviteToken token, row, [.lockInvite token row]⟩]) = 0 := fun c => rfl
  refine Async.Keeps.bind ((addMemberInTx_keeps settled fine).mono fun m r added => ?_)
  obtain ⟨more, rfl, even⟩ := added
  cases r with
  | error e => exact ⟨_, rfl, nofun⟩
  | ok b =>
    obtain ⟨even, told⟩ := even b rfl
    have spent : Within ([] ++ [⟨.lockInviteToken token, row, [.lockInvite token row]⟩] ++ more) (.useInviteToken token) := by
      refine ⟨fun w inside => ?_, ⟨row, ?_, by simpa using usable⟩, _, _, b,
        told.mono fun e inside => List.mem_append_right _ inside⟩
      · rw [Journal.writes_append] at inside
        rintro rfl
        rcases List.mem_append.mp inside with old | new
        · cases List.mem_singleton.mp old
        · cases even.free _ new
      · rw [Journal.writes_append]
        exact List.mem_append_left _ locks
    refine asked_bind spent (fun e => ⟨_, rfl, nofun⟩) fun {a used t} ran => ?_
    refine ⟨_, rfl, fun _ _ _ => ⟨fun c => ?_, fun token' row' inside => ?_⟩⟩
    · rw [owed_append, owed_append, settled, even.owed]
      rfl
    · rw [Journal.writes_append, Journal.writes_append] at inside
      rcases List.mem_append.mp inside with old | last
      · rcases List.mem_append.mp old with first | new
        · cases List.mem_singleton.mp first
          exact ⟨_, List.mem_append_right _ (List.mem_singleton_self _), rfl⟩
        · cases even.free _ new
      · rw [Journal.writes_cons, Journal.writes_nil, List.append_nil] at last
        cases Query.eval_wrote ran with
        | nothing may => cases last
        | useInviteToken found => cases List.mem_singleton.mp last

theorem acceptInviteToken_tidy : Tidy (acceptInviteToken token u) := by
  refine Async.Keeps.bind (started_keeps.mono fun m r opened => ?_)
  rcases opened with ⟨tx, rfl, rfl⟩ | ⟨⟨e, rfl⟩, rfl⟩
  · refine Async.Keeps.bind (Async.Keeps.catching (acceptInviteInTx_keeps.mono fun m r closing => ?_))
    obtain ⟨journal, rfl, whole⟩ := closing
    cases r with
    | error e => exact ⟨⟨journal, rfl⟩, fun b m closed => ⟨trivial, closed⟩⟩
    | ok outcome =>
      cases outcome with
      | expired => exact ⟨⟨journal, rfl⟩, fun b m closed => ⟨trivial, closed⟩⟩
      | exhausted => exact ⟨⟨journal, rfl⟩, fun b m closed => ⟨trivial, closed⟩⟩
      | added =>
        refine ⟨⟨journal, rfl, whole _ rfl (.inl rfl)⟩, fun b m closed => ⟨trivial, ?_⟩⟩
        cases b <;> exact closed
      | alreadyMember =>
        refine ⟨⟨journal, rfl, whole _ rfl (.inr rfl)⟩, fun b m closed => ⟨trivial, ?_⟩⟩
        cases b <;> exact closed
  · exact rfl

theorem acceptInvite_tidy : Tidy (acceptInvite auth token) := by
  refine .bind (.of_only (dbCtx_only (query_only rfl))) fun _ => .bind (.of_only okOr_only) fun invite => ?_
  refine .bind (.of_only (ask_only trivial)) fun now => ?_
  refine .bind (.of_only require_only) fun _ => .bind (.of_only require_only) fun _ => ?_
  refine .bind (.of_only (dbCtx_only (query_only rfl))) fun banned => .bind (.of_only require_only) fun _ => ?_
  refine .bind (.of_only (dbCtx_only (query_only rfl))) fun alreadyMember => ?_
  split
  · exact .of_only trivial
  · refine .bind acceptInviteToken_tidy fun outcome => .of_only ?_
    split
    · exact trivial
    · exact trivial
    · exact bind_only announceJoined_only fun _ => trivial
    · exact bind_only announceJoined_only fun _ => trivial

theorem createInvite_only {body : CreateInviteRequest} : (createInvite auth g token body).Only Outside := by
  refine bind_only (dbCtx_only (query_only rfl)) fun _ => bind_only okOr_only fun _ => bind_only require_only fun _ => ?_
  exact bind_only (ask_only trivial) fun _ => dbCtx_only (query_only rfl)

theorem revokeInvite_only : (revokeInvite auth g token).Only Outside :=
  bind_only callerRole_only fun _ => bind_only require_only fun _ => bind_only (dbCtx_only (query_only rfl)) fun _ =>
    require_only

theorem unbanMember_only : (unbanMember auth g u).Only Outside :=
  bind_only callerRole_only fun _ => bind_only require_only fun _ => bind_only (dbCtx_only (query_only rfl)) fun _ =>
    require_only

theorem deleteGroup_only : (deleteGroup auth g).Only Outside :=
  bind_only (dbCtx_only (query_only rfl)) fun _ => require_only

theorem deleteAccount_only {hasBanned : Bool} : (deleteAccount auth hasBanned).Only Outside := by
  refine bind_only (dbCtx_only (query_only rfl)) fun _ => bind_only (ask_only trivial) fun _ => ?_
  exact bind_only (dbCtx_only (ask_only trivial)) fun _ => require_only

theorem call_tidy (call : MembershipCall) : Tidy call.program := by
  cases call with
  | createGroup => exact createGroup_tidy
  | joinGroup => exact joinGroup_tidy
  | addMember => exact addMember_tidy
  | createInvite => exact .of_only (bind_only createInvite_only fun _ => trivial)
  | revokeInvite => exact .of_only revokeInvite_only
  | acceptInvite => exact .bind acceptInvite_tidy fun _ => .of_only trivial
  | removeMember => exact removeMember_tidy
  | leaveGroup => exact leaveGroup_tidy
  | leaveConversation => exact leaveConversation_tidy
  | banMember => exact banMember_tidy
  | unbanMember => exact .of_only unbanMember_only
  | changeMemberRole => exact changeMemberRole_tidy
  | deleteGroup => exact .of_only deleteGroup_only
  | deleteAccount => exact .of_only deleteAccount_only
  | clock => exact .of_only (ask_only trivial)

end Calls

theorem Lasts.governed {ok : List (Event machine) → Event machine → Prop}
    {K : List (Event machine) → (Nat → Stage schema) → State → Prop} (lasts : Lasts ok K) {s : State}
    (base : Base (fun _ => none) s) (start : K [] (fun _ => none) s) {run : List (Move machine AppError Unit)}
    (calls : ∀ move ∈ run, MembershipCalls move) (clear : Clear ok ((World.start s).after run).trace) :
    ((World.start s).after run).Governed contract fun trace stages s => Base stages s ∧ K trace stages s := by
  have made : ∀ move ∈ run, World.Makes (fun t => t.Keeps contract contract.finished fun m _ => contract.Final m) move := by
    intro move inside
    cases move with
    | call t =>
      obtain ⟨call, rfl⟩ := calls _ inside
      exact call_tidy call
    | alone t => exact (calls _ inside).elim
    | _ => exact trivial
  exact World.after_governed lasts.sound (World.start_governed ⟨base, start⟩) made clear

theorem Lasts.holds {ok : List (Event machine) → Event machine → Prop}
    {K : List (Event machine) → (Nat → Stage schema) → State → Prop} (lasts : Lasts ok K) {s : State}
    (base : Base (fun _ => none) s) (start : K [] (fun _ => none) s) {run : List (Move machine AppError Unit)}
    (calls : ∀ move ∈ run, MembershipCalls move) (clear : Clear ok ((World.start s).after run).trace) :
    ∃ stages, Base stages ((World.start s).after run).state ∧
      K ((World.start s).after run).trace stages ((World.start s).after run).state := by
  obtain ⟨stages, governs⟩ := lasts.governed base start calls clear
  exact ⟨stages, governs.fit⟩

def played (turns : List (MembershipCall ⊕ Nat)) : World machine AppError Unit :=
  (World.start (State.new fun _ => some "user")).after (World.schedule MembershipCall.program turns)

theorem schedule_calls (turns : List (MembershipCall ⊕ Nat)) :
    ∀ move ∈ World.schedule MembershipCall.program turns, MembershipCalls move := World.schedule_makes _ turns

end Echo.Groups.Membership
