import Echo.Groups.Discipline

/-! All calls on the group state, and that each of them keeps to the discipline. -/
namespace Echo.Groups
open Echo.Lib
open Echo.Server (Uuid)

inductive Call where
  | createGroup (auth : AuthUser) (groupId textChannel voiceChannel : Uuid) (memberIds : List Uuid)
    (isPublic isEncrypted : Bool)
  | addMember (auth : AuthUser) (groupId userId : Uuid)
  | removeMember (auth : AuthUser) (groupId targetUserId : Uuid)
  | banMember (auth : AuthUser) (groupId targetUserId : Uuid)
  | unbanMember (auth : AuthUser) (groupId targetUserId : Uuid)
  | changeMemberRole (auth : AuthUser) (groupId targetUserId : Uuid) (newRole : Role)
  | leaveGroup (auth : AuthUser) (groupId : Uuid)
  | leaveConversation (auth : AuthUser) (conversationId : Uuid)
  | deleteGroup (auth : AuthUser) (groupId : Uuid)
  | joinGroup (auth : AuthUser) (groupId : Uuid)
  | uploadGroupKey (auth : AuthUser) (groupId : Uuid) (body : UploadGroupKeyRequest)
  | getLatestGroupKey (auth : AuthUser) (groupId : Uuid)
  | deleteChannel (auth : AuthUser) (groupId channelId : Uuid)
  | joinVoiceChannel (auth : AuthUser) (groupId channelId : Uuid)
  | leaveVoiceChannel (auth : AuthUser) (groupId channelId : Uuid)
  | cleanupStaleVoiceSessions
  | handleSocket (userId : Uuid) (deviceId : Int)
  | pingTask (userId : Uuid) (deviceId : Int) (socket time ticks : Nat)
  | handleTyping (senderId conversationId : Uuid) (channelId : Option Uuid)
  | handleReadReceipt (senderId conversationId : Uuid)
  | fanoutMessage (senderId conversationId : Uuid) (content : String)
  /-- What sockets and time do on their own. -/
  | hangUp (socket : Nat)
  | saturate (userId : Uuid) (deviceId : Int) (full : Bool)
  | claim (userId channelId : Uuid) (deviceId : Int)
  | claimIfAbsent (userId channelId : Uuid) (deviceId : Int)
  | clock (milliseconds : Nat)

def ignore {α : Type} (t : Task α) : Task Unit := do
  let _ ← t
  pure ()

def Call.program : Call → Task Unit
  | createGroup auth groupId textChannel voiceChannel memberIds isPublic isEncrypted =>
    Groups.createGroup auth groupId textChannel voiceChannel memberIds isPublic isEncrypted
  | addMember auth groupId userId => Groups.addMember auth groupId userId
  | removeMember auth groupId targetUserId => Groups.removeMember auth groupId targetUserId
  | banMember auth groupId targetUserId => Groups.banMember auth groupId targetUserId
  | unbanMember auth groupId targetUserId => Groups.unbanMember auth groupId targetUserId
  | changeMemberRole auth groupId targetUserId newRole => Groups.changeMemberRole auth groupId targetUserId newRole
  | leaveGroup auth groupId => Groups.leaveGroup auth groupId
  | leaveConversation auth conversationId => Groups.leaveConversation auth conversationId
  | deleteGroup auth groupId => Groups.deleteGroup auth groupId
  | joinGroup auth groupId => Groups.joinGroup auth groupId
  | uploadGroupKey auth groupId body => ignore (Groups.uploadGroupKey auth groupId body)
  | getLatestGroupKey auth groupId => ignore (Groups.getLatestGroupKey auth groupId)
  | deleteChannel auth groupId channelId => Groups.deleteChannel auth groupId channelId
  | joinVoiceChannel auth groupId channelId => Groups.joinVoiceChannel auth groupId channelId
  | leaveVoiceChannel auth groupId channelId => Groups.leaveVoiceChannel auth groupId channelId
  | cleanupStaleVoiceSessions => Groups.cleanupStaleVoiceSessions
  | handleSocket userId deviceId => Groups.handleSocket userId deviceId
  | pingTask userId deviceId socket time ticks => Groups.pingTask userId deviceId socket time ticks
  | handleTyping senderId conversationId channelId => Groups.handleTyping senderId conversationId channelId
  | handleReadReceipt senderId conversationId => Groups.handleReadReceipt senderId conversationId
  | fanoutMessage senderId conversationId content => Groups.fanoutMessage senderId conversationId content
  | hangUp socket => ask (.hangUp socket)
  | saturate userId deviceId full => ask (.saturate userId deviceId full)
  | claim userId channelId deviceId => ignore (ask (.claim userId channelId deviceId))
  | claimIfAbsent userId channelId deviceId => ignore (ask (.claimIfAbsent userId channelId deviceId))
  | clock milliseconds => ask (.clock milliseconds)

def Calls : Move machine AppError Unit → Prop := World.Makes fun t => ∃ call : Call, t = call.program

def schedule (turns : List (Call ⊕ Nat)) : List (Move machine AppError Unit) :=
  turns.map fun
    | .inl call => .call call.program
    | .inr i => .resume i

theorem schedule_calls (turns : List (Call ⊕ Nat)) : ∀ move ∈ schedule turns, Calls move := by
  intro move inside
  obtain ⟨turn, -, rfl⟩ := List.mem_map.mp inside
  cases turn with
  | inl call => exact ⟨call, rfl⟩
  | inr i => exact trivial

def oneByOne (turns : Nat) (calls : List Call) : List (Call ⊕ Nat) :=
  calls.zipIdx.flatMap fun (call, i) => .inl call :: List.replicate turns (.inr i)

section Only
variable {P : Request → Prop} {α β : Type}

theorem ask_only {r : Request} (fine : P r) : (ask r).Only P := ⟨fine, fun _ => trivial⟩

theorem bind_only {t : Task α} {f : α → Task β} (first : t.Only P) (rest : ∀ a, (f a).Only P) :
    (t >>= f).Only P := Async.Only.bind first rest

theorem query_only {q : Query} {tx : Option Nat} (fine : P (.sql (.run tx q))) : (query q tx).Only P := ask_only fine

theorem dbCtx_only {access : Task (Except (Option Refusal) α)} (fine : access.Only P) : (dbCtx access).Only P := by
  refine Async.Only.bind fine fun a => ?_
  cases a <;> exact trivial

theorem unwrapOrDefault_only {rows : Task (Except (Option Refusal) (List α))} (fine : rows.Only P) :
    (unwrapOrDefault rows).Only P := by
  refine Async.Only.bind fine fun a => ?_
  cases a <;> exact trivial

theorem require_only {c : Bool} {e : AppError} : (require c e).Only P := by
  unfold require
  split <;> exact trivial

theorem okOr_only {e : AppError} {o : Option α} : (okOr e o).Only P := by
  cases o <;> exact trivial

theorem lift_only {e : Except AppError α} : (lift e).Only P := by
  cases e <;> exact trivial

theorem when_only {c : Bool} {t : Task Unit} (fine : t.Only P) : (when c t).Only P := by
  unfold when
  split
  · exact fine
  · exact trivial

end Only

def Outside : Request → Prop
  | .sql (.run none q) => q.onPool = true
  | .sql _ => False
  | .deleteUser .. => False
  | _ => True

def Neat {α : Type} (t : Task α) : Prop := t.Keeps contract none fun m _ => m = none

namespace Neat
variable {α β : Type}

theorem of_only {t : Task α} (only : t.Only Outside) : Neat t := by
  refine Async.Only.keeps only (fun {r} fine => ?_) (fun {r a m'} fine moved => ?_) trivial
  · cases r with
    | sql r =>
      cases r with
      | run tx q =>
        cases tx with
        | none => exact fine
        | some tx => exact fine.elim
      | _ => exact fine.elim
    | deleteUser userId hasBanned => exact fine.elim
    | _ => exact trivial
  · cases r with
    | sql r =>
      cases r with
      | run tx q =>
        cases tx with
        | none => exact moved
        | some tx => exact fine.elim
      | _ => exact fine.elim
    | _ => exact moved

theorem bind {t : Task α} {f : α → Task β} (first : Neat t) (rest : ∀ a, Neat (f a)) : Neat (t >>= f) := by
  refine Async.Keeps.bind (first.mono fun m r idle => ?_)
  subst idle
  cases r with
  | ok a => exact rest a
  | error e => exact rfl

theorem catching {t : Task α} {handler : AppError → Task α} (first : Neat t) (handled : ∀ e, Neat (handler e)) :
    Neat (t.catching handler) := by
  refine Async.Keeps.catching (first.mono fun m r idle => ?_)
  subst idle
  cases r with
  | ok a => exact rfl
  | error e => exact handled e

end Neat

/-- The transaction is still open, and may be committed if the call has not failed. -/
def Ready {α : Type} (tx : Nat) (m : Mode) (r : Except AppError α) : Prop :=
  ∃ writes, m = some (tx, writes) ∧ (∀ a, r = .ok a → ∀ c v, writes ≠ [.keyVersion c v])

theorem transaction_neat {α : Type} {body : Nat → Task α}
    (keeps : ∀ tx, (body tx).Keeps contract (some (tx, [])) (Ready tx)) : Neat (transaction body) := by
  have started : (dbCtx (ask (.sql .start))).Keeps contract none fun m r =>
      (∃ tx, r = .ok tx ∧ m = some (tx, [])) ∨ (∃ e, r = .error e) ∧ m = none := by
    refine ⟨rfl, fun a m next => ⟨trivial, ?_⟩⟩
    cases a with
    | error e => exact .inr ⟨⟨_, rfl⟩, next⟩
    | ok tx => exact .inl ⟨tx, rfl, next⟩
  refine Async.Keeps.bind (started.mono fun m r opened => ?_)
  rcases opened with ⟨tx, rfl, rfl⟩ | ⟨⟨e, rfl⟩, rfl⟩
  · refine Async.Keeps.bind (Async.Keeps.catching ((keeps tx).mono fun m r ready => ?_))
    obtain ⟨writes, rfl, whole⟩ := ready
    cases r with
    | ok a =>
      refine ⟨⟨writes, rfl, whole a rfl⟩, fun b m closed => ⟨trivial, ?_⟩⟩
      cases b <;> exact closed
    | error e => exact ⟨⟨writes, rfl⟩, fun b m closed => ⟨trivial, closed⟩⟩
  · exact rfl

theorem query_within {q : Query} {tx : Nat} {writes : List Write} (fine : q.inTransaction writes) :
    (query q (some tx)).Keeps contract (some (tx, writes)) fun m r =>
      (∃ a more t, r = .ok (.ok a) ∧ q.Wrote t more ∧ m = some (tx, writes ++ more)) ∨
        (∃ e, r = .ok (.error e)) ∧ m = some (tx, writes) := by
  refine ⟨⟨writes, rfl, fine⟩, fun a m next => ⟨trivial, ?_⟩⟩
  cases a with
  | error e => exact .inr ⟨⟨e, rfl⟩, next⟩
  | ok a =>
    obtain ⟨before, more, t, mine, ran, rfl⟩ := next
    obtain ⟨-, rfl⟩ := Prod.mk.inj (Option.some.inj mine)
    exact .inl ⟨a, more, t, rfl, Query.eval_wrote ran, rfl⟩

theorem dbCtx_within {q : Query} {tx : Nat} {writes : List Write} (fine : q.inTransaction writes) :
    (dbCtx (query q (some tx))).Keeps contract (some (tx, writes)) fun m r =>
      (∃ a more t, r = .ok a ∧ q.Wrote t more ∧ m = some (tx, writes ++ more)) ∨
        (∃ e, r = .error e) ∧ m = some (tx, writes) := by
  refine Async.Keeps.bind ((query_within fine).mono fun m r answered => ?_)
  rcases answered with ⟨a, more, t, rfl, wrote, rfl⟩ | ⟨⟨e, rfl⟩, rfl⟩
  · exact .inl ⟨a, more, t, rfl, wrote, rfl⟩
  · exact .inr ⟨⟨_, rfl⟩, rfl⟩

section Plain

def Plain (writes : List Write) : Prop := ∀ w ∈ writes, w.isPlain = true

/-- Queries of the transactions that change members, roles and channels. -/
def Query.isPlain : Query → Bool
  | .storeGroupKey _ | .storeGroupKeyEnvelope _ | .insertCompletedRotation _ | .bumpKeyVersion _ => false
  | .purgeEnvelopes _ | .leaveVoiceSessions .. | .joinVoiceChannel .. | .leaveVoiceChannel .. => false
  | .leaveAllUserVoiceSessions _ | .touchUserVoiceSessions _ | .cleanupStaleVoiceSessions _ => false
  | .softDeleteChannel _ | .deleteGroup .. | .forceDeleteConversation _ => false
  | _ => true

def WithinPlain (tx : Nat) : Request → Prop
  | .sql (.run (some i) q) => i = tx ∧ q.isPlain = true
  | _ => False

theorem Query.isPlain_inTransaction {q : Query} {writes : List Write} (plain : q.isPlain = true)
    (before : Plain writes) : q.inTransaction writes := by
  cases q <;> first | exact before | cases plain

theorem Query.isPlain_wrote {q : Query} {t : Tables} {more : List Write} (plain : q.isPlain = true)
    (wrote : q.Wrote t more) : Plain more := by
  unfold Plain
  cases wrote <;> simp_all [Query.isPlain, Write.isPlain, Write.isKey, Write.isVoice, Write.isDeletion]

theorem Plain.append {writes more : List Write} (before : Plain writes) (after : Plain more) :
    Plain (writes ++ more) := by
  intro w inside
  rcases List.mem_append.mp inside with inside | inside
  · exact before w inside
  · exact after w inside

theorem plain_keeps {α : Type} {t : Task α} {tx : Nat} (only : t.Only (WithinPlain tx)) {writes : List Write}
    (before : Plain writes) :
    t.Keeps contract (some (tx, writes)) fun m _ => ∃ writes, m = some (tx, writes) ∧ Plain writes := by
  induction t generalizing writes with
  | done r => exact ⟨writes, rfl, before⟩
  | call r next ih =>
    cases r with
    | sql r =>
      cases r with
      | run i q =>
        cases i with
        | none => exact only.1.elim
        | some i =>
          obtain ⟨rfl, plain⟩ := only.1
          refine ⟨⟨writes, rfl, q.isPlain_inTransaction plain before⟩, fun a m moved => ?_⟩
          cases a with
          | error e =>
            cases moved
            exact ih _ (only.2 _) before
          | ok a =>
            obtain ⟨l, more, t, mine, ran, rfl⟩ := moved
            obtain ⟨-, rfl⟩ := Prod.mk.inj (Option.some.inj mine)
            exact ih _ (only.2 _) (before.append (q.isPlain_wrote plain (Query.eval_wrote ran)))
      | _ => exact only.1.elim
    | _ => exact only.1.elim
  | await next ih => exact ⟨trivial, ih only before⟩

theorem transaction_plain {α : Type} {body : Nat → Task α} (only : ∀ tx, (body tx).Only (WithinPlain tx)) :
    Neat (transaction body) := by
  have nothing : Plain [] := nofun
  refine transaction_neat fun tx => (plain_keeps (only tx) nothing).mono ?_
  rintro m r ⟨writes, rfl, plain⟩
  refine ⟨writes, rfl, fun _ _ c v same => ?_⟩
  have := plain (.keyVersion c v) (same ▸ List.mem_singleton_self _)
  cases this

end Plain

section Lookups
variable {c u : Uuid}

theorem checkMembershipCached_only : (checkMembershipCached c u).Only Outside := by
  refine bind_only (ask_only trivial) fun cached => ?_
  split
  · exact trivial
  · refine bind_only (query_only rfl) fun answer => ?_
    split
    · exact trivial
    · split
      · exact bind_only (ask_only trivial) fun _ => trivial
      · exact bind_only (ask_only trivial) fun _ => trivial

theorem getMemberIdsCached_only : (getMemberIdsCached c).Only Outside := by
  refine bind_only (ask_only trivial) fun cached => ?_
  split
  · exact trivial
  · refine bind_only (query_only rfl) fun answer => ?_
    split
    · exact trivial
    · exact bind_only (ask_only trivial) fun _ => trivial

theorem getConversationKindCached_only : (getConversationKindCached c).Only Outside := by
  refine bind_only (ask_only trivial) fun cached => ?_
  split
  · exact trivial
  · refine bind_only (query_only rfl) fun answer => ?_
    split
    · exact bind_only (ask_only trivial) fun _ => trivial
    · exact trivial

theorem broadcastToConversation_only {n : Notice} : (broadcastToConversation c n).Only Outside := by
  refine bind_only (query_only rfl) fun answer => ?_
  split
  · exact trivial
  · exact ask_only trivial

theorem memberIds_only : (unwrapOrDefault (query (.memberIds c) none)).Only Outside :=
  unwrapOrDefault_only (query_only rfl)

theorem callerRole_only {P : Request → Prop} {tx : Option Nat} (fine : P (.sql (.run tx (.memberRole c u)))) :
    (callerRole tx c u).Only P := bind_only (dbCtx_only (query_only fine)) fun _ => okOr_only

theorem broadcastMemberSystemMessage_only {a v : Uuid} {text : String} {all : List Uuid} :
    (broadcastMemberSystemMessage c a text v all).Only Outside := by
  refine bind_only (query_only rfl) fun answer => ?_
  split
  · exact trivial
  · exact ask_only trivial

end Lookups

section Members
variable {auth : AuthUser} {c u : Uuid}

theorem onlineSubset_only {members : List Uuid} : (onlineSubset members).Only Outside := by
  induction members with
  | nil => exact trivial
  | cons member members ih => exact bind_only (ask_only trivial) fun _ => bind_only ih fun _ => trivial

theorem broadcastRotationRequested_only {v : Int} : (broadcastRotationRequested c v).Only Outside := by
  refine bind_only (query_only rfl) fun answer => ?_
  split
  · exact trivial
  · refine bind_only onlineSubset_only fun online => ?_
    split
    · exact trivial
    · exact broadcastToConversation_only

theorem bumpKeyVersionAndPurgeEnvelopes_neat : Neat (bumpKeyVersionAndPurgeEnvelopes c) := by
  refine transaction_neat fun tx => ?_
  refine Async.Keeps.bind ((dbCtx_within (q := .bumpKeyVersion c) rfl).mono fun m r bumped => ?_)
  rcases bumped with ⟨a, more, t, rfl, wrote, rfl⟩ | ⟨⟨e, rfl⟩, rfl⟩
  · cases wrote with
    | nothing may => cases may
    | bumpKeyVersion known =>
      refine Async.Keeps.bind ((dbCtx_within (q := .purgeEnvelopes c) ⟨_, rfl⟩).mono fun m r purged => ?_)
      rcases purged with ⟨a, more, t, rfl, wrote, rfl⟩ | ⟨⟨e, rfl⟩, rfl⟩
      · cases wrote with
        | nothing may => cases may
        | purgeEnvelopes => exact ⟨_, rfl, fun _ _ c v => by simp⟩
      · exact ⟨_, rfl, nofun⟩
  · exact ⟨[], rfl, nofun⟩

theorem rotateGroupKeyAfterMemberLoss_neat : Neat (rotateGroupKeyAfterMemberLoss c) := by
  refine .bind (.of_only (query_only rfl)) fun answer => ?_
  split
  · exact .of_only trivial
  · split
    · exact .catching
        (.bind bumpKeyVersionAndPurgeEnvelopes_neat fun _ => .of_only broadcastRotationRequested_only)
        fun _ => .of_only trivial
    · exact .of_only trivial

theorem afterMemberLoss_neat {actor : Uuid} {action : String} : Neat (afterMemberLoss c actor u action) := by
  refine .bind (.of_only memberIds_only) fun remaining => ?_
  split
  · exact .of_only (bind_only (query_only rfl) fun _ => trivial)
  · refine .bind rotateGroupKeyAfterMemberLoss_neat fun _ => .of_only (bind_only (query_only rfl) fun answer => ?_)
    split
    · exact broadcastMemberSystemMessage_only
    · exact trivial

section Within
variable {tx : Nat} {q : Query}

theorem dbCtx_plain (plain : q.isPlain = true) : (dbCtx (query q (some tx))).Only (WithinPlain tx) :=
  dbCtx_only (query_only ⟨rfl, plain⟩)

theorem removeMemberInTx_only : (removeMemberInTx tx c u).Only (WithinPlain tx) :=
  bind_only (dbCtx_plain rfl) fun _ => bind_only (when_only (dbCtx_plain rfl)) fun _ => trivial

theorem addMemberInTx_only : (addMemberInTx tx c u).Only (WithinPlain tx) :=
  bind_only (dbCtx_plain rfl) fun _ => bind_only (when_only (dbCtx_plain rfl)) fun _ => trivial

theorem banMemberInTx_only : (banMemberInTx tx c u).Only (WithinPlain tx) :=
  bind_only removeMemberInTx_only fun _ => dbCtx_plain rfl

theorem callerRole_plain : (callerRole (some tx) c u).Only (WithinPlain tx) := callerRole_only ⟨rfl, rfl⟩

theorem memberIds_plain : (unwrapOrDefault (query (.memberIds c) (some tx))).Only (WithinPlain tx) :=
  unwrapOrDefault_only (query_only ⟨rfl, rfl⟩)

theorem insertMembers_only {members : List Uuid} : (insertMembers tx c u members).Only (WithinPlain tx) := by
  induction members with
  | nil => exact trivial
  | cons member members ih =>
    unfold insertMembers
    split
    · exact ih
    · exact bind_only (dbCtx_plain rfl) fun _ => bind_only ih fun _ => trivial

end Within

theorem addMember_neat : Neat (addMember auth c u) := by
  refine .bind (.of_only (dbCtx_only (query_only rfl))) fun found => .bind (.of_only okOr_only) fun username => ?_
  refine .bind (transaction_plain fun tx => ?_) fun members => ?_
  · refine bind_only (dbCtx_plain rfl) fun _ => bind_only callerRole_plain fun _ => ?_
    refine bind_only (dbCtx_plain rfl) fun _ => bind_only require_only fun _ => ?_
    refine bind_only (dbCtx_plain rfl) fun _ => bind_only require_only fun _ => ?_
    refine bind_only (dbCtx_plain rfl) fun _ => bind_only require_only fun _ => ?_
    refine bind_only (dbCtx_plain rfl) fun _ => bind_only require_only fun _ => ?_
    exact bind_only addMemberInTx_only fun _ => bind_only require_only fun _ => memberIds_plain
  · exact .of_only (bind_only (ask_only trivial) fun _ => bind_only (ask_only trivial) fun _ =>
      broadcastMemberSystemMessage_only)

theorem removeMember_neat : Neat (removeMember auth c u) := by
  refine .bind (transaction_plain fun tx => ?_) fun _ =>
    .bind (.of_only (ask_only trivial)) fun _ => afterMemberLoss_neat
  refine bind_only (dbCtx_plain rfl) fun _ => bind_only callerRole_plain fun _ => ?_
  refine bind_only require_only fun _ => ?_
  refine bind_only (when_only (bind_only (dbCtx_plain rfl) fun _ => require_only)) fun _ => ?_
  exact bind_only removeMemberInTx_only fun _ => require_only

theorem banMember_neat : Neat (banMember auth c u) := by
  refine .bind (transaction_plain fun tx => ?_) fun _ =>
    .bind (.of_only (ask_only trivial)) fun _ => afterMemberLoss_neat
  refine bind_only (dbCtx_plain rfl) fun _ => bind_only callerRole_plain fun _ => ?_
  refine bind_only require_only fun _ => bind_only (dbCtx_plain rfl) fun _ => ?_
  refine bind_only require_only fun _ => bind_only require_only fun _ => ?_
  exact bind_only banMemberInTx_only fun _ => trivial

theorem unbanMember_only : (unbanMember auth c u).Only Outside :=
  bind_only (callerRole_only rfl) fun _ => bind_only require_only fun _ =>
    bind_only (dbCtx_only (query_only rfl)) fun _ => require_only

theorem changeMemberRole_neat {role : Role} : Neat (changeMemberRole auth c u role) := by
  refine .bind (.of_only require_only) fun _ => .bind (.of_only require_only) fun _ => ?_
  refine .bind (transaction_plain fun tx => ?_) fun _ =>
    .of_only (bind_only (ask_only trivial) fun _ => ask_only trivial)
  refine bind_only (dbCtx_plain rfl) fun _ => bind_only callerRole_plain fun _ => ?_
  refine bind_only require_only fun _ => bind_only (dbCtx_plain rfl) fun _ => bind_only okOr_only fun _ => ?_
  refine bind_only require_only fun _ => bind_only (dbCtx_plain rfl) fun _ => ?_
  exact bind_only require_only fun _ => memberIds_plain

theorem removeMemberTx_neat : Neat (removeMemberTx c u) := transaction_plain fun _ => removeMemberInTx_only

theorem ensureNotOwnerOfOthers_only : (ensureNotOwnerOfOthers c u).Only Outside :=
  bind_only (dbCtx_only (query_only rfl)) fun _ => when_only (bind_only memberIds_only fun _ => require_only)

theorem leaveGroup_neat : Neat (leaveGroup auth c) := by
  refine .bind (.of_only ensureNotOwnerOfOthers_only) fun _ => .bind (.of_only (query_only rfl)) fun leaver => ?_
  refine .bind removeMemberTx_neat fun _ => .bind (.of_only require_only) fun _ => ?_
  refine .bind (.of_only (ask_only trivial)) fun _ => .bind (.of_only memberIds_only) fun remaining => ?_
  split
  · exact .of_only (bind_only (query_only rfl) fun _ => trivial)
  · refine .bind rotateGroupKeyAfterMemberLoss_neat fun _ => .of_only ?_
    split
    · exact broadcastMemberSystemMessage_only
    · exact trivial

theorem leaveConversation_neat : Neat (leaveConversation auth c) := by
  refine .bind (.of_only ensureNotOwnerOfOthers_only) fun _ => ?_
  refine .bind removeMemberTx_neat fun _ => .bind (.of_only require_only) fun _ => ?_
  refine .bind (.of_only (ask_only trivial)) fun _ => .bind (.of_only memberIds_only) fun remaining => ?_
  exact .of_only (when_only (bind_only (query_only rfl) fun _ => trivial))

theorem deleteGroup_only : (deleteGroup auth c).Only Outside :=
  bind_only (dbCtx_only (query_only rfl)) fun _ => require_only

theorem joinGroup_neat : Neat (joinGroup auth c) := by
  refine .bind (.of_only (dbCtx_only (query_only rfl))) fun _ => .bind (.of_only require_only) fun _ => ?_
  refine .bind (.of_only (dbCtx_only (query_only rfl))) fun _ => .bind (.of_only require_only) fun _ => ?_
  refine .bind (transaction_plain fun tx => ?_) fun _ => .bind (.of_only require_only) fun _ => ?_
  · exact bind_only (dbCtx_plain rfl) fun _ => bind_only (when_only (dbCtx_plain rfl)) fun _ => trivial
  · refine .of_only (bind_only (ask_only trivial) fun _ => bind_only (query_only rfl) fun joiner => ?_)
    refine bind_only memberIds_only fun existing => ?_
    split
    · exact bind_only (ask_only trivial) fun _ => broadcastMemberSystemMessage_only
    · exact trivial

theorem createGroup_neat {text voice : Uuid} {members : List Uuid} {shown encrypted : Bool} :
    Neat (createGroup auth c text voice members shown encrypted) := by
  refine transaction_plain fun tx => ?_
  refine bind_only (dbCtx_plain rfl) fun _ => bind_only (dbCtx_plain rfl) fun _ => ?_
  refine bind_only insertMembers_only fun _ => bind_only (dbCtx_plain rfl) fun _ => ?_
  exact bind_only (dbCtx_plain rfl) fun _ => dbCtx_plain rfl

end Members

section Keys
variable {auth : AuthUser} {c : Uuid} {body : UploadGroupKeyRequest} {tx : Nat} {writes : List Write}

def Storing {α : Type} (tx : Nat) (c : Uuid) (v : Int) (m : Mode) (_ : Except AppError α) : Prop :=
  ∃ writes, m = some (tx, writes) ∧ Uploading c v writes

theorem storeEnvelopes_keeps (envelopes : List KeyEnvelope) (up : Uploading c body.keyVersion writes) :
    (storeEnvelopes tx c body envelopes).Keeps contract (some (tx, writes)) (Storing tx c body.keyVersion) := by
  induction envelopes generalizing writes with
  | nil => exact ⟨writes, rfl, up⟩
  | cons envelope envelopes ih =>
    have fine : (Query.storeGroupKeyEnvelope (envelopeRow c body envelope)).inTransaction writes := up
    refine Async.Keeps.bind ((dbCtx_within fine).mono fun m r stored => ?_)
    rcases stored with ⟨a, more, t, rfl, wrote, rfl⟩ | ⟨⟨e, rfl⟩, rfl⟩
    · cases wrote with
      | nothing may => cases may
      | storeGroupKeyEnvelope => exact ih (up.append (by simp [Write.isPartOf, envelopeRow]))
    · exact ⟨writes, rfl, up⟩

theorem Uploading.whole {v : Int} (up : Uploading c v writes) (c' : Uuid) (v' : Int) :
    writes ≠ [.keyVersion c' v'] := by
  rintro rfl
  obtain ⟨row, rest, same, -⟩ := up
  cases same

theorem ensureEnvelopesTargetMembers_keeps {envelopes : List KeyEnvelope} :
    (ensureEnvelopesTargetMembers tx c envelopes).Keeps contract (some (tx, [])) fun m _ => m = some (tx, []) := by
  have fine : (Query.memberIds c).inTransaction [] := fun _ inside => (List.not_mem_nil inside).elim
  refine Async.Keeps.bind ((dbCtx_within fine).mono fun m r read => ?_)
  rcases read with ⟨a, more, t, rfl, wrote, rfl⟩ | ⟨⟨e, rfl⟩, rfl⟩
  · cases wrote with
    | nothing may =>
      simp only [List.append_nil, lift]
      split <;> exact rfl
  · exact rfl

theorem storeGroupKey_keeps {row : GroupKeyRow} :
    (storeGroupKey tx row).Keeps contract (some (tx, [])) fun m r =>
      (∃ a, r = .ok a) ∧ m = some (tx, [.groupKey row]) ∨ (∃ e, r = .error e) ∧ m = some (tx, []) := by
  have fine : (Query.storeGroupKey row).inTransaction [] := rfl
  refine Async.Keeps.bind ((query_within fine).mono fun m r stored => ?_)
  rcases stored with ⟨a, more, t, rfl, wrote, rfl⟩ | ⟨⟨e, rfl⟩, rfl⟩
  · cases wrote with
    | nothing may => cases may
    | storeGroupKey known unused => exact .inl ⟨⟨(), rfl⟩, rfl⟩
  · exact .inr ⟨⟨_, rfl⟩, rfl⟩

theorem persistGroupKeyAndEnvelopes_neat {u : Uuid} : Neat (persistGroupKeyAndEnvelopes c u body) := by
  refine transaction_neat fun tx => ?_
  refine Async.Keeps.bind (ensureEnvelopesTargetMembers_keeps.mono fun m r same => ?_)
  subst same
  cases r with
  | error e => exact ⟨[], rfl, nofun⟩
  | ok _ =>
    refine Async.Keeps.bind (storeGroupKey_keeps.mono fun m r stored => ?_)
    rcases stored with ⟨⟨a, rfl⟩, rfl⟩ | ⟨⟨e, rfl⟩, rfl⟩
    · have up : Uploading c body.keyVersion [.groupKey (sentinelRow c u body)] := ⟨_, [], rfl, rfl, rfl, by simp⟩
      refine Async.Keeps.bind ((storeEnvelopes_keeps body.envelopes up).mono fun m r stored => ?_)
      obtain ⟨writes, rfl, up⟩ := stored
      cases r with
      | error e => exact ⟨writes, rfl, nofun⟩
      | ok _ =>
        have fine : (Query.insertCompletedRotation (rotationRow c u body)).inTransaction writes := up
        refine Async.Keeps.bind ((dbCtx_within fine).mono fun m r logged => ?_)
        rcases logged with ⟨a, more, t, rfl, wrote, rfl⟩ | ⟨⟨e, rfl⟩, rfl⟩
        · cases wrote with
          | nothing may => cases may
          | insertCompletedRotation =>
            have part : ∀ w ∈ [Write.rotation (rotationRow c u body)], w.isPartOf c body.keyVersion = true := by
              simp [Write.isPartOf, rotationRow]
            have whole := up.append part
            exact ⟨_, rfl, fun _ _ => whole.whole⟩
        · exact ⟨writes, rfl, nofun⟩
    · exact ⟨[], rfl, nofun⟩

theorem requireAdminOrAbove_only {u : Uuid} : (requireAdminOrAbove c u).Only Outside :=
  bind_only (dbCtx_only (query_only rfl)) fun _ => bind_only okOr_only fun _ => require_only

theorem uploadGroupKey_neat : Neat (uploadGroupKey auth c body) := by
  refine .bind (.of_only requireAdminOrAbove_only) fun _ => .bind (.of_only lift_only) fun _ => ?_
  refine .bind persistGroupKeyAndEnvelopes_neat fun row => .of_only ?_
  refine bind_only (bind_only memberIds_only fun members => ?_) fun _ => trivial
  exact bind_only (ask_only trivial) fun _ => ask_only trivial

theorem getLatestGroupKey_only : (getLatestGroupKey auth c).Only Outside := by
  refine bind_only (dbCtx_only (query_only rfl)) fun _ => bind_only require_only fun _ => ?_
  refine bind_only (dbCtx_only (query_only rfl)) fun envelope => ?_
  cases envelope with
  | some row => exact trivial
  | none =>
    refine bind_only (dbCtx_only (query_only rfl)) fun latest => bind_only okOr_only fun row => ?_
    split <;> exact trivial

end Keys

section Voice
variable {auth : AuthUser} {g ch u : Uuid}

theorem ensureGroupMember_only : (ensureGroupMember g u).Only Outside :=
  bind_only (dbCtx_only (query_only rfl)) fun _ => bind_only okOr_only fun _ =>
    bind_only require_only fun _ => require_only

theorem ensureGroupAdmin_only : (ensureGroupAdmin g u).Only Outside :=
  bind_only (dbCtx_only (query_only rfl)) fun _ => bind_only okOr_only fun _ =>
    bind_only require_only fun _ => require_only

theorem ensureChannelInGroup_only : (ensureChannelInGroup g ch).Only Outside :=
  bind_only (dbCtx_only (query_only rfl)) fun _ => bind_only okOr_only fun _ =>
    bind_only require_only fun _ => trivial

theorem ensureVoiceChannel_only : (ensureVoiceChannel g ch u).Only Outside :=
  bind_only ensureGroupMember_only fun _ => bind_only ensureChannelInGroup_only fun _ =>
    bind_only require_only fun _ => trivial

theorem deleteChannel_only : (deleteChannel auth g ch).Only Outside :=
  bind_only ensureGroupAdmin_only fun _ => bind_only ensureChannelInGroup_only fun _ =>
    bind_only (dbCtx_only (query_only rfl)) fun _ => bind_only require_only fun _ => broadcastToConversation_only

theorem leaveAndJoinVoiceChannel_neat : Neat (leaveAndJoinVoiceChannel g ch u) := by
  refine transaction_neat fun tx => ?_
  refine Async.Keeps.bind ((dbCtx_within (q := .leaveVoiceSessions g u) rfl).mono fun m r left => ?_)
  rcases left with ⟨a, more, t, rfl, wrote, rfl⟩ | ⟨⟨e, rfl⟩, rfl⟩
  · have ends : ∀ w ∈ ([] ++ more : List Write), w.endsFor u = true := by
      cases wrote with
      | nothing may => simp
      | leaveVoiceSessions =>
        exact ended_endsFor fun v inside => (by simpa using (List.mem_filter.mp inside).2 : _ ∧ _).1
    refine Async.Keeps.bind ((dbCtx_within (q := .joinVoiceChannel ch u) ends).mono fun m r joined => ?_)
    rcases joined with ⟨a, last, t, rfl, wrote, rfl⟩ | ⟨⟨e, rfl⟩, rfl⟩
    · cases wrote with
      | nothing may => cases may
      | joinVoiceChannel row known =>
        refine ⟨_, rfl, fun _ _ c v same => ?_⟩
        have last := congrArg List.getLast? same
        simp at last
    · exact ⟨_, rfl, nofun⟩
  · exact ⟨[], rfl, nofun⟩

theorem announceLeft_only {to' : Uuid} {removed : List Uuid} : (announceLeft g u to' removed).Only Outside := by
  induction removed with
  | nil => exact trivial
  | cons old removed ih =>
    unfold announceLeft
    split
    · exact ih
    · exact bind_only (ask_only trivial) fun _ => bind_only broadcastToConversation_only fun _ => ih

theorem joinVoiceChannel_neat : Neat (joinVoiceChannel auth g ch) := by
  refine .bind (.of_only ensureVoiceChannel_only) fun channel => ?_
  refine .bind leaveAndJoinVoiceChannel_neat fun (removed, joined) => .of_only ?_
  exact bind_only announceLeft_only fun _ => broadcastToConversation_only

theorem leaveVoiceChannel_only : (leaveVoiceChannel auth g ch).Only Outside :=
  bind_only ensureVoiceChannel_only fun _ => bind_only (dbCtx_only (query_only rfl)) fun _ =>
    when_only (bind_only (ask_only trivial) fun _ => broadcastToConversation_only)

theorem announceEnded_only {removed : List (Uuid × Uuid)} : (announceEnded u removed).Only Outside := by
  induction removed with
  | nil => exact trivial
  | cons session removed ih =>
    refine bind_only (ask_only trivial) fun _ => bind_only getMemberIdsCached_only fun members => ?_
    split
    · exact bind_only (ask_only trivial) fun _ => ih
    · exact ih

theorem cleanupUserVoiceSessions_only : (cleanupUserVoiceSessions u).Only Outside := by
  refine bind_only (query_only rfl) fun answer => ?_
  split
  · exact trivial
  · exact announceEnded_only

theorem announceStale_only {removed : List (Uuid × Uuid × Uuid)} : (announceStale removed).Only Outside := by
  induction removed with
  | nil => exact trivial
  | cons session removed ih =>
    exact bind_only (ask_only trivial) fun _ => bind_only broadcastToConversation_only fun _ => ih

theorem cleanupStaleVoiceSessions_only : cleanupStaleVoiceSessions.Only Outside := by
  refine bind_only (query_only rfl) fun answer => ?_
  split
  · exact trivial
  · exact announceStale_only

theorem pingTask_only {d : Int} {k time ticks : Nat} : (pingTask u d k time ticks).Only Outside := by
  induction ticks generalizing time with
  | zero => exact trivial
  | succ ticks ih =>
    refine bind_only (ask_only trivial) fun ticked => ?_
    split
    · exact bind_only (ask_only trivial) fun _ => bind_only (query_only rfl) fun _ =>
        bind_only (ask_only trivial) fun _ => when_only ih
    · exact trivial

theorem handleSocket_only {d : Int} : (handleSocket u d).Only Outside :=
  bind_only (ask_only trivial) fun _ => bind_only (ask_only trivial) fun _ =>
    bind_only (ask_only trivial) fun _ => bind_only (ask_only trivial) fun _ => cleanupUserVoiceSessions_only

end Voice

section Broadcasts
variable {c u : Uuid}

theorem broadcastCached_only {n : Notice} : (broadcastCached c n u).Only Outside := by
  refine bind_only getMemberIdsCached_only fun members => ?_
  split
  · exact trivial
  · exact ask_only trivial

theorem handleTyping_only {ch : Option Uuid} : (handleTyping u c ch).Only Outside := by
  refine bind_only checkMembershipCached_only fun _ => when_only ?_
  refine bind_only getConversationKindCached_only fun kind => ?_
  split
  · exact trivial
  · refine bind_only ?_ fun _ => when_only broadcastCached_only
    unfold isTypingChannel
    split
    · refine bind_only (query_only rfl) fun answer => ?_
      split <;> exact trivial
    · exact trivial

theorem handleReadReceipt_only : (handleReadReceipt u c).Only Outside := by
  refine bind_only checkMembershipCached_only fun _ => when_only (bind_only (query_only rfl) fun answer => ?_)
  split
  · exact bind_only (query_only rfl) fun _ => broadcastCached_only
  · exact trivial

theorem fanoutMessage_only {content : String} : (fanoutMessage u c content).Only Outside := by
  refine bind_only getMemberIdsCached_only fun members => ?_
  split
  · exact trivial
  · exact bind_only (unwrapOrDefault_only (query_only rfl)) fun _ => ask_only trivial

end Broadcasts

theorem Call.neat (call : Call) : Neat call.program := by
  cases call with
  | createGroup => exact createGroup_neat
  | addMember => exact addMember_neat
  | removeMember => exact removeMember_neat
  | banMember => exact banMember_neat
  | unbanMember => exact .of_only unbanMember_only
  | changeMemberRole => exact changeMemberRole_neat
  | leaveGroup => exact leaveGroup_neat
  | leaveConversation => exact leaveConversation_neat
  | deleteGroup => exact .of_only deleteGroup_only
  | joinGroup => exact joinGroup_neat
  | uploadGroupKey => exact .bind uploadGroupKey_neat fun _ => .of_only trivial
  | getLatestGroupKey => exact .of_only (bind_only getLatestGroupKey_only fun _ => trivial)
  | deleteChannel => exact .of_only deleteChannel_only
  | joinVoiceChannel => exact joinVoiceChannel_neat
  | leaveVoiceChannel => exact .of_only leaveVoiceChannel_only
  | cleanupStaleVoiceSessions => exact .of_only cleanupStaleVoiceSessions_only
  | handleSocket => exact .of_only handleSocket_only
  | pingTask => exact .of_only pingTask_only
  | handleTyping => exact .of_only handleTyping_only
  | handleReadReceipt => exact .of_only handleReadReceipt_only
  | fanoutMessage => exact .of_only fanoutMessage_only
  | hangUp | saturate | clock => exact .of_only (ask_only trivial)
  | claim | claimIfAbsent => exact .of_only (bind_only (ask_only trivial) fun _ => trivial)

theorem Lasts.holds {ok : List (Event machine) → Event machine → Prop}
    {K : List (Event machine) → (Nat → Mode) → State → Prop} (lasts : Lasts ok K) {s : State}
    {run : List (Move machine AppError Unit)} (calls : ∀ move ∈ run, Calls move)
    (idle : s.store.writes = fun _ => []) (start : K [] (fun _ => none) s)
    (clear : Clear ok ((World.start s).after run).trace) :
    ∃ modes, Base modes ((World.start s).after run).state.store ∧
      K ((World.start s).after run).trace modes ((World.start s).after run).state := by
  have base : Base (fun _ => none) s.store := by
    refine ⟨⟨nofun, nofun, fun {tx} some' => (some' (congrFun idle tx)).elim⟩, trivial, ?_, ?_, ?_⟩
    · intro i
      rw [idle]
      exact .plain fun _ inside => (List.not_mem_nil inside).elim
    · intro i j _
      rw [idle]
      exact fun _ inside => (List.not_mem_nil inside).elim
    · intro i _
      exact congrFun idle i
  have made : ∀ move ∈ run, World.Makes (fun t => t.Keeps contract contract.finished fun m _ => contract.Final m) move := by
    intro move inside
    cases move with
    | call t =>
      obtain ⟨call, rfl⟩ := calls _ inside
      exact call.neat
    | alone t => exact (calls _ inside).elim
    | _ => exact trivial
  obtain ⟨modes, fit, -, -⟩ := World.after_governed lasts.sound (World.start_governed ⟨base, start⟩) made clear
  exact ⟨modes, fit⟩

end Echo.Groups
