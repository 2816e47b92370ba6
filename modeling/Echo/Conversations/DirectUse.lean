import Echo.Conversations.OnePerPair

/-! What a direct conversation is good for once it has been found: both are in it, and a message of
either reaches the other through it, as long as neither leaves. -/
namespace Echo.Conversations.Direct
open Echo.Lib
open Echo.Server (Uuid)

section Exec
variable {s : State} {q : Query} {a : q.Result}

theorem exec_query {writes : List Write} (healthy : s.faults = []) (ran : q.eval s.tables = .ok (a, writes))
    (free : s.store.isFree none writes = true) :
    (query q none).exec s = (.done (.ok a), s.performed (s.store.record none writes)) := by
  have answered : machine.perform (.sql (.run none q)) s = some (.ok a, s.performed (s.store.record none writes)) := by
    have performed : s.store.perform false (.run none q) = _ := Store.perform_run_ok ran free
    change s.sqlPerform (.run none q) = _
    rw [State.sqlPerform, State.fault, healthy]
    simp only [List.headD_nil, performed, Option.map_some]
    rfl
  exact Async.exec_call answered _

theorem exec_read (healthy : s.faults = []) (ran : q.eval s.tables = .ok (a, [])) :
    (query q none).exec s = (.done (.ok a), s) := by
  have free : s.store.isFree none [] = true :=
    List.all_eq_true.mpr fun i _ => decide_eq_true (.inr fun w inside => absurd inside List.not_mem_nil)
  rw [exec_query healthy ran free]
  rcases s with ⟨store, faults⟩
  cases healthy
  rfl

end Exec

section Use
variable {trace : List Event} {modes : Nat → Mode} {s : State} {pair : Uuid × Uuid} {c : Uuid}

/-- A message of one of the two: into the conversation, or to the other by name. -/
structure Between (t : Tables) (pair : Uuid × Uuid) (c : Uuid) (m : SendMessage) : Prop where
  sender : m.senderId = pair.1 ∨ m.senderId = pair.2
  addressed : m.conversationId = some c ∨ m.conversationId = none ∧ ∃ other, m.toUserId = some other ∧
    canonical m.senderId other = pair ∧ t.areContacts m.senderId other = true
  unused : ∀ row ∈ t.messages, row.id ≠ m.messageId

def SendMessage.row (m : SendMessage) (c : Uuid) : Message := ⟨m.messageId, c, m.senderId, m.content⟩

/-- Both are active members; a message of either is stored there, and both can list the conversation
and read it. -/
structure State.Usable (s : State) (pair : Uuid × Uuid) (c : Uuid) : Prop where
  members : s.tables.isMember c pair.1 = true ∧ s.tables.isMember c pair.2 = true
  reaches : ∀ m, Between s.tables pair c m → ∃ s', (handleSendMessage m).exec { s with faults := [] } =
      (.done (.ok (m.row c)), s') ∧ ∀ u, u = pair.1 ∨ u = pair.2 → s'.tables.lists u c = true ∧
        ∃ page, s'.tables.getMessages u c = some page ∧ m.row c ∈ page

theorem Tables.IsDm.isMember {t : Tables} {userA userB u : Uuid} (isDm : t.IsDm c userA userB)
    (one : u = userA ∨ u = userB) : t.isMember c u = true := by
  rw [Tables.isMember, isDm.2 u, if_pos one]
  rfl

theorem Settled.free_message (settled : Settled trace modes s.store) (row : Message) :
    s.store.isFree none [.message row] = true := by
  refine List.all_eq_true.mpr fun i _ => decide_eq_true (.inr ?_)
  intro w written k mine v pending theirs
  cases List.mem_singleton.mp written
  cases List.mem_singleton.mp (mine : k ∈ [Key.message row.id])
  have free := settled.drafts.pending i v pending
  have theirs : Key.message row.id ∈ Write.keys v := theirs
  cases v with
  | deleted | message => exact free
  | advisoryLock | conversation | member | direct | touch | removed => simp [Write.keys] at theirs

theorem exec_resolve (healthy : s.faults = []) {m : SendMessage} (between : Between s.tables pair c m)
    (isDm : s.tables.IsDm c pair.1 pair.2) (there : s.tables.directConversations pair = some c) :
    (resolveConversation m).exec s = (.done (.ok c), s) := by
  have member := isDm.isMember between.sender
  rcases between.addressed with named | ⟨unnamed, other, to', same, contacts⟩
  · simp only [resolveConversation, named]
    refine (Async.exec_bind_ok (exec_read (q := .isMember c m.senderId) (a := (true : Bool)) healthy ?_)).trans rfl
    rw [Query.eval, member]
  · simp only [resolveConversation, unnamed, to']
    refine (Async.exec_bind_ok
      (exec_read (q := .areContacts m.senderId other) (a := (true : Bool)) healthy ?_)).trans ?_
    · rw [Query.eval, contacts]
    · have found : (findOrCreateDmConversation m.senderId other m.fresh).exec s = (.done (.ok c), s) := by
        refine (Async.exec_bind_ok (exec_read (q := .findDirect _) (a := some c) healthy ?_)).trans rfl
        rw [Query.eval, same, there]
      exact (Async.exec_bind_ok found).trans rfl

theorem Settled.usable (settled : Settled trace modes s.store)
    (there : s.store.tables.directConversations pair = some c) : s.Usable pair c := by
  have isDm : s.tables.IsDm c pair.1 pair.2 := settled.registered.isDm there
  refine ⟨⟨isDm.isMember (.inl rfl), isDm.isMember (.inr rfl)⟩, ?_⟩
  intro m between
  let calm : State := { s with faults := [] }
  have stored : Query.eval (.storeMessage (m.row c)) calm.tables = .ok ((), [.message (m.row c)]) := by
    have unused : (s.tables.messages.any fun row => row.id = (m.row c).id) = false :=
      List.any_eq_false.mpr fun row inside => by
        rw [decide_eq_true_eq]
        exact between.unused row inside
    have found : (s.tables.conversations (m.row c).conversationId).isSome = true := by
      rw [SendMessage.row, isDm.1]
      rfl
    change Query.eval (.storeMessage (m.row c)) s.tables = _
    rw [Query.eval, unused, found]
    rfl
  refine ⟨calm.performed (calm.store.record none [.message (m.row c)]), ?_, ?_⟩
  · refine (Async.exec_bind_ok (exec_resolve (s := calm) rfl between isDm there)).trans ?_
    refine (Async.exec_bind_ok (exec_read (s := calm) (q := .conversationSecurity c)
      (a := (some ⟨.direct, true⟩ : Option Conversation)) rfl ?_)).trans ?_
    · exact congrArg (fun found => Except.ok (found, [])) isDm.1
    · have sent := exec_query (s := calm) rfl stored (settled.free_message (m.row c))
      exact (Async.exec_bind_ok sent).trans rfl
  · intro u one
    have member : s.tables.isMember c u = true := isDm.isMember one
    refine ⟨?_, _, if_pos member, ?_⟩
    · change ((s.tables.conversations c).isSome && s.tables.isMember c u) = true
      rw [isDm.1, member]
      rfl
    · refine List.mem_filter.mpr ⟨List.mem_append_right _ (List.mem_singleton_self _), ?_⟩
      simp [SendMessage.row]

/-- As long as nobody leaves, whatever `find_or_create_dm_conversation` has returned stays usable. -/
theorem direct_conversation_usable {t : Tables} {faults : List (Option Fault)} {run : List (Move machine Failure Unit)}
    (registered : t.Registered) (calls : Calls (fun _ => True) run)
    (stays : Clear (fun _ e => Stays e) (played t faults run).trace) :
    ∀ e ∈ (played t faults run).trace, ∀ pair c, e.request = .returned pair c →
      (played t faults run).state.Usable pair c := by
  obtain ⟨modes, settled⟩ := settled_played registered calls stays
  exact fun e inside pair c returned => settled.usable (settled.returned e inside pair c returned)

end Use

def greeted : List (Move machine Failure Unit) :=
  World.schedule Call.program (World.oneByOne 12 [.findOrCreate 1 2 100, .leave 3 100, .findOrCreate 2 1 200])

theorem greeted_calls : Calls (fun _ => True) greeted := schedule_calls fun _ _ => trivial

def parted : List (Move machine Failure Unit) :=
  World.schedule Call.program (World.oneByOne 12 [.findOrCreate 1 2 100, .leave 1 100, .findOrCreate 1 2 200])

def Request.returned? : Request → Option ((Uuid × Uuid) × Uuid)
  | .returned pair c => some (pair, c)
  | _ => none

theorem of_returned {r : Request} {pair : Uuid × Uuid} {c : Uuid} (same : r.returned? = some (pair, c)) :
    r = .returned pair c := by
  cases r with
  | returned pair' c' =>
    cases same
    rfl
  | sql r => cases same

theorem direct_conversation_usable_greeted :
    (played empty [] greeted).state.Usable (1, 2) 100 := by
  have found : (played empty [] greeted).trace.any (fun e => e.request.returned? = some ((1, 2), 100)) = true := by
    decide +kernel
  obtain ⟨e, inside, returned⟩ := List.any_eq_true.mp found
  exact direct_conversation_usable empty_registered greeted_calls (by decide +kernel) e inside (1, 2) 100
    (of_returned (of_decide_eq_true returned))

/-- It is found again, without them in it. -/
theorem direct_conversation_unusable :
    ¬ ∀ run, Calls (fun _ => True) run → ∀ e ∈ (played empty [] run).trace, ∀ pair c,
      e.request = .returned pair c → e.after.tables.isMember c pair.1 = true := by
  intro claim
  have found : (played empty [] parted).trace.any (fun e =>
      e.request.returned? = some ((1, 2), 100) ∧ e.after.tables.isMember 100 1 = false) = true := by decide +kernel
  obtain ⟨e, inside, holds⟩ := List.any_eq_true.mp found
  obtain ⟨returned, gone⟩ := of_decide_eq_true holds
  have member := claim parted (schedule_calls fun _ _ => trivial) e inside (1, 2) 100 (of_returned returned)
  rw [gone] at member
  cases member

end Echo.Conversations.Direct
