import Echo.Lib.Interleaving
import Echo.Server.Delivery

/-! What one access can do to the tables, to the queues and to the hub, said once. -/
namespace Echo.Server
open Echo.Lib

inductive DbStep (now : Nat) (db : Database) : Request → Database → Prop
  | same (r : Request) : DbStep now db r db
  | store {r : Database.NewRow} {fresh : Uuid} {row : MessageRow} {db' : Database}
    (stored : db.storeMessage r now fresh = .ok (row, db')) : DbStep now db (.storeMessage r) db'
  | contents (messageId : Uuid) (entries : List (Uuid × Int × String)) (known : db.hasMessages [messageId] = true) :
    DbStep now db (.storeDeviceContents messageId entries) (db.storeDeviceContents messageId entries)
  | record (rows : List Delivery) (known : db.hasMessages (rows.map Delivery.messageId) = true) :
    DbStep now db (.recordDeliveries rows) (db.recordDeliveries rows)
  | dm (userA userB : Uuid) (conversations : LinkedMap Uuid ConversationSecurity)
    (members : Uuid → LinkedMap Uuid Bool) (directConversations : LinkedMap (Uuid × Uuid) Uuid) :
    DbStep now db (.findOrCreateDm userA userB) { db with conversations, members, directConversations }
  | change (c : Change) : DbStep now db (.change c) (c.apply now db)

theorem Database.storeMessage_ok {db db' : Database} {r : Database.NewRow} {now : Nat} {fresh : Uuid}
    {row : MessageRow} (stored : db.storeMessage r now fresh = .ok (row, db')) :
    row = db.insertedRow r now fresh ∧ db.isAnchored r.replyToId r.conversationId = true ∧
      db.isAnchored r.threadRootId r.conversationId = true ∧
      (db.messages.any fun m => m.id = row.id) = false ∧ db' = { db with messages := db.messages ++ [row] } := by
  unfold storeMessage at stored
  split at stored
  · rename_i anchored
    simp only at stored
    split at stored
    · contradiction
    · rename_i unused
      obtain ⟨rfl, rfl⟩ := Prod.mk.inj (Except.ok.inj stored)
      rw [Bool.and_eq_true] at anchored
      exact ⟨rfl, anchored.1, anchored.2, by simpa using unused, rfl⟩
  · contradiction

inductive ConnStep (cs : List Connection) : Request → List Connection → Prop
  | same (r : Request) : ConnStep cs r cs
  | opened (userId : Uuid) (deviceId : Int) :
    ConnStep cs (.register userId deviceId) (cs ++ [.fresh userId deviceId])
  | pushed {tx : Nat} {c : Connection} (userId : Uuid) (deviceId : Int) (frame : Frame)
    (there : cs[tx]? = some c) (isOpen : c.isOpen = true) (room : c.isFull = false) :
    ConnStep cs (.trySend userId deviceId tx frame) (cs.set tx (c.push frame))
  | served (k now : Nat) : ConnStep cs (.serve k) (cs.modify k fun c => { c with replayEnd := some now })
  | taken (k : Nat) : ConnStep cs (.recv k) (cs.modify k Connection.take)
  | hungUp (k : Nat) : ConnStep cs (.hangUp k) (cs.modify k fun c => { c with isHungUp := true })
  | closed (k : Nat) : ConnStep cs (.close k) (cs.modify k Connection.close)

variable {c : Connection} {r : Request}

theorem Connection.mem_log_push {f g : Frame} (inside : f ∈ c.log) : f ∈ (c.push g).log := by
  simp only [Connection.log, Connection.push, List.mem_append] at inside ⊢
  tauto

theorem Connection.log_take (c : Connection) : c.take.log = c.log := by
  unfold Connection.take
  split
  · rfl
  · rename_i f rest queue
    split
    · simp [Connection.log, queue]
    · rfl

theorem Connection.mem_log_close {f : Frame} : f ∈ c.close.log ↔ f ∈ c.log := by
  simp only [Connection.log, Connection.close, List.mem_append, List.append_nil]
  tauto

theorem ConnStep.kept {cs cs' : List Connection} (step : ConnStep cs r cs') {k : Nat}
    (there : cs[k]? = some c) :
    ∃ c', cs'[k]? = some c' ∧ c'.userId = c.userId ∧ c'.deviceId = c.deviceId ∧ ∀ f ∈ c.log, f ∈ c'.log := by
  have modified : ∀ {g : Connection → Connection} {i : Nat}, (∀ c, (g c).userId = c.userId) →
      (∀ c, (g c).deviceId = c.deviceId) → (∀ c, ∀ f ∈ c.log, f ∈ (g c).log) →
      ∃ c', (cs.modify i g)[k]? = some c' ∧ c'.userId = c.userId ∧ c'.deviceId = c.deviceId ∧
        ∀ f ∈ c.log, f ∈ c'.log := by
    intro g i user device log
    rw [List.getElem?_modify, there]
    by_cases same : i = k
    · exact ⟨g c, by simp [same], user c, device c, log c⟩
    · exact ⟨c, by simp [same], rfl, rfl, fun _ inside => inside⟩
  cases step with
  | same _ => exact ⟨c, there, rfl, rfl, fun _ inside => inside⟩
  | opened u d =>
    refine ⟨c, ?_, rfl, rfl, fun _ inside => inside⟩
    rw [List.getElem?_append_left (List.getElem?_eq_some_iff.mp there).1]
    exact there
  | @pushed tx old u d frame here _ _ =>
    by_cases same : tx = k
    · subst same
      rw [there] at here
      cases here
      refine ⟨c.push frame, ?_, rfl, rfl, fun _ inside => Connection.mem_log_push inside⟩
      rw [List.getElem?_set_self (List.getElem?_eq_some_iff.mp there).1]
    · exact ⟨c, by rw [List.getElem?_set_ne same]; exact there, rfl, rfl, fun _ inside => inside⟩
  | served | hungUp => exact modified (fun _ => rfl) (fun _ => rfl) fun _ _ inside => inside
  | taken i =>
    have same : ∀ c : Connection, c.take.userId = c.userId ∧ c.take.deviceId = c.deviceId := by
      intro c
      unfold Connection.take
      split
      · exact ⟨rfl, rfl⟩
      · split <;> exact ⟨rfl, rfl⟩
    exact modified (fun c => (same c).1) (fun c => (same c).2) fun c f inside => (c.log_take).symm ▸ inside
  | closed i =>
    exact modified (fun _ => rfl) (fun _ => rfl) fun _ _ inside => Connection.mem_log_close.mpr inside

namespace AppState

@[simp] theorem faulted_db (s : AppState) : s.faulted.db = s.db := rfl
@[simp] theorem faulted_connections (s : AppState) : s.faulted.connections = s.connections := rfl
@[simp] theorem faulted_now (s : AppState) : s.faulted.now = s.now := rfl
@[simp] theorem faulted_hub (s : AppState) : s.faulted.hub = s.hub := rfl
@[simp] theorem setDb_connections (s : AppState) (db : Database) : (s.setDb db).connections = s.connections := rfl
@[simp] theorem setDb_hub (s : AppState) (db : Database) : (s.setDb db).hub = s.hub := rfl
@[simp] theorem setDb_db (s : AppState) (db : Database) : (s.setDb db).db = db := rfl

@[simp] theorem trySend_db (s : AppState) (userId : Uuid) (deviceId : Int) (tx : Nat) (frame : Frame) :
    (s.trySend userId deviceId tx frame).2.db = s.db := by
  unfold trySend
  split
  · rfl
  · split
    · rfl
    · split <;> rfl

variable {s s' : AppState} {r : Request}

theorem trySend_true {userId : Uuid} {deviceId : Int} {tx : Nat} {frame : Frame}
    (sent : s.trySend userId deviceId tx frame = (true, s')) :
    ∃ c, s.connections[tx]? = some c ∧ c.isOpen = true ∧ c.isFull = false ∧
      s'.connections = s.connections.set tx (c.push frame) ∧ s'.hub.connections = s.hub.connections := by
  unfold trySend at sent
  split at sent
  · cases (Prod.mk.inj sent).1
  · rename_i c there
    split at sent
    · cases (Prod.mk.inj sent).1
    · rename_i closed
      split at sent
      · cases (Prod.mk.inj sent).1
      · rename_i full
        obtain ⟨-, rfl⟩ := Prod.mk.inj sent
        exact ⟨c, there, by simpa using closed, by simpa using full, rfl, rfl⟩

theorem trySend_false {userId : Uuid} {deviceId : Int} {tx : Nat} {frame : Frame}
    (sent : s.trySend userId deviceId tx frame = (false, s')) :
    s'.connections = s.connections ∧ (s'.hub.connections = s.hub.connections ∨
      (∃ c, s.connections[tx]? = some c ∧ c.isOpen = true ∧ c.isFull = true) ∧
        s'.hub.connections = (s.hub.unregister userId deviceId).connections) := by
  unfold trySend at sent
  split at sent
  · obtain ⟨-, rfl⟩ := Prod.mk.inj sent
    exact ⟨rfl, .inl rfl⟩
  · rename_i c there
    split at sent
    · obtain ⟨-, rfl⟩ := Prod.mk.inj sent
      exact ⟨rfl, .inl rfl⟩
    · rename_i closed
      split at sent
      · rename_i full
        have kept := Hub.connection_recordFull s.hub s.now userId deviceId
        generalize s.hub.recordFull s.now userId deviceId = counted at sent kept
        obtain ⟨kick, hub⟩ := counted
        obtain ⟨-, rfl⟩ := Prod.mk.inj sent
        refine ⟨rfl, ?_⟩
        cases kick with
        | true =>
          refine .inr ⟨⟨c, there, by simpa using closed, full⟩, ?_⟩
          simp only at kept
          simp [Hub.unregister, Hub.resetCounter, kept]
        | false => exact .inl kept
      · cases (Prod.mk.inj sent).1

/-- The request has to do with neither the hub nor the connections, nor with the clock. -/
def isAside : Request → Bool
  | .trySend .. | .register .. | .unregister .. | .unregisterAll _ | .serve _ | .recv _ | .hangUp _ | .close _
  | .clock _ => false
  | _ => true

theorem findOrCreateDm_aside (s : AppState) (userA userB : Uuid) :
    (s.findOrCreateDm userA userB).2.hub = s.hub ∧ (s.findOrCreateDm userA userB).2.connections = s.connections ∧
      (s.findOrCreateDm userA userB).2.now = s.now := by
  unfold findOrCreateDm
  simp only
  split <;> exact ⟨rfl, rfl, rfl⟩

theorem storeMessage_aside (s : AppState) (r : Database.NewRow) :
    (s.storeMessage r).2.hub = s.hub ∧ (s.storeMessage r).2.connections = s.connections ∧
      (s.storeMessage r).2.now = s.now := by
  unfold storeMessage
  simp only
  split <;> exact ⟨rfl, rfl, rfl⟩

theorem perform_aside {a : Answer r} (aside : isAside r = true)
    (answered : perform r s = some (a, s')) :
    s'.hub = s.hub ∧ s'.connections = s.connections ∧ s'.now = s.now := by
  cases r with
  | findOrCreateDm userA userB =>
    simp only [perform] at answered
    split at answered <;> obtain ⟨-, rfl⟩ := Prod.mk.inj (Option.some.inj answered)
    · exact ⟨rfl, rfl, rfl⟩
    · exact findOrCreateDm_aside s.faulted userA userB
  | storeMessage r =>
    simp only [perform] at answered
    split at answered
    · obtain ⟨-, rfl⟩ := Prod.mk.inj (Option.some.inj answered)
      exact ⟨rfl, rfl, rfl⟩
    · have after : (s.faulted.storeMessage r).2 = s' := congrArg Prod.snd (Option.some.inj answered)
      exact after ▸ storeMessage_aside s.faulted r
  | storeDeviceContents _ _ | recordDeliveries _ =>
    simp only [perform] at answered
    split at answered <;> obtain ⟨-, rfl⟩ := Prod.mk.inj (Option.some.inj answered) <;> exact ⟨rfl, rfl, rfl⟩
  | ended connection =>
    simp only [perform] at answered
    split at answered
    · split at answered
      · obtain ⟨-, rfl⟩ := Prod.mk.inj (Option.some.inj answered)
        exact ⟨rfl, rfl, rfl⟩
      · contradiction
    · contradiction
  | query _ | cachedMemberIds _ | cacheMemberIds _ _ | invalidateMemberCache _ | deviceCount _ | devicesOf _
  | connectionOf _ _ | change _ =>
    obtain ⟨-, rfl⟩ := Prod.mk.inj (Option.some.inj answered)
    exact ⟨rfl, rfl, rfl⟩
  | trySend | register | unregister | unregisterAll | serve | recv | hangUp | close | clock => cases aside

theorem perform_conn {a : Answer r} (answered : perform r s = some (a, s')) :
    ConnStep s.connections r s'.connections := by
  cases r with
  | trySend userId deviceId tx frame =>
    have sent : s.trySend userId deviceId tx frame = (a, s') := Option.some.inj answered
    cases a with
    | true =>
      obtain ⟨c, there, isOpen, room, connections, -⟩ := trySend_true sent
      rw [connections]
      exact .pushed userId deviceId frame there isOpen room
    | false =>
      rw [(trySend_false sent).1]
      exact .same _
  | register userId deviceId =>
    obtain ⟨-, rfl⟩ := Prod.mk.inj (Option.some.inj answered)
    exact .opened userId deviceId
  | serve k =>
    obtain ⟨-, rfl⟩ := Prod.mk.inj (Option.some.inj answered)
    exact .served k s.now
  | recv k =>
    obtain ⟨-, rfl⟩ := Prod.mk.inj (Option.some.inj answered)
    exact .taken k
  | hangUp k =>
    obtain ⟨-, rfl⟩ := Prod.mk.inj (Option.some.inj answered)
    exact .hungUp k
  | close k =>
    obtain ⟨-, rfl⟩ := Prod.mk.inj (Option.some.inj answered)
    exact .closed k
  | unregister _ _ | unregisterAll _ | clock _ =>
    obtain ⟨-, rfl⟩ := Prod.mk.inj (Option.some.inj answered)
    exact .same _
  | query _ | findOrCreateDm _ _ | storeMessage _ | storeDeviceContents _ _ | recordDeliveries _ | cachedMemberIds _
  | cacheMemberIds _ _ | invalidateMemberCache _ | deviceCount _ | devicesOf _ | connectionOf _ _ | ended _ | change _ =>
    rw [(perform_aside rfl answered).2.1]
    exact .same _

theorem findOrCreateDm_step (s : AppState) (userA userB : Uuid) :
    DbStep s.now s.db (.findOrCreateDm userA userB) (s.findOrCreateDm userA userB).2.db := by
  unfold findOrCreateDm
  simp only
  split
  · exact .same _
  · exact .dm _ _ _ _ _

theorem storeMessage_step (s : AppState) (r : Database.NewRow) :
    DbStep s.now s.db (.storeMessage r) (s.storeMessage r).2.db := by
  unfold storeMessage
  simp only
  split
  · exact .same _
  · rename_i row db stored
    exact .store stored

theorem perform_step {a : Answer r} (answered : perform r s = some (a, s')) :
    DbStep s.now s.db r s'.db := by
  cases r with
  | query q =>
    obtain ⟨-, rfl⟩ := Prod.mk.inj (Option.some.inj answered)
    exact .same _
  | findOrCreateDm userA userB =>
    simp only [perform] at answered
    split at answered
    · obtain ⟨-, rfl⟩ := Prod.mk.inj (Option.some.inj answered)
      exact .same _
    · obtain ⟨-, rfl⟩ := Prod.mk.inj (Option.some.inj answered)
      exact findOrCreateDm_step s.faulted userA userB
  | storeMessage r =>
    simp only [perform] at answered
    split at answered
    · obtain ⟨-, rfl⟩ := Prod.mk.inj (Option.some.inj answered)
      exact .same _
    · obtain ⟨-, rfl⟩ := Prod.mk.inj (Option.some.inj answered)
      exact storeMessage_step s.faulted r
  | storeDeviceContents messageId entries =>
    simp only [perform] at answered
    split at answered
    · obtain ⟨-, rfl⟩ := Prod.mk.inj (Option.some.inj answered)
      exact .same _
    · rename_i held
      simp only [Bool.or_eq_true, not_or, Bool.not_eq_true, Bool.not_eq_false'] at held
      obtain ⟨-, rfl⟩ := Prod.mk.inj (Option.some.inj answered)
      exact .contents messageId entries held.2
  | recordDeliveries rows =>
    simp only [perform] at answered
    split at answered
    · obtain ⟨-, rfl⟩ := Prod.mk.inj (Option.some.inj answered)
      exact .same _
    · rename_i held
      simp only [Bool.or_eq_true, not_or, Bool.not_eq_true, Bool.not_eq_false'] at held
      obtain ⟨-, rfl⟩ := Prod.mk.inj (Option.some.inj answered)
      exact .record rows held.2
  | trySend userId deviceId tx frame =>
    have after : (s.trySend userId deviceId tx frame).2 = s' := congrArg Prod.snd (Option.some.inj answered)
    rw [← after, trySend_db]
    exact .same _
  | ended connection =>
    simp only [perform] at answered
    split at answered
    · split at answered
      · obtain ⟨-, rfl⟩ := Prod.mk.inj (Option.some.inj answered)
        exact .same _
      · contradiction
    · contradiction
  | change c =>
    obtain ⟨-, rfl⟩ := Prod.mk.inj (Option.some.inj answered)
    exact .change c
  | cachedMemberIds _ | cacheMemberIds _ _ | invalidateMemberCache _ | register _ _ | unregister _ _
  | unregisterAll _ | deviceCount _ | devicesOf _ | connectionOf _ _ | serve _ | recv _ | hangUp _
  | close _ | clock _ =>
    obtain ⟨-, rfl⟩ := Prod.mk.inj (Option.some.inj answered)
    exact .same _

end AppState

theorem exec_ask_bind {β : Type} {a : Answer r} {s s' : AppState}
    (answered : AppState.perform r s = some (a, s')) (f : Answer r → Task β) :
    Async.exec ((ask r).bind f) s = (f a).exec s' :=
  Async.exec_call (M := machine) (r := r) answered fun a => .await (f a)

theorem exec_query_bind {β : Type} (q : Query) (s : AppState) (f : Except Unit q.Result → Task β) :
    Async.exec ((query q).bind f) s = (f (if s.fault then .error () else .ok (q.eval s.db))).exec s.faulted :=
  exec_ask_bind (r := .query q) rfl f

section Runs
variable {s s' : AppState} {α β : Type}

variable {env : AppState → AppState → Prop} {result : Except Empty β}

theorem Runs.of_ask_bind {r : Request} {f : Answer r → Task β}
    (ran : Async.Runs env ((ask r).bind f) s result s') :
    ∃ (before : AppState) (a : Answer r) (after : AppState), Relation.ReflTransGen env s before ∧
      AppState.perform r before = some (a, after) ∧ Async.Runs env (f a) after result s' := by
  have ran : Async.Runs env (.call (M := machine) r fun a => .await (f a)) s result s' := ran
  obtain ⟨before, a, after, path, answered, rest⟩ := ran.of_call
  exact ⟨before, a, after, path, answered, rest.of_await⟩

theorem Runs.of_query_bind {q : Query} {f : Except Unit q.Result → Task β}
    (ran : Async.Runs env ((query q).bind f) s result s') :
    ∃ before : AppState, Relation.ReflTransGen env s before ∧
      Async.Runs env (f (if before.fault then .error () else .ok (q.eval before.db))) before.faulted result s' := by
  obtain ⟨before, a, after, path, answered, rest⟩ := Runs.of_ask_bind ran
  obtain ⟨rfl, rfl⟩ := Prod.mk.inj (Option.some.inj answered)
  exact ⟨before, path, rest⟩

theorem Runs.of_bind {t : Task α} {f : α → Task β}
    (ran : Async.Runs env (t.bind f) s result s') :
    ∃ a between, Async.Runs env t s (.ok a) between ∧ Async.Runs env (f a) between result s' := by
  rcases Async.Runs.of_bind ran with found | ⟨e, -, -⟩
  · exact found
  · exact e.elim

theorem Runs.of_unwrapOrDefault {γ : Type} {rows : Task (Except Unit (List γ))}
    {result : Except Empty (List γ)} (ran : Async.Runs env (unwrapOrDefault rows) s result s') :
    ∃ answer between, Async.Runs env rows s (.ok answer) between ∧ Relation.ReflTransGen env between s' ∧
      result = .ok (match answer with
        | .ok rows => rows
        | .error _ => []) := by
  obtain ⟨answer, between, first, last⟩ := Runs.of_bind ran
  cases answer with
  | ok | error => exact ⟨_, between, first, last.of_done.2, last.of_done.1⟩

theorem Runs.of_query {q : Query} {result : Except Empty (Except Unit q.Result)}
    (ran : Async.Runs env (query q) s result s') :
    ∃ before : AppState, Relation.ReflTransGen env s before ∧
      result = .ok (if before.fault then .error () else .ok (q.eval before.db)) ∧
      Relation.ReflTransGen env before.faulted s' := by
  have ran : Async.Runs env (.call (M := machine) (.query q) fun a => .await (.done (.ok a))) s result s' := ran
  obtain ⟨before, a, after, path, answered, rest⟩ := ran.of_call
  obtain ⟨rfl, rfl⟩ := Prod.mk.inj (Option.some.inj answered)
  exact ⟨before, path, rest.of_await.of_done.1, rest.of_await.of_done.2⟩

theorem Runs.of_bind_pure {t : Task α} {b : β}
    (ran : Async.Runs env (t.bind fun _ => .done (.ok b)) s result s') : result = .ok b := by
  obtain ⟨a, between, -, last⟩ := Runs.of_bind ran
  exact last.of_done.1

end Runs

section Only
variable {Q : Frame → Prop}

def Sends (Q : Frame → Prop) : Request → Prop
  | .devicesOf _ | .connectionOf _ _ => True
  | .trySend _ _ _ frame => Q frame
  | _ => False

theorem only_ask {P : Request → Prop} {r : Request} (asked : P r) : (ask r).Only P := ⟨asked, fun _ => trivial⟩

theorem only_query {P : Request → Prop} {q : Query} (asked : P (.query q)) : (query q).Only P := only_ask asked

variable {frame : Frame}

theorem sendToDevice_only (userId : Uuid) (deviceId : Int) (kind : Q frame) :
    (sendToDevice userId deviceId frame).Only (Sends Q) := by
  refine (only_ask trivial).bind fun tx => ?_
  cases tx with
  | none => exact trivial
  | some tx => exact only_ask kind

theorem trySendEach_only (userId : Uuid) (kind : Q frame) (devices : List (Int × Nat)) :
    (trySendEach userId frame devices).Only (Sends Q) := by
  induction devices with
  | nil => exact trivial
  | cons _ _ ih => exact (only_ask kind).bind fun _ => ih.bind fun _ => trivial

theorem sendToUserCollecting_only (userId : Uuid) (kind : Q frame) :
    (sendToUserCollecting userId frame).Only (Sends Q) :=
  (only_ask trivial).bind fun devices => trySendEach_only userId kind devices

theorem sendToUserExceptDevice_only (userId : Uuid) (excludeDeviceId : Int) (kind : Q frame) :
    (sendToUserExceptDevice userId excludeDeviceId frame).Only (Sends Q) :=
  (only_ask trivial).bind fun _ => trySendEach_only userId kind _

theorem sendTo_only (userId : Uuid) (kind : Q frame) : (sendTo userId frame).Only (Sends Q) :=
  (sendToUserCollecting_only userId kind).bind fun _ => trivial

theorem deliverSelfEach_only (m : SendMessage) (stored : MessageRow) (conversationId : Uuid)
    (kind : ∀ f, Q (.selfMessage f)) (devices : List (Int × String)) :
    (deliverSelfEach m stored conversationId devices).Only (Sends Q) := by
  induction devices with
  | nil => exact trivial
  | cons device _ ih =>
    unfold deliverSelfEach
    split
    · exact ih
    · exact (sendToDevice_only _ _ (kind _)).bind fun _ => ih

theorem deliverSelfMessages_only (m : SendMessage) (stored : MessageRow) (conversationId : Uuid)
    (rdc : ParsedRecipientDeviceContents) (kind : ∀ f, Q (.selfMessage f)) :
    (deliverSelfMessages m stored conversationId rdc).Only (Sends Q) := by
  unfold deliverSelfMessages
  split
  · exact trivial
  · exact deliverSelfEach_only m stored conversationId kind _

theorem sendMessageSentConfirmation_only (m : SendMessage) (stored : MessageRow) (conversationId : Uuid)
    (kind : ∀ f, Q (.messageSent f)) :
    (sendMessageSentConfirmation m stored conversationId).Only (Sends Q) :=
  (sendToDevice_only _ _ (kind _)).bind fun _ => trivial

end Only

theorem Sends.db {s s' : AppState} {Q : Frame → Prop} {a : Answer r} (sends : Sends Q r)
    (answered : AppState.perform r s = some (a, s')) : s'.db = s.db := by
  cases r with
  | devicesOf _ | connectionOf _ _ =>
    obtain ⟨-, rfl⟩ := Prod.mk.inj (Option.some.inj answered)
    rfl
  | trySend userId deviceId tx frame =>
    have after : (s.trySend userId deviceId tx frame).2 = s' := congrArg Prod.snd (Option.some.inj answered)
    rw [← after, AppState.trySend_db]
  | _ => exact sends.elim

end Echo.Server
