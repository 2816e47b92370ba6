import Echo.Server.Origin

/-! One message as its readers see it: the live frame, the replayed frame, the two frames for
the sender and the row of the history. -/
namespace Echo.Server
open Echo.Lib

section Views

/-- The fields a reader may be shown; none for a field a view does not have. -/
structure Appearance where
  threadRootId : Option (Option Uuid)
  expiresAt : Option (Option Int)
  replyToId : Option (Option Uuid)
  replyToContent : Option (Option String)
  channelId : Option (Option Uuid)
  timestamp : Option Nat
  senderDeviceId : Option (Option Int)

def NewMessage.appearance (m : NewMessage) : Appearance :=
  ⟨some m.threadRootId, some m.expiresAt, some m.replyToId, some m.replyToContent, some m.channelId,
    some m.timestamp, some m.fromDeviceId⟩

def SelfMessage.appearance (m : SelfMessage) : Appearance :=
  ⟨none, none, some m.replyToId, none, some m.channelId, some m.timestamp, some (some m.fromDeviceId)⟩

def MessageSent.appearance (m : MessageSent) : Appearance :=
  ⟨none, some m.expiresAt, none, none, some m.channelId, some m.timestamp, none⟩

def MessageWithSender.appearance (m : MessageWithSender) : Appearance :=
  ⟨some m.threadRootId, none, some m.replyToId, some m.replyToContent, some m.channelId, some m.createdAt,
    some m.senderDeviceId⟩

def Matches {α : Type} (a b : Option α) : Prop := ∀ x ∈ a, ∀ y ∈ b, x = y

@[simp] theorem matches_some {α : Type} (x y : α) : Matches (some x) (some y) ↔ x = y := by
  simp [Matches]

structure Appearance.Agree (a b : Appearance) : Prop where
  threadRootId : Matches a.threadRootId b.threadRootId
  expiresAt : Matches a.expiresAt b.expiresAt
  replyToId : Matches a.replyToId b.replyToId
  replyToContent : Matches a.replyToContent b.replyToContent
  channelId : Matches a.channelId b.channelId
  timestamp : Matches a.timestamp b.timestamp
  senderDeviceId : Matches a.senderDeviceId b.senderDeviceId

def Alike (views : List Appearance) : Prop := ∀ a ∈ views, ∀ b ∈ views, a.Agree b

/-- `a` has nothing that `whole` does not have. -/
structure Appearance.Within (a whole : Appearance) : Prop where
  threadRootId : ∀ x ∈ a.threadRootId, whole.threadRootId = some x
  expiresAt : ∀ x ∈ a.expiresAt, whole.expiresAt = some x
  replyToId : ∀ x ∈ a.replyToId, whole.replyToId = some x
  replyToContent : ∀ x ∈ a.replyToContent, whole.replyToContent = some x
  channelId : ∀ x ∈ a.channelId, whole.channelId = some x
  timestamp : ∀ x ∈ a.timestamp, whole.timestamp = some x
  senderDeviceId : ∀ x ∈ a.senderDeviceId, whole.senderDeviceId = some x

theorem matches_of_within {α : Type} {a b whole : Option α} (first : ∀ x ∈ a, whole = some x)
    (second : ∀ x ∈ b, whole = some x) : Matches a b := by
  intro x hx y hy
  exact Option.some.inj ((first x hx).symm.trans (second y hy))

theorem Appearance.Within.agree {a b whole : Appearance} (first : a.Within whole) (second : b.Within whole) :
    a.Agree b :=
  ⟨matches_of_within first.threadRootId second.threadRootId,
    matches_of_within first.expiresAt second.expiresAt,
    matches_of_within first.replyToId second.replyToId,
    matches_of_within first.replyToContent second.replyToContent,
    matches_of_within first.channelId second.channelId,
    matches_of_within first.timestamp second.timestamp,
    matches_of_within first.senderDeviceId second.senderDeviceId⟩

theorem Alike.of_within {views : List Appearance} {w : Appearance} (all : ∀ a ∈ views, a.Within w) :
    Alike views := fun a ha b hb => (all a ha).agree (all b hb)

end Views

section Reply

/-- What `lookup_reply_context` gives the sender's task. -/
def replyContextAt (db : Database) (failed : Bool) (replyToId : Option Uuid) (conversationId : Uuid) :
    Option String × Option String :=
  match replyToId with
  | none => (none, none)
  | some rid =>
    if failed then (none, none)
    else
      match db.lookupReplyContext rid conversationId with
      | some (content, username) => (some content, some username)
      | none => (none, none)

theorem exec_lookupReplyContext (replyToId : Option Uuid) (conversationId : Uuid) (s : AppState) :
    ((lookupReplyContext replyToId conversationId).exec s).1 =
      .done (.ok (replyContextAt s.db s.fault replyToId conversationId)) := by
  cases replyToId with
  | none => rfl
  | some rid =>
    change (Async.exec ((query (.replyContext rid conversationId)).bind _) s).1 = _
    rw [exec_query_bind, replyContextAt]
    cases s.fault with
    | true => rfl
    | false =>
      simp only [Bool.false_eq_true, if_false, Query.eval]
      cases s.db.lookupReplyContext rid conversationId <;> rfl

theorem replyContextAt_content (db : Database) (failed : Bool) (replyToId : Option Uuid) (conversationId : Uuid) :
    (replyContextAt db failed replyToId conversationId).1 =
      replyToId.bind fun id =>
        if failed then none else (db.parent id conversationId).map MessageRow.content := by
  cases replyToId with
  | none => rfl
  | some id =>
    simp only [replyContextAt, Option.bind_some, Database.lookupReplyContext]
    cases failed with
    | true => rfl
    | false => cases db.parent id conversationId <;> rfl

end Reply

section Claim
variable {m : SendMessage} {conversationId : Uuid} {channelId : Option Uuid} {convTtlSeconds : Option Int}

/-- The five views of a message, read at `db` where its row is `later`. -/
def viewsOf (m : SendMessage) (conversationId : Uuid) (stored : MessageRow)
    (replyContext : Option String × Option String) (db : Database) (later : MessageRow)
    (content : String × Option Bool) (ciphertext : String) (reader : Uuid) (readerDevice : Option Int) :
    List Appearance :=
  [(liveFrame m stored conversationId replyContext).appearance,
    (replayFrame (db.withSender later) content).appearance,
    (selfMessageFrame m stored conversationId ciphertext).appearance,
    (messageSentFrame stored conversationId).appearance,
    (db.historyRow reader readerDevice later).appearance]

/-- The thread named is a root, no expiry applies, and what the message refers to is still there
as it was looked up. -/
structure Settled (m : SendMessage) (conversationId : Uuid) (convTtlSeconds : Option Int)
    (looked : Database) (failed : Bool) (storing : Database) (db : Database) (later : MessageRow) : Prop where
  root : ∀ id, m.threadRootId = some id → storing.threadRoot id conversationId = some id
  rootKept : later.threadRootId = m.threadRootId.bind fun id => storing.threadRoot id conversationId
  lasting : resolveEffectiveTtl m.ttlSeconds convTtlSeconds = none
  parentKept : later.replyToId = m.replyToId
  parentSame : ∀ id, m.replyToId = some id → (db.parent id conversationId).map MessageRow.content =
    if failed then none else (looked.parent id conversationId).map MessageRow.content

theorem Database.parent_id {db : Database} {id conversationId : Uuid} {row : MessageRow}
    (found : db.parent id conversationId = some row) : row.id = id := by
  have named := List.find?_some found
  simp only [decide_eq_true_eq] at named
  exact named.1

theorem Database.insertedRow_replyToId {db : Database} {r : Database.NewRow} {now : Nat} {fresh : Uuid}
    (anchored : db.isAnchored r.replyToId r.conversationId = true) :
    (db.insertedRow r now fresh).replyToId = r.replyToId := by
  cases reply : r.replyToId with
  | none => simp [insertedRow, reply]
  | some id =>
    rw [isAnchored, reply] at anchored
    obtain ⟨row, found⟩ := Option.isSome_iff_exists.mp anchored
    simp [insertedRow, reply, found, parent_id found]

theorem withSender_replyToContent (db : Database) {row : MessageRow}
    (here : row.conversationId = conversationId) :
    (db.withSender row).replyToContent =
      row.replyToId.bind fun id => (db.parent id conversationId).map MessageRow.content := by
  rw [← here]
  cases reply : row.replyToId <;> simp [Database.withSender, reply]

variable {s₁ s₂ s₃ : AppState} {row later : MessageRow}

theorem looks_alike_iff
    (stored : s₁.storeMessage (newRow m conversationId channelId convTtlSeconds) = (.ok row, s₂))
    (passed : Later (fun _ => True) row.id s₂ s₃) (inside : later ∈ s₃.db.messages) (same : later.id = row.id) (looked : Database)
    (failed : Bool) (content : String × Option Bool) (ciphertext : String) (reader : Uuid) (readerDevice : Option Int) :
    Alike (viewsOf m conversationId row (replyContextAt looked failed m.replyToId conversationId) s₃.db later
      content ciphertext reader readerDevice) ↔
    Settled m conversationId convTtlSeconds looked failed s₁.db s₃.db later := by
  have inserted := stored_inserted stored
  obtain ⟨made, anchored, -, -, -⟩ := Database.storeMessage_ok inserted
  obtain ⟨there, only⟩ := stored_only inserted
  have origin := (passed.origin there only).2 later inside same
  have replyTo : row.replyToId = m.replyToId := by rw [made]; exact Database.insertedRow_replyToId anchored
  have home : later.conversationId = conversationId := by rw [origin.conversationId, made]; rfl
  have channel : later.channelId = row.channelId := origin.channelId
  have device : later.senderDeviceId = some m.senderDeviceId := by rw [origin.senderDeviceId, made]; rfl
  have time : later.createdAt = row.createdAt := origin.createdAt
  have expiry : row.expiresAt =
      (resolveEffectiveTtl m.ttlSeconds convTtlSeconds).map fun ttl => (s₁.now : Int) + ttl * 1000 := by
    rw [made]; rfl
  have joined := withSender_replyToContent s₃.db home
  constructor
  · intro alike
    have pair := alike _ (List.mem_cons_self) _ (List.mem_cons_of_mem _ List.mem_cons_self)
    have threads : m.threadRootId = later.threadRootId := (matches_some _ _).mp pair.threadRootId
    have expires : row.expiresAt = none := (matches_some _ _).mp pair.expiresAt
    have replies : m.replyToId = later.replyToId := (matches_some _ _).mp pair.replyToId
    have contents : (replyContextAt looked failed m.replyToId conversationId).1 =
        (s₃.db.withSender later).replyToContent := (matches_some _ _).mp pair.replyToContent
    have rootKept : later.threadRootId = m.threadRootId.bind fun id => s₁.db.threadRoot id conversationId := by
      obtain kept | cleared := origin.threadRootId
      · rw [kept, made]
        rfl
      · rw [threads, cleared]
        rfl
    refine ⟨?_, rootKept, ?_, replies.symm, ?_⟩
    · intro id named
      rw [← threads, named] at rootKept
      exact rootKept.symm
    · rw [expiry] at expires
      exact Option.map_eq_none_iff.mp expires
    · intro id named
      rw [replyContextAt_content, joined, ← replies, named] at contents
      exact contents.symm
  · intro settled
    have threads : m.threadRootId = later.threadRootId := by
      rw [settled.rootKept]
      cases named : m.threadRootId with
      | none => rfl
      | some id => exact (settled.root id named).symm
    have expires : row.expiresAt = none := by rw [expiry, settled.lasting]; rfl
    have contents : (replyContextAt looked failed m.replyToId conversationId).1 =
        (s₃.db.withSender later).replyToContent := by
      rw [replyContextAt_content, joined, settled.parentKept]
      cases named : m.replyToId with
      | none => rfl
      | some id => exact (settled.parentSame id named).symm
    refine Alike.of_within (w :=
      (liveFrame m row conversationId (replyContextAt looked failed m.replyToId conversationId)).appearance) ?_
    simp only [viewsOf, List.forall_mem_cons, List.not_mem_nil, false_implies, implies_true, and_true]
    refine ⟨?live, ?replay, ?self, ?sent, ?history⟩
    case live => constructor <;> simp
    case replay =>
      constructor
      all_goals simp [NewMessage.appearance, replayFrame, liveFrame, Database.withSender, threads, expires,
        settled.parentKept, channel, time, device]
      simpa [Database.withSender, settled.parentKept] using contents
    case self => constructor <;> simp [SelfMessage.appearance, NewMessage.appearance, selfMessageFrame, liveFrame]
    case sent => constructor <;> simp [MessageSent.appearance, NewMessage.appearance, messageSentFrame, liveFrame]
    case history =>
      constructor
      all_goals simp [MessageWithSender.appearance, NewMessage.appearance, Database.historyRow, liveFrame,
        Database.withSender, threads, settled.parentKept, channel, time, device]
      simpa [Database.withSender, settled.parentKept] using contents

/-- User 2 has started a thread at message 10 of conversation 1 and answered in it with message 11. -/
def threadedDb : Database where
  username id := toString id
  conversations := LinkedMap.empty.insert 1 ⟨.group, false, none⟩
  members _ := (LinkedMap.empty.insert 2 false).insert 3 false
  contacts := []
  directConversations := .empty
  channels := []
  messages := [⟨10, 1, none, 2, some 1, "root", 5, none, none, none, false⟩,
    ⟨11, 1, none, 2, some 1, "reply", 6, none, none, some 10, false⟩]
  deviceContents := []
  deliveries := []
  blockedUsers := []
  revokedDevices := []

def threadedState : AppState := ⟨threadedDb, .new, [], fun _ => none, 7, [], fun n => 20 + n⟩

/-- User 3 answers message `threadRootId` in its thread. -/
def answerInThread (threadRootId : Uuid) : SendMessage :=
  ⟨3, 1, "3", some 1, none, none, "me too", none, none, none, none, some threadRootId⟩

/-- Asked for the thread of a reply, the live frame names the reply and the replay its root. -/
theorem nested_thread_differs : ∃ row s,
    threadedState.storeMessage (newRow (answerInThread 11) 1 none none) = (.ok row, s) ∧
      ¬ Alike (viewsOf (answerInThread 11) 1 row (replyContextAt threadedDb false none 1) s.db row ("", none) ""
        2 none) := by
  refine ⟨_, _, rfl, fun alike => ?_⟩
  have pair := alike _ (List.mem_cons_self) _ (List.mem_cons_of_mem _ List.mem_cons_self)
  have threads := (matches_some _ _).mp pair.threadRootId
  exact absurd threads (by decide)

theorem looks_alike_root : ∃ row s,
    threadedState.storeMessage (newRow (answerInThread 10) 1 none none) = (.ok row, s) ∧
      Alike (viewsOf (answerInThread 10) 1 row (replyContextAt threadedDb false none 1) s.db row ("", none) ""
        2 none) := by
  have stored : threadedState.storeMessage (newRow (answerInThread 10) 1 none none) = (.ok _, _) := rfl
  refine ⟨_, _, stored, (looks_alike_iff stored .now (by decide) rfl threadedDb false _ _ _ _).mpr ?_⟩
  refine ⟨?_, rfl, rfl, rfl, ?_⟩
  · intro id named
    cases named
    decide
  · intro id named
    cases named

end Claim
end Echo.Server
