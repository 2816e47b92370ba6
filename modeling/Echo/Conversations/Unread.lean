import Echo.Conversations.State
import Echo.Timeline.Receiving

/-! The unread count of a conversation: raised by the handlers of the frames, cleared by a read, and put
back when the request of the read throws. The list is loaded already; loads are left out. -/
namespace Echo.Conversations
open Echo.Lib
open Echo.Client (startsWith)
open Echo.Timeline (Frame Receiver Delivery Dates Platform fromServerJson readFields)

structure Call where
  fromUserId : String
  messageId : String
  conversationId : String
  content : String
  timestamp : String
  senderUsername : String
  alreadySeen : Bool
  isMention : Bool

def Call.newMessage (call : Call) : NewMessage where
  conversationId := call.conversationId
  content := call.content
  timestamp := call.timestamp
  senderUsername := call.senderUsername
  incrementUnread := !call.alreadySeen
  isMention := call.isMention

/-- What `sendReadReceipt` keeps while its request is out. -/
structure Receipt where
  conversationId : String
  oldUnread : Nat
  oldMention : Nat

inductive ReceiptAnswer
  | ok
  | refused
  | thrown
  deriving DecidableEq

structure Inbox where
  receiver : Receiver
  conversations : List Conversation
  readReceiptsEnabled : Bool := true
  showEncryptedPreviews : Bool := true
  containsMention : String → Bool := fun _ => false
  receipts : Nat → Option Receipt := fun _ => none
  sent : Nat := 0

namespace Inbox

inductive Event
  | receiver (e : Receiver.Event)
  | selfMessage (json : Frame)
  | markAsRead (id : String)
  | sendReadReceipt (id : String)
  | answer (k : Nat) (answer : ReceiptAnswer)
  | privacy (readReceiptsEnabled : Bool)

variable (dates : Dates) (platform : Platform)

/-- A `self_message` as a `new_message` of the user. -/
def selfJson (json : Frame) (myUserId : String) : Frame :=
  Function.update (Function.update json "from_user_id" (.str myUserId)) "from_username" (.str "Me")

def handleSelfMessage (r : Receiver) (json : Frame) : Option Delivery := do
  let rawContent := (← (json "content").asStringOrNull).getD ""
  let fromDeviceId ← (json "from_device_id").asIntOrNull
  let conversationId := (← (json "conversation_id").asStringOrNull).getD ""
  let timestamp := (← (json "timestamp").asStringOrNull).getD ""
  if rawContent = "" ∨ r.isInitialized = false then none
  else
    r.delivery (selfJson json r.userId) rawContent r.userId r.userId conversationId timestamp "Me" fromDeviceId false

def placeholderCall (json : Frame) (fields : Timeline.Fields) (content myUserId : String) : Option Call :=
  (fromServerJson dates (json.withContent content) myUserId).map fun msg =>
    { fromUserId := fields.fromUserId
      messageId := msg.id
      conversationId := fields.conversationId
      content := "[Encrypted]"
      timestamp := fields.timestamp
      senderUsername := fields.senderUsername
      alreadySeen := false
      isMention := false }

def senderOf (json : Frame) : String := ((json "sender_id").orElse ((json "from_user_id").orElse (.str ""))).text

def decryptedContent (d : Delivery) (answer : String) : String :=
  match d.work with
  | .plain content => content
  | _ => answer

/-- The call of `onNewMessage` at the end of a delivery. -/
def deliveryCall (x : Inbox) (d : Delivery) (answer : String) : Option Call :=
  let content := decryptedContent d answer
  (d.message dates answer).map fun msg =>
    { fromUserId := senderOf d.json
      messageId := msg.id
      conversationId := d.conversationId
      content := if d.work.isEncrypted && !x.showEncryptedPreviews then "[Encrypted]" else content
      timestamp := d.timestamp
      senderUsername := d.senderUsername
      alreadySeen := d.alreadySeen
      isMention := !(senderOf d.json == d.myUserId) && x.containsMention content }

def frameCall (x : Inbox) (json : Frame) : Option Call := do
  let fields ← readFields json
  match x.receiver.route json fields with
  | .system | .now => none
  | .undecryptable => placeholderCall dates json fields "[Encrypted for another device of this account]" x.receiver.userId
  | .later => placeholderCall dates json fields "Securing message..." x.receiver.userId
  | .plaintext =>
    let msg ← fromServerJson dates json x.receiver.userId
    some
      { fromUserId := fields.fromUserId
        messageId := msg.id
        conversationId := fields.conversationId
        content := fields.rawContent
        timestamp := fields.timestamp
        senderUsername := fields.senderUsername
        alreadySeen := x.receiver.alreadySeen fields
        isMention := false }

/-- The call of `onNewMessage` an event makes. -/
def call (x : Inbox) : Event → Option Call
  | .receiver (.newMessage json) => x.frameCall dates json
  | .receiver (.finish k answer) => (x.receiver.running[k]?).bind fun d => x.deliveryCall dates d answer
  | _ => none

def update (x : Inbox) (u : Update) : Inbox :=
  { x with conversations := (u.apply x.conversations).getD x.conversations }

def sendReadReceipt (x : Inbox) (id : String) : Inbox :=
  let oldConv := find x.conversations id
  let receipt : Receipt := ⟨id, (oldConv.map Conversation.unreadCount).getD 0, (oldConv.map Conversation.mentionCount).getD 0⟩
  let read := x.update (.markAsRead id)
  if x.readReceiptsEnabled then
    { read with receipts := Function.update x.receipts x.sent (some receipt), sent := x.sent + 1 }
  else read

def rollback (receipt : Receipt) (conversations : List Conversation) : List Conversation :=
  if receipt.oldUnread > 0 ∨ receipt.oldMention > 0 then
    (modify (fun conv => some { conv with unreadCount := receipt.oldUnread, mentionCount := receipt.oldMention })
      receipt.conversationId conversations).getD conversations
  else conversations

def answered (x : Inbox) (k : Nat) (answer : ReceiptAnswer) : Inbox :=
  match x.receipts k with
  | none => x
  | some receipt =>
    { x with
      conversations := if answer = .thrown then rollback receipt x.conversations else x.conversations
      receipts := Function.update x.receipts k none }

def step (x : Inbox) (e : Event) : Inbox :=
  let told := match x.call dates e with
    | some call => x.update (.newMessage call.newMessage)
    | none => x
  match e with
  | .receiver e => { told with receiver := x.receiver.step dates platform e }
  | .selfMessage json => { x with receiver := x.receiver.start (handleSelfMessage x.receiver json) }
  | .markAsRead id => x.update (.markAsRead id)
  | .sendReadReceipt id => x.sendReadReceipt id
  | .answer k answer => x.answered k answer
  | .privacy readReceiptsEnabled => { x with readReceiptsEnabled }

end Inbox

section Tally

/-- A read of the conversation, with the number of its request and how many messages had come. -/
structure Mark where
  receipt : Option Nat
  position : Nat

/-- The distinct messages of others in a conversation, in the order they came, and its reads without
those whose request failed. -/
structure Tally where
  arrivals : List String := []
  marks : List Mark := []

namespace Tally

def lastRead (marks : List Mark) : Nat := marks.foldr (fun mark n => max mark.position n) 0

def unread (t : Tally) : Nat := t.arrivals.length - lastRead t.marks

def receive (t : Tally) (myUserId : String) (call : Call) : Tally :=
  if call.fromUserId = myUserId ∨ call.messageId ∈ t.arrivals then t
  else { t with arrivals := t.arrivals ++ [call.messageId] }

def read (t : Tally) (receipt : Option Nat) : Tally :=
  { t with marks := t.marks ++ [⟨receipt, t.arrivals.length⟩] }

def fail (t : Tally) (k : Nat) : Tally := { t with marks := t.marks.filter fun mark => mark.receipt ≠ some k }

end Tally

structure Watched where
  inbox : Inbox
  tally : Tally := {}

variable (dates : Dates) (platform : Platform) (c : String)

def Watched.step (w : Watched) (e : Inbox.Event) : Watched :=
  let x := w.inbox
  let tally := match e with
    | .receiver _ =>
      match x.call dates e with
      | some call => if call.conversationId = c then w.tally.receive x.receiver.userId call else w.tally
      | none => w.tally
    | .markAsRead id => if id = c then w.tally.read none else w.tally
    | .sendReadReceipt id =>
      if id = c then w.tally.read (if x.readReceiptsEnabled then some x.sent else none) else w.tally
    | .answer k answer =>
      match x.receipts k with
      | some receipt => if receipt.conversationId = c ∧ answer ≠ .ok then w.tally.fail k else w.tally
      | none => w.tally
    | _ => w.tally
  ⟨x.step dates platform e, tally⟩

def Watched.Right (w : Watched) : Prop :=
  (find w.inbox.conversations c).map Conversation.unreadCount = some w.tally.unread

/-- A message is new, of somebody else and no system text, or it is held in the cache and known; a
request fails only where nothing was unread, or by an exception with nothing after it. -/
def Watched.Orderly (w : Watched) (e : Inbox.Event) : Prop :=
  let x := w.inbox
  match e with
  | .receiver _ =>
    ∀ call, x.call dates e = some call → call.conversationId = c →
      if call.alreadySeen then call.fromUserId = x.receiver.userId ∨ call.messageId ∈ w.tally.arrivals
      else call.fromUserId ≠ x.receiver.userId ∧ call.messageId ∉ w.tally.arrivals ∧
        startsWith call.content systemPrefix = false
  | .answer k answer =>
    ∀ receipt, x.receipts k = some receipt → receipt.conversationId = c → answer ≠ .ok →
      receipt.oldUnread = 0 ∧ (answer = .thrown → receipt.oldMention = 0) ∨
        answer = .thrown ∧ ∃ before, w.tally.marks = before ++ [⟨some k, w.tally.arrivals.length⟩]
  | _ => True

end Tally

section Count

theorem lastRead_append (front back : List Mark) :
    Tally.lastRead (front ++ back) = max (Tally.lastRead front) (Tally.lastRead back) := by
  induction front with
  | nil => simp [Tally.lastRead]
  | cons mark front ih =>
    change max mark.position (Tally.lastRead (front ++ back)) = max (max mark.position (Tally.lastRead front)) _
    rw [ih, Nat.max_assoc]

theorem lastRead_cons (mark : Mark) (marks : List Mark) :
    Tally.lastRead (mark :: marks) = max mark.position (Tally.lastRead marks) := rfl

theorem lastRead_le {marks : List Mark} {n : Nat} (bounded : ∀ mark ∈ marks, mark.position ≤ n) :
    Tally.lastRead marks ≤ n := by
  induction marks with
  | nil => exact Nat.zero_le n
  | cons mark marks ih =>
    rw [lastRead_cons]
    exact Nat.max_le.mpr ⟨bounded mark List.mem_cons_self, ih fun m inside => bounded m (List.mem_cons_of_mem _ inside)⟩

structure MarkOf (marks : List Mark) (k oldUnread : Nat) (before : List Mark) (mark : Mark) (after : List Mark) :
    Prop where
  whole : marks = before ++ mark :: after
  mine : mark.receipt = some k
  alone : ∀ m ∈ before ++ after, m.receipt ≠ some k
  old : oldUnread = mark.position - Tally.lastRead before

theorem MarkOf.failed {marks before after : List Mark} {mark : Mark} {k oldUnread : Nat}
    (found : MarkOf marks k oldUnread before mark after) :
    (marks.filter fun m => m.receipt ≠ some k) = before ++ after := by
  have kept : ∀ l : List Mark, (∀ m ∈ l, m.receipt ≠ some k) → (l.filter fun m => m.receipt ≠ some k) = l :=
    fun l alone => List.filter_eq_self.mpr fun m inside => decide_eq_true (alone m inside)
  rw [found.whole, List.filter_append, List.filter_cons_of_neg (by simpa using found.mine),
    kept before fun m inside => found.alone m (List.mem_append_left _ inside),
    kept after fun m inside => found.alone m (List.mem_append_right _ inside)]

theorem MarkOf.without {marks before after before' after' : List Mark} {mark mark' : Mark} {k j old old' : Nat}
    (found : MarkOf marks k old before mark after) (found' : MarkOf marks j old' before' mark' after') (apart : j ≠ k)
    (harmless : mark.position ≤ Tally.lastRead before ∨ after = []) :
    ∃ b a, MarkOf (before ++ after) j old' b mark' a := by
  have unlike : mark ≠ mark' := by
    rintro rfl
    exact apart (Option.some.inj (found'.mine.symm.trans found.mine))
  have split := found.whole.symm.trans found'.whole
  rcases List.append_eq_append_iff.mp split with ⟨middle, first, second⟩ | ⟨middle, first, second⟩
  · cases middle with
    | nil => exact (unlike (List.cons.inj second).1).elim
    | cons m middle =>
      obtain ⟨rfl, rest⟩ := List.cons.inj second
      subst first rest
      refine ⟨before ++ middle, after', by simp, found'.mine, fun m inside => found'.alone m ?_, ?_⟩
      · simp only [List.mem_append, List.mem_cons] at inside ⊢
        tauto
      · rw [found'.old, lastRead_append, lastRead_append, lastRead_cons]
        rcases harmless with less | last
        · omega
        · simp at last
  · cases middle with
    | nil => exact (unlike (List.cons.inj second).1.symm).elim
    | cons m middle =>
      obtain ⟨rfl, rest⟩ := List.cons.inj second
      subst first rest
      refine ⟨before', middle ++ after, by simp, found'.mine, fun m inside => found'.alone m ?_, found'.old⟩
      simp only [List.append_eq, List.mem_append, List.mem_cons] at inside ⊢
      tauto

theorem MarkOf.later {marks before after : List Mark} {mark : Mark} {k old : Nat}
    (found : MarkOf marks k old before mark after) {new : Mark} (other : new.receipt ≠ some k) :
    MarkOf (marks ++ [new]) k old before mark (after ++ [new]) := by
  refine ⟨by rw [found.whole, List.append_assoc, List.cons_append], found.mine, fun m inside => ?_, found.old⟩
  rw [← List.append_assoc] at inside
  rcases List.mem_append.mp inside with old | last
  · exact found.alone m old
  · rw [List.mem_singleton.mp last]
    exact other

variable {dates : Dates} {platform : Platform} {c : String} {w : Watched}

/-- The count of the list is that of the tally, and each request that is out has its mark. -/
structure Watched.Counts (w : Watched) (c : String) : Prop where
  shown : ∃ conv, find w.inbox.conversations c = some conv ∧ conv.unreadCount = w.tally.unread
  bounded : ∀ mark ∈ w.tally.marks, mark.position ≤ w.tally.arrivals.length
  numbered : ∀ mark ∈ w.tally.marks, ∀ k, mark.receipt = some k → k < w.inbox.sent
  out : ∀ k receipt, w.inbox.receipts k = some receipt → k < w.inbox.sent
  marked : ∀ k receipt, w.inbox.receipts k = some receipt → receipt.conversationId = c →
    ∃ before mark after, MarkOf w.tally.marks k receipt.oldUnread before mark after

theorem Watched.Counts.others (counts : w.Counts c) {x : Inbox}
    (list : find x.conversations c = find w.inbox.conversations c) (sent : w.inbox.sent ≤ x.sent)
    (receipts : ∀ k r, x.receipts k = some r →
      k < x.sent ∧ (r.conversationId = c → w.inbox.receipts k = some r)) : Watched.Counts ⟨x, w.tally⟩ c := by
  obtain ⟨conv, found, count⟩ := counts.shown
  refine ⟨⟨conv, list.trans found, count⟩, counts.bounded, ?_, fun k r waiting => (receipts k r waiting).1, ?_⟩
  · exact fun mark inside k mine => Nat.lt_of_lt_of_le (counts.numbered mark inside k mine) sent
  · exact fun k r waiting mine => counts.marked k r ((receipts k r waiting).2 mine) mine

theorem Watched.Counts.same (counts : w.Counts c) {x : Inbox}
    (list : find x.conversations c = find w.inbox.conversations c) (receipts : x.receipts = w.inbox.receipts)
    (sent : x.sent = w.inbox.sent) : Watched.Counts ⟨x, w.tally⟩ c := by
  refine counts.others list (Nat.le_of_eq sent.symm) fun k r waiting => ?_
  rw [receipts] at waiting
  exact ⟨sent ▸ counts.out k r waiting, fun _ => waiting⟩

theorem find_newMessage_of_ne {m : NewMessage} {other : String} (apart : other ≠ m.conversationId)
    (conversations : List Conversation) :
    find (((Update.newMessage m).apply conversations).getD conversations) other = find conversations other := by
  simp only [Update.apply]
  split
  · rfl
  · unfold receive
    cases found : find conversations m.conversationId with
    | none => rfl
    | some conv =>
      have unlike : (conv.receive m).id ≠ other := fun also => apart (also.symm.trans (find_some found).1)
      change find (conv.receive m :: without m.conversationId conversations) other = _
      rw [← find_without apart conversations]
      simp [find, unlike]

theorem find_newMessage {m : NewMessage} {conversations : List Conversation} {conv : Conversation}
    (user : startsWith m.content systemPrefix = false) (found : find conversations m.conversationId = some conv) :
    find (((Update.newMessage m).apply conversations).getD conversations) m.conversationId =
      some (conv.receive m) := by
  have same : (conv.receive m).id = m.conversationId := (find_some found).1
  simp only [Update.apply, user, Bool.false_eq_true, if_false, receive, found, Option.map_some, Option.getD_some]
  simp [find, same]

theorem Watched.Counts.receive (counts : w.Counts c) {call : Call} {myUserId : String} (here : call.conversationId = c)
    (orderly : if call.alreadySeen then call.fromUserId = myUserId ∨ call.messageId ∈ w.tally.arrivals
      else call.fromUserId ≠ myUserId ∧ call.messageId ∉ w.tally.arrivals ∧
        startsWith call.content systemPrefix = false) :
    Watched.Counts ⟨w.inbox.update (.newMessage call.newMessage), w.tally.receive myUserId call⟩ c := by
  obtain ⟨conv, found, count⟩ := counts.shown
  subst here
  cases seen : call.alreadySeen with
  | true =>
    rw [seen, if_pos rfl] at orderly
    have still : w.tally.receive myUserId call = w.tally := if_pos orderly
    rw [still]
    by_cases system : startsWith call.content systemPrefix = true
    · refine counts.same ?_ rfl rfl
      change find ((if startsWith call.content systemPrefix = true then none else _).getD _) _ = _
      rw [if_pos system]
      rfl
    · have shown := find_newMessage (m := call.newMessage) (eq_false_of_ne_true system) found
      refine ⟨⟨_, shown, ?_⟩, counts.bounded, counts.numbered, counts.out, counts.marked⟩
      simpa [Conversation.receive, Call.newMessage, seen] using count
  | false =>
    rw [seen, if_neg Bool.false_ne_true] at orderly
    obtain ⟨other, new, user⟩ := orderly
    have grown : w.tally.receive myUserId call =
        { w.tally with arrivals := w.tally.arrivals ++ [call.messageId] } := if_neg (not_or.mpr ⟨other, new⟩)
    rw [grown]
    have shown := find_newMessage (m := call.newMessage) user found
    have read := lastRead_le counts.bounded
    refine ⟨⟨_, shown, ?_⟩, fun mark inside => ?_, counts.numbered, counts.out, counts.marked⟩
    · simp only [Conversation.receive, Call.newMessage, seen, Bool.not_false, if_true, count, Tally.unread,
        List.length_append, List.length_singleton]
      omega
    · have before := counts.bounded mark inside
      simp only [List.length_append, List.length_singleton]
      omega

theorem Watched.Counts.read (counts : w.Counts c) {x : Inbox} (receipt : Option Nat)
    (list : x.conversations = (w.inbox.update (.markAsRead c)).conversations)
    (asks : receipt = none ∧ x.receipts = w.inbox.receipts ∧ x.sent = w.inbox.sent ∨
      receipt = some w.inbox.sent ∧ x.sent = w.inbox.sent + 1 ∧ ∃ r, r.conversationId = c ∧
        r.oldUnread = w.tally.unread ∧ x.receipts = Function.update w.inbox.receipts w.inbox.sent (some r)) :
    Watched.Counts ⟨x, w.tally.read receipt⟩ c := by
  obtain ⟨conv, found, count⟩ := counts.shown
  have read := lastRead_le counts.bounded
  have grows : w.inbox.sent ≤ x.sent := by
    rcases asks with ⟨-, -, same⟩ | ⟨-, more, -⟩ <;> omega
  have latest : ∀ k, receipt = some k → k = w.inbox.sent ∧ x.sent = w.inbox.sent + 1 := by
    intro k same
    rcases asks with ⟨none, -⟩ | ⟨mine, more, -⟩
    · cases none.symm.trans same
    · exact ⟨Option.some.inj (same.symm.trans mine), more⟩
  refine ⟨⟨{ conv with unreadCount := 0, mentionCount := 0 }, ?_, ?_⟩, ?_, ?_, ?_, ?_⟩
  · change find x.conversations c = _
    rw [list]
    exact find_modify found rfl (find_some found).1
  · change 0 = w.tally.arrivals.length - Tally.lastRead (w.tally.marks ++ [_])
    rw [lastRead_append]
    simp [Tally.lastRead]
  · intro mark inside
    rcases List.mem_append.mp inside with old | new
    · exact counts.bounded mark old
    · rw [List.mem_singleton.mp new]
      exact Nat.le_refl _
  · intro mark inside k mine
    rcases List.mem_append.mp inside with old | new
    · exact Nat.lt_of_lt_of_le (counts.numbered mark old k mine) grows
    · rw [List.mem_singleton.mp new] at mine
      obtain ⟨rfl, more⟩ := latest k mine
      change w.inbox.sent < x.sent
      omega
  · intro k r waiting
    change k < x.sent
    rcases asks with ⟨-, same, -⟩ | ⟨-, more, r', -, -, added⟩
    · exact Nat.lt_of_lt_of_le (counts.out k r (same ▸ waiting)) grows
    · change x.receipts k = some r at waiting
      rw [added] at waiting
      by_cases new : k = w.inbox.sent
      · omega
      · rw [Function.update_of_ne new] at waiting
        exact Nat.lt_of_lt_of_le (counts.out k r waiting) grows
  · intro k r waiting mine
    have old : ∀ k r, w.inbox.receipts k = some r → r.conversationId = c → receipt ≠ some k →
        ∃ before mark after, MarkOf (w.tally.marks ++ [⟨receipt, w.tally.arrivals.length⟩]) k r.oldUnread before mark after := by
      intro k r waiting mine other
      obtain ⟨before, mark, after, markOf⟩ := counts.marked k r waiting mine
      exact ⟨before, mark, _, markOf.later other⟩
    rcases asks with ⟨none, same, -⟩ | ⟨asked, -, r', here, unread, added⟩
    · exact old k r (same ▸ waiting) mine (by rw [none]; nofun)
    · change x.receipts k = some r at waiting
      rw [added] at waiting
      by_cases new : k = w.inbox.sent
      · subst new
        rw [Function.update_self] at waiting
        cases waiting
        refine ⟨w.tally.marks, ⟨receipt, w.tally.arrivals.length⟩, [], rfl, asked, fun m inside same => ?_, unread⟩
        rw [List.append_nil] at inside
        exact Nat.lt_irrefl _ (counts.numbered m inside _ same)
      · rw [Function.update_of_ne new] at waiting
        refine old k r waiting mine ?_
        rw [asked]
        exact fun same => new (Option.some.inj same).symm

theorem Watched.Counts.fail (counts : w.Counts c) {k : Nat} {receipt : Receipt} {answer : ReceiptAnswer}
    (waiting : w.inbox.receipts k = some receipt) (here : receipt.conversationId = c)
    (orderly : receipt.oldUnread = 0 ∧ (answer = .thrown → receipt.oldMention = 0) ∨
      answer = .thrown ∧ ∃ before, w.tally.marks = before ++ [⟨some k, w.tally.arrivals.length⟩]) :
    Watched.Counts ⟨w.inbox.answered k answer, w.tally.fail k⟩ c := by
  obtain ⟨conv, found, count⟩ := counts.shown
  obtain ⟨before, mark, after, markOf⟩ := counts.marked k receipt waiting here
  have failed : (w.tally.fail k).marks = before ++ after := markOf.failed
  have out : (w.inbox.answered k answer).receipts = Function.update w.inbox.receipts k none := by
    simp only [Inbox.answered, waiting]
  have list : (w.inbox.answered k answer).conversations =
      if answer = .thrown then Inbox.rollback receipt w.inbox.conversations else w.inbox.conversations := by
    simp only [Inbox.answered, waiting]
  have sent : (w.inbox.answered k answer).sent = w.inbox.sent := by simp only [Inbox.answered, waiting]
  have within : ∀ m ∈ before ++ after, m ∈ w.tally.marks := by
    intro m inside
    rw [markOf.whole]
    simp only [List.mem_append, List.mem_cons] at inside ⊢
    tauto
  have last : ∀ front : List Mark, w.tally.marks = front ++ [⟨some k, w.tally.arrivals.length⟩] →
      after = [] ∧ mark.position = w.tally.arrivals.length := by
    intro front ends
    rcases List.eq_nil_or_concat after with rfl | ⟨middle, m, rfl⟩
    · have same := List.append_inj_right' (ends.symm.trans markOf.whole) rfl
      rw [← (List.cons.inj same).1]
      exact ⟨rfl, rfl⟩
    · have whole := ends.symm.trans markOf.whole
      rw [List.concat_eq_append, ← List.cons_append, ← List.append_assoc] at whole
      have same := List.append_inj_right' whole rfl
      refine (markOf.alone m ?_ ?_).elim
      · simp
      · rw [← (List.cons.inj same).1]
  have harmless : mark.position ≤ Tally.lastRead before ∨ after = [] := by
    rcases orderly with ⟨nothing, -⟩ | ⟨-, front, ends⟩
    · have old := markOf.old
      omega
    · exact .inr (last front ends).1
  have unread : (w.tally.fail k).unread = w.tally.arrivals.length - Tally.lastRead (before ++ after) := by
    rw [Tally.unread, failed]
    rfl
  have count' : w.tally.unread = w.tally.arrivals.length - Tally.lastRead (before ++ mark :: after) := by
    rw [Tally.unread, markOf.whole]
  have untouched : receipt.oldUnread = 0 → (answer = .thrown → receipt.oldMention = 0) →
      (w.inbox.answered k answer).conversations = w.inbox.conversations := by
    intro nothing silent
    rw [list]
    split
    · next thrown =>
      rw [Inbox.rollback, nothing, silent thrown]
      rfl
    · rfl
  refine ⟨?_, ?_, ?_, ?_, ?_⟩
  · rw [unread]
    by_cases nothing : receipt.oldUnread = 0 ∧ (answer = .thrown → receipt.oldMention = 0)
    · rw [untouched nothing.1 nothing.2]
      refine ⟨conv, found, ?_⟩
      have old := markOf.old
      rw [count, count', lastRead_append, lastRead_append, lastRead_cons]
      omega
    · obtain ⟨thrown, front, ends⟩ := orderly.resolve_left nothing
      obtain ⟨rfl, position⟩ := last front ends
      have shows : receipt.oldUnread > 0 ∨ receipt.oldMention > 0 := by
        by_contra none
        exact nothing ⟨by omega, fun _ => by omega⟩
      have shown := find_modify (f := fun conv => some { conv with
        unreadCount := receipt.oldUnread, mentionCount := receipt.oldMention }) found rfl (find_some found).1
      rw [list, if_pos thrown, Inbox.rollback, if_pos shows, here]
      refine ⟨_, shown, ?_⟩
      change receipt.oldUnread = _
      rw [markOf.old, position, List.append_nil]
  · rw [failed]
    exact fun m inside => counts.bounded m (within m inside)
  · rw [failed, sent]
    exact fun m inside => counts.numbered m (within m inside)
  · rw [out, sent]
    intro j r answer'
    by_cases same : j = k
    · subst same
      rw [Function.update_self] at answer'
      cases answer'
    · rw [Function.update_of_ne same] at answer'
      exact counts.out j r answer'
  · rw [out, failed]
    intro j r answer' mine
    by_cases same : j = k
    · subst same
      rw [Function.update_self] at answer'
      cases answer'
    · rw [Function.update_of_ne same] at answer'
      obtain ⟨b, m, a, markOf'⟩ := counts.marked j r answer' mine
      obtain ⟨b', a', still⟩ := markOf.without markOf' same harmless
      exact ⟨b', m, a', still⟩

theorem find_markAsRead_of_ne {id : String} (apart : c ≠ id) (x : Inbox) :
    find (x.update (.markAsRead id)).conversations c = find x.conversations c :=
  find_modify_of_ne (fun _ _ same => by cases same; rfl) apart _

theorem Watched.Counts.step (counts : w.Counts c) (e : Inbox.Event) (orderly : w.Orderly dates c e) :
    (w.step dates platform c e).Counts c := by
  cases e with
  | receiver e =>
    simp only [Watched.step, Inbox.step]
    cases told : w.inbox.call dates (.receiver e) with
    | none => exact counts.same rfl rfl rfl
    | some call =>
      by_cases here : call.conversationId = c
      · simp only [if_pos here]
        exact (counts.receive here (orderly call told here)).same rfl rfl rfl
      · simp only [if_neg here]
        exact counts.same (find_newMessage_of_ne (Ne.symm here) _) rfl rfl
  | selfMessage | privacy => exact counts.same rfl rfl rfl
  | markAsRead id =>
    simp only [Watched.step, Inbox.step]
    split
    · next here =>
      subst here
      exact counts.read none rfl (.inl ⟨rfl, rfl, rfl⟩)
    · next other => exact counts.same (find_markAsRead_of_ne (Ne.symm other) _) rfl rfl
  | sendReadReceipt id =>
    simp only [Watched.step, Inbox.step, Inbox.sendReadReceipt]
    by_cases here : id = c
    · subst here
      obtain ⟨conv, found, count⟩ := counts.shown
      simp only [if_true]
      split
      · refine counts.read _ rfl (.inr ⟨rfl, rfl, _, rfl, ?_, rfl⟩)
        change ((find w.inbox.conversations id).map Conversation.unreadCount).getD 0 = _
        rw [found]
        exact count
      · exact counts.read none rfl (.inl ⟨rfl, rfl, rfl⟩)
    · simp only [if_neg here]
      split
      · refine counts.others (find_markAsRead_of_ne (Ne.symm here) _) (Nat.le_succ _) fun k r waiting => ?_
        change Function.update w.inbox.receipts w.inbox.sent _ k = some r at waiting
        by_cases new : k = w.inbox.sent
        · subst new
          rw [Function.update_self] at waiting
          cases waiting
          exact ⟨Nat.lt_succ_self _, fun mine => (here mine).elim⟩
        · rw [Function.update_of_ne new] at waiting
          exact ⟨Nat.lt_succ_of_lt (counts.out k r waiting), fun _ => waiting⟩
      · exact counts.same (find_markAsRead_of_ne (Ne.symm here) _) rfl rfl
  | answer k answer =>
    simp only [Watched.step, Inbox.step]
    cases waiting : w.inbox.receipts k with
    | none =>
      have still : w.inbox.answered k answer = w.inbox := by simp only [Inbox.answered, waiting]
      rw [still]
      exact counts.same rfl rfl rfl
    | some receipt =>
      by_cases failing : receipt.conversationId = c ∧ answer ≠ .ok
      · simp only [if_pos failing]
        exact counts.fail waiting failing.1 (orderly receipt waiting failing.1 failing.2)
      · simp only [if_neg failing]
        have after : w.inbox.answered k answer = { w.inbox with
            conversations := if answer = .thrown then Inbox.rollback receipt w.inbox.conversations
              else w.inbox.conversations
            receipts := Function.update w.inbox.receipts k none } := by simp only [Inbox.answered, waiting]
        rw [after]
        refine counts.others ?_ (Nat.le_refl _) fun j r answered => ?_
        · split
          · next thrown =>
            have other : c ≠ receipt.conversationId := fun same => failing ⟨same.symm, by rw [thrown]; nofun⟩
            unfold Inbox.rollback
            split
            · exact find_modify_of_ne (fun _ _ same => by cases same; rfl) other _
            · rfl
          · rfl
        · change Function.update w.inbox.receipts k none j = some r at answered
          by_cases same : j = k
          · subst same
            rw [Function.update_self] at answered
            cases answered
          · rw [Function.update_of_ne same] at answered
            exact ⟨counts.out j r answered, fun _ => answered⟩

/-- In an orderly run the unread count is the number of messages of others since the last read. -/
theorem unread_means_unread (dates : Dates) (platform : Platform) (c : String) (x : Inbox) (events : List Inbox.Event)
    (listed : (find x.conversations c).map Conversation.unreadCount = some 0) (idle : ∀ k, x.receipts k = none)
    (orderly : Along (Watched.step dates platform c) (Watched.Orderly dates c) ⟨x, {}⟩ events) :
    (events.foldl (Watched.step dates platform c) ⟨x, {}⟩).Right c := by
  have start : Watched.Counts ⟨x, {}⟩ c := by
    obtain ⟨conv, found, count⟩ := Option.map_eq_some_iff.mp listed
    refine ⟨⟨conv, found, count⟩, nofun, nofun, fun k r waiting => ?_, fun k r waiting => ?_⟩
    · cases (idle k).symm.trans waiting
    · cases (idle k).symm.trans waiting
  have counts := orderly.keeps (I := fun w => w.Counts c) (fun w e counts fine => counts.step e fine) start
  obtain ⟨conv, found, count⟩ := counts.shown
  rw [Watched.Right, found]
  exact congrArg some count

end Count

section Samples

def sampleDates : Dates := ⟨fun _ => none, "now"⟩

def sampleJson (fromUserId : String) : Frame
  | "content" => .str "hello"
  | "from_user_id" => .str fromUserId
  | "conversation_id" => .str "g"
  | "timestamp" => .str "2024-01-01"
  | "from_username" => .str "Bob"
  | "message_id" => .str "m"
  | _ => .null

def sampleInbox : Inbox where
  receiver := { userId := "me", isInitialized := true, conversations := [⟨"g", true, false⟩] }
  conversations := [{ id := "g", isGroup := true }]

theorem unread_means_unread_once :
    ([Inbox.Event.receiver (.newMessage (sampleJson "bob"))].foldl
      (Watched.step sampleDates Timeline.stablePlatform "g") ⟨sampleInbox, {}⟩).Right "g" := by
  have known : ∀ call, sampleInbox.call sampleDates (.receiver (.newMessage (sampleJson "bob"))) = some call →
      call.alreadySeen = false ∧ call.fromUserId = "bob" ∧ call.content = "hello" := by
    intro call told
    cases told
    decide +kernel
  refine unread_means_unread sampleDates Timeline.stablePlatform "g" sampleInbox _ rfl (fun _ => rfl) ⟨?_, trivial⟩
  intro call told _
  obtain ⟨seen, sender, content⟩ := known call told
  rw [if_neg (by rw [seen]; decide), sender, content]
  exact ⟨by decide, nofun, by decide⟩

/-- A message the user sent from another device counts as unread. -/
theorem own_message_unread :
    ¬ ([Inbox.Event.selfMessage (sampleJson "me"), .receiver (.finish 0 "")].foldl
      (Watched.step sampleDates Timeline.stablePlatform "g") ⟨sampleInbox, {}⟩).Right "g" := by
  let w := [Inbox.Event.selfMessage (sampleJson "me"), .receiver (.finish 0 "")].foldl
    (Watched.step sampleDates Timeline.stablePlatform "g") ⟨sampleInbox, {}⟩
  intro right
  have shown : (find w.inbox.conversations "g").map Conversation.unreadCount = some 1 := by decide +kernel
  have counted : w.tally.unread = 0 := by decide +kernel
  change _ = some w.tally.unread at right
  rw [counted] at right
  cases shown.symm.trans right

end Samples
end Echo.Conversations
