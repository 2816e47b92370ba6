import Echo.Lib.Along
import Echo.Timeline.Sends

/-! Sending and sending again: the optimistic entry, the encryption that goes on meanwhile, the failed entry
that an encryption leaves, the retries of the user and of a peer's new keys, and what the server answers. -/
namespace Echo.Timeline
open ChatState Chat

/-- An entry of `failedMessagesSnapshot`. -/
structure Stuck where
  conversationId : String
  message : ChatMessage

/-- How far a send has come. A retry of stuck messages goes on with the rest of its snapshot once the encryption
of this one is over. -/
inductive Stage
  | encrypting (retry : Bool) (rest : List Stuck)
  | framed
  | stored (messageId timestamp : String) (channelId : Option String) (expiresAt : Option Nat)

/-- A send under way, with the entry it was started for and the number of the message it is about; the number is
no part of the code. -/
structure Flight where
  message : Option Nat
  entryId : String
  conversationId : String
  channelId : Option String
  content : String
  replyToId : Option String
  threadRootId : Option String
  stage : Stage

/-- The chat and the sends under way. The rest is no state of the code: the conversation of each message sent,
the message an entry stands for, and the messages the server was asked to store and has stored. -/
structure Outgoing where
  chat : Chat := {}
  flights : List Flight := []
  sends : List String := []
  origin : String → String → Option Nat := fun _ _ => none
  asked : List (Option Nat) := []
  stored : List (Option Nat) := []

inductive Attempt
  | send (content myUserId : String) (username : Option String) (conversationId : String)
    (channelId replyToId replyToContent replyToUsername threadRootId : Option String)
  | retry (conversationId : String) (message : ChatMessage)
  -- the conversations that involve the peer
  | peerKeysPublished (conversations : List String)
  | encrypted (i : Nat) (connected : Bool)
  | encryptionFails (i : Nat) (reason myUserId username : String)
  | throws (i : Nat)
  | store (i : Nat) (messageId timestamp : String) (expiresAt : Option Nat)
  | reject (i : Nat)
  | lose (i : Nat)
  | confirm (i : Nat)
  | timer (pendingId : String)
  | tick (elapsed : Nat)

namespace Outgoing
variable (directory : Directory) (hasPeer : String → Bool) (platform : Platform)

def list (o : Outgoing) (c : String) : List ChatMessage := o.chat.state.messagesForConversation c

def name (o : Outgoing) (c id : String) (message : Option Nat) : Outgoing :=
  { o with origin := Function.update o.origin c (Function.update (o.origin c) id message) }

def send (o : Outgoing) (content me : String) (username : Option String) (c : String)
    (channel replyTo replyContent replyName threadRoot : Option String) : Outgoing :=
  let channelId := if directory.isGroup c then channel else none
  let number := o.sends.length
  { o.name c (pendingId o.chat.now) (some number) with
    chat := o.chat.addOptimistic platform content me username c channelId replyTo replyContent replyName threadRoot
    sends := o.sends ++ [c]
    flights := o.flights ++ [⟨some number, pendingId o.chat.now, c, channelId, content, replyTo, threadRoot,
      .encrypting false []⟩] }

def mark (o : Outgoing) (c id : String) (status : MessageStatus) : Outgoing :=
  { o with chat := o.chat.withState (updateMessageStatus o.chat.state c id status) }

def reachable (c : String) : Bool := directory.isGroup c || hasPeer c

/-- `_retryOneStuckMessage` and `retryMessage` up to their await, and the walk where there is none. -/
def resume (o : Outgoing) : List Stuck → Outgoing
  | [] => o
  | stuck :: rest =>
    let marked := o.mark stuck.conversationId stuck.message.id .sending
    if reachable directory hasPeer stuck.conversationId then
      { marked with flights := marked.flights ++ [
        { message := o.origin stuck.conversationId stuck.message.id
          entryId := stuck.message.id
          conversationId := stuck.conversationId
          channelId := if directory.isGroup stuck.conversationId then stuck.message.channelId else none
          content := stuck.message.failedContent.getD stuck.message.content
          replyToId := stuck.message.replyToId
          threadRootId := stuck.message.threadRootId
          stage := .encrypting true rest }] }
    else resume marked rest

def failedMessagesSnapshot (o : Outgoing) (conversations : List String) : List Stuck :=
  conversations.flatMap fun c => ((o.list c).filter fun m => m.status = .failed).map fun m => ⟨c, m⟩

def without (o : Outgoing) (i : Nat) : Outgoing := { o with flights := o.flights.eraseIdx i }

def advance (o : Outgoing) (i : Nat) (f : Flight) (stage : Stage) : Outgoing :=
  { o with flights := o.flights.set i { f with stage := stage } }

/-- `_addFailedMessage` -/
def addFailedMessage (o : Outgoing) (f : Flight) (reason me username : String) : Outgoing :=
  { o.name f.conversationId ("failed_" ++ toString o.chat.now) f.message with
    chat := o.chat.addMessage
      { id := "failed_" ++ toString o.chat.now
        fromUserId := me
        fromUsername := username
        conversationId := f.conversationId
        content := reason
        timestamp := platform.toIso8601String o.chat.now
        isMine := true
        status := .failed
        failedContent := some f.content } true }

/-- `_handleMessageSent`; the number goes over to the id of the server. -/
def confirmed (o : Outgoing) (c messageId timestamp : String) (channelId : Option String) (expiresAt : Option Nat) :
    Outgoing :=
  let next := { o with chat := o.chat.confirmSent messageId c timestamp channelId expiresAt }
  match replacePendingMessage messageId timestamp channelId expiresAt (o.list c) with
  | some (pendingId, _) => next.name c messageId (o.origin c pendingId)
  | none => next

def step (o : Outgoing) : Attempt → Outgoing
  | .send content me username c channel replyTo replyContent replyName threadRoot =>
    o.send directory platform content me username c channel replyTo replyContent replyName threadRoot
  | .retry c message => o.resume directory hasPeer [⟨c, message⟩]
  | .peerKeysPublished conversations => o.resume directory hasPeer (o.failedMessagesSnapshot conversations)
  | .encrypted i connected =>
    match o.flights[i]? with
    | some f =>
      match f.stage with
      | .encrypting _ rest => (if connected then o.advance i f .framed else o.without i).resume directory hasPeer rest
      | _ => o
    | none => o
  | .encryptionFails i reason me username =>
    match o.flights[i]? with
    | some f =>
      match f.stage with
      | .encrypting _ rest => ((o.without i).addFailedMessage platform f reason me username).resume directory hasPeer rest
      | _ => o
    | none => o
  -- only a retry marks its entry
  | .throws i =>
    match o.flights[i]? with
    | some f =>
      match f.stage with
      | .encrypting retry rest =>
        (if retry then (o.without i).mark f.conversationId f.entryId .failed else o.without i).resume directory hasPeer rest
      | _ => o
    | none => o
  | .store i messageId timestamp expiresAt =>
    match o.flights[i]? with
    | some f =>
      match f.stage with
      | .framed =>
        let channelId := if directory.isGroup f.conversationId then
            f.channelId <|> directory.defaultTextChannel f.conversationId
          else none
        { o.advance i f (.stored messageId timestamp channelId expiresAt) with
          asked := o.asked ++ [f.message]
          stored := o.stored ++ [f.message] }
      | _ => o
    | none => o
  | .reject i =>
    match o.flights[i]? with
    | some f =>
      match f.stage with
      | .framed => { o.without i with asked := o.asked ++ [f.message] }
      | _ => o
    | none => o
  | .lose i =>
    match o.flights[i]? with
    | some f =>
      match f.stage with
      | .encrypting .. => o
      | _ => o.without i
    | none => o
  | .confirm i =>
    match o.flights[i]? with
    | some f =>
      match f.stage with
      | .stored messageId timestamp channelId expiresAt =>
        (o.without i).confirmed f.conversationId messageId timestamp channelId expiresAt
      | _ => o
    | none => o
  | .timer pendingId => { o with chat := o.chat.timeout pendingId }
  | .tick elapsed => { o with chat := { o.chat with now := o.chat.now + elapsed } }

def run (attempts : List Attempt) : Outgoing := attempts.foldl (step directory hasPeer platform) {}

def Quiet (o : Outgoing) : Prop :=
  o.flights = [] ∧ ∀ c ∈ o.sends, ∀ m ∈ o.list c, o.chat.sendTimeouts m.id = none

instance (o : Outgoing) : Decidable o.Quiet := inferInstanceAs (Decidable (_ ∧ _))

def entries (o : Outgoing) (c : String) (k : Nat) : List ChatMessage := (o.list c).filter fun m => o.origin c m.id = some k

/-- Each message has one entry, which tells what the server did; and it asked the server once for one that is
sent. -/
def Told (o : Outgoing) : Prop :=
  ∀ k c, o.sends[k]? = some c → ∃ m, o.entries c k = [m] ∧
    (some k ∈ o.stored → m.status = .sent ∧ o.asked.count (some k) ≤ 1) ∧ (some k ∉ o.stored → m.status = .failed)

def timed (o : Outgoing) (f : Flight) : Bool :=
  (o.chat.sendTimeouts f.entryId).any fun timer => timer.conversationId == f.conversationId

def Ready (o : Outgoing) (c id : String) : Prop :=
  reachable directory hasPeer c = true ∧ ∃ m ∈ o.list c, m.id = id ∧ m.status = .failed

instance (o : Outgoing) (c id : String) : Decidable (o.Ready directory hasPeer c id) :=
  inferInstanceAs (Decidable (_ ∧ _))

def NextReady (o : Outgoing) (rest : List Stuck) : Prop :=
  ∀ next ∈ rest.head?, o.Ready directory hasPeer next.conversationId next.message.id

instance (o : Outgoing) (rest : List Stuck) : Decidable (o.NextReady directory hasPeer rest) :=
  inferInstanceAs (Decidable (∀ next ∈ rest.head?, o.Ready directory hasPeer next.conversationId next.message.id))

/-- The condition on a flight that goes on. No encryption fails; what is dropped before it is stored leaves an
entry whose timer runs; nothing is stored that was rejected before; no answer is lost, and it finds its own entry
first. -/
def GoesWell (o : Outgoing) (f : Flight) : Attempt → Stage → Prop
  | .encrypted _ connected, .encrypting _ rest =>
    (connected = true ∨ o.timed f = true) ∧ o.NextReady directory hasPeer rest
  | .encryptionFails .., .encrypting .. => False
  | .throws _, .encrypting retry rest => (retry = true ∨ o.timed f = true) ∧ o.NextReady directory hasPeer rest
  | .store .., .framed => f.message ∉ o.asked
  | .reject _, .framed => o.timed f = true
  | .lose _, .framed => o.timed f = true
  | .lose _, .stored .. => False
  | .confirm _, .stored messageId _ channelId _ =>
    ((o.list f.conversationId).find? (isPendingFor channelId)).map ChatMessage.id = some f.entryId ∧
      (∀ timer ∈ o.chat.sendTimeouts f.entryId, timer.conversationId = f.conversationId) ∧
      o.origin f.conversationId messageId = none
  | _, _ => True

instance (o : Outgoing) (f : Flight) : (attempt : Attempt) → (stage : Stage) →
    Decidable (o.GoesWell directory hasPeer f attempt stage)
  | .encrypted .., .encrypting .. => inferInstanceAs (Decidable (_ ∧ _))
  | .encryptionFails .., .encrypting .. => isFalse not_false
  | .throws _, .encrypting .. => inferInstanceAs (Decidable (_ ∧ _))
  | .store .., .framed => inferInstanceAs (Decidable (¬ _))
  | .reject _, .framed => inferInstanceAs (Decidable (_ = true))
  | .lose _, .framed => inferInstanceAs (Decidable (_ = true))
  | .lose _, .stored .. => isFalse not_false
  | .confirm _, .stored .. => inferInstanceAs (Decidable (_ ∧ _ ∧ _))
  | .encrypted .., .framed => isTrue trivial
  | .encrypted .., .stored .. => isTrue trivial
  | .encryptionFails .., .framed => isTrue trivial
  | .encryptionFails .., .stored .. => isTrue trivial
  | .throws _, .framed => isTrue trivial
  | .throws _, .stored .. => isTrue trivial
  | .store .., .encrypting .. => isTrue trivial
  | .store .., .stored .. => isTrue trivial
  | .reject _, .encrypting .. => isTrue trivial
  | .reject _, .stored .. => isTrue trivial
  | .lose _, .encrypting .. => isTrue trivial
  | .confirm _, .encrypting .. => isTrue trivial
  | .confirm _, .framed => isTrue trivial
  | .send .., _ => isTrue trivial
  | .retry .., _ => isTrue trivial
  | .peerKeysPublished _, _ => isTrue trivial
  | .timer _, _ => isTrue trivial
  | .tick _, _ => isTrue trivial

/-- The condition on what begins: a message has an id of its own and its conversation has room, retries find
their entries ready, and no timer fires while its message is under way. -/
def Begins (o : Outgoing) : Attempt → Prop
  | .send _ _ _ c _ _ _ _ _ =>
    c ≠ "" ∧ (o.list c).length < maxMessagesPerConv ∧ pendingId o.chat.now ∉ o.chat.state.knownIds c ∧
      o.origin c (pendingId o.chat.now) = none ∧ o.chat.sendTimeouts (pendingId o.chat.now) = none
  | .retry c message => o.Ready directory hasPeer c message.id
  | .peerKeysPublished conversations => o.NextReady directory hasPeer (o.failedMessagesSnapshot conversations)
  | .timer p => ∀ timer ∈ o.chat.sendTimeouts p, timer.due ≤ o.chat.now →
      ∀ f ∈ o.flights, ¬ (f.entryId = p ∧ f.conversationId = timer.conversationId)
  | _ => True

instance (o : Outgoing) : (attempt : Attempt) → Decidable (o.Begins directory hasPeer attempt)
  | .send .. => inferInstanceAs (Decidable (_ ∧ _ ∧ _ ∧ _ ∧ _))
  | .retry c message => inferInstanceAs (Decidable (o.Ready directory hasPeer c message.id))
  | .peerKeysPublished _ => inferInstanceAs (Decidable (NextReady ..))
  | .timer p => inferInstanceAs (Decidable (∀ timer ∈ o.chat.sendTimeouts p, timer.due ≤ o.chat.now →
      ∀ f ∈ o.flights, ¬ (f.entryId = p ∧ f.conversationId = timer.conversationId)))
  | .encrypted .. => isTrue trivial
  | .encryptionFails .. => isTrue trivial
  | .throws _ => isTrue trivial
  | .store .. => isTrue trivial
  | .reject _ => isTrue trivial
  | .lose _ => isTrue trivial
  | .confirm _ => isTrue trivial
  | .tick _ => isTrue trivial

def Attempt.flight : Attempt → Option Nat
  | .encrypted i _ | .encryptionFails i _ _ _ | .throws i | .store i _ _ _ | .reject i | .lose i | .confirm i => some i
  | _ => none

def Orderly (o : Outgoing) (attempt : Attempt) : Prop :=
  o.Begins directory hasPeer attempt ∧
    ∀ i ∈ Attempt.flight attempt, ∀ f ∈ o.flights[i]?, o.GoesWell directory hasPeer f attempt f.stage

instance (o : Outgoing) (attempt : Attempt) : Decidable (o.Orderly directory hasPeer attempt) :=
  inferInstanceAs (Decidable (_ ∧ _))

end Outgoing
end Echo.Timeline
