import Echo.Timeline.State
import Mathlib.Data.List.Lex
import Mathlib.Data.List.Sort

/- The operations of the notifier in `chat_provider.dart` and its parts. Each runs to its end
without an await, so a run of the client is a list of them. -/
namespace Echo.Timeline

/-- UTF-16 code units, the order in which `String.compareTo` reads a text. -/
def codeUnits (text : String) : List Nat :=
  text.toList.flatMap fun c =>
    if c.toNat < 0x10000 then [c.toNat]
    else [0xD800 + (c.toNat - 0x10000) / 0x400, 0xDC00 + (c.toNat - 0x10000) % 0x400]

/-- What the store takes from the platform: `List.sort` (the order of equal timestamps is not
specified) and the text of a moment. -/
structure Platform where
  sort : List ChatMessage → List ChatMessage
  perm : ∀ messages, (sort messages).Perm messages
  ordered : ∀ messages, (sort messages).Pairwise fun a b => codeUnits a.timestamp ≤ codeUnits b.timestamp
  toIso8601String : Nat → String

def stablePlatform : Platform where
  sort := List.insertionSort fun a b => codeUnits a.timestamp ≤ codeUnits b.timestamp
  perm := List.perm_insertionSort _
  ordered messages := by
    have total : Std.Total fun a b : ChatMessage => codeUnits a.timestamp ≤ codeUnits b.timestamp :=
      ⟨fun a b => le_total _ _⟩
    have trans : IsTrans ChatMessage fun a b => codeUnits a.timestamp ≤ codeUnits b.timestamp :=
      ⟨fun _ _ _ => le_trans⟩
    exact List.pairwise_insertionSort _ messages
  toIso8601String now := toString now

structure SendTimeout where
  conversationId : String
  content : String
  due : Nat
  deriving DecidableEq

structure Chat where
  state : ChatState := {}
  sendTimeouts : String → Option SendTimeout := fun _ => none
  now : Nat := 0

def sendTimeout : Nat := 15 * 1000

def historyKey (conversationId : String) (channelId : Option String) : String :=
  conversationId ++ ":" ++ channelId.getD ""

def amendReplyCount (s : ChatState) (conversationId parentId : String)
    (amend : Int → Option Int) : ChatState :=
  let messages := s.messagesForConversation conversationId
  match messages.findIdx? (fun m => m.id == parentId) with
  | none => s
  | some idx =>
    match messages[idx]? with
    | none => s
    | some parent =>
      match amend parent.replyCount with
      | none => s
      | some count => s.setMessages conversationId (messages.set idx { parent with replyCount := count })

def incrementReplyCount (s : ChatState) (conversationId parentId : String) : ChatState :=
  amendReplyCount s conversationId parentId fun count => some (count + 1)

def decrementReplyCount (s : ChatState) (conversationId parentId : String) : ChatState :=
  amendReplyCount s conversationId parentId fun count => if count ≤ 0 then none else some (count - 1)

/-- A pending message a confirmation for `channelId` may be matched with. -/
def isPendingFor (channelId : Option String) (msg : ChatMessage) : Bool :=
  startsWith msg.id "pending_" && msg.isMine && msg.status == .sending &&
    (channelId.isNone || msg.channelId == channelId)

def ChatMessage.confirmed (msg : ChatMessage) (messageId timestamp : String) (channelId : Option String)
    (expiresAt : Option Nat) : ChatMessage :=
  { msg with
    id := messageId
    timestamp := timestamp
    status := .sent
    channelId := channelId <|> msg.channelId
    expiresAt := expiresAt <|> msg.expiresAt }

def replacePendingMessage (messageId timestamp : String) (channelId : Option String) (expiresAt : Option Nat) :
    List ChatMessage → Option (String × List ChatMessage)
  | [] => none
  | msg :: rest =>
    if isPendingFor channelId msg then
      some (msg.id, msg.confirmed messageId timestamp channelId expiresAt :: rest)
    else
      (replacePendingMessage messageId timestamp channelId expiresAt rest).map fun r => (r.1, msg :: r.2)

/-- The rewriting of one message that `updateMessageStatus`, the edits and the reactions share;
a conversation without a list stays without one. -/
def mapMessages (s : ChatState) (conversationId : String) (change : ChatMessage → ChatMessage) : ChatState :=
  match s.messagesByConversation conversationId with
  | none => s
  | some messages => s.setMessages conversationId (messages.map change)

inductive Op
  | addMessage (msg : ChatMessage) (bumpReplyCount : Bool)
  | addOptimistic (content myUserId : String) (username : Option String) (conversationId : String)
    (channelId replyToId replyToContent replyToUsername threadRootId : Option String)
  | timeout (pendingId : String)
  | confirmSent (messageId conversationId timestamp : String) (channelId : Option String) (expiresAt : Option Nat)
  | updateMessageStatus (conversationId messageId : String) (status : MessageStatus)
  | markConversationRead (conversationId : String)
  | deleteMessage (conversationId messageId : String)
  | editMessage (conversationId messageId newContent : String) (editedAt : Option String)
  | updateMessagePin (conversationId messageId : String) (pinnedById : Option String) (pinnedAt : Option Nat)
  | addReaction (conversationId : String) (reaction : Reaction)
  | removeReaction (conversationId messageId userId emoji : String)
  | mergeMessages (conversationId : String) (newMessages : List ChatMessage) (channelId : Option String)
  | hydrate (latest : ChatMessage)
  | addSystemEvent (conversationId event : String)
  | setLoadingHistory (historyKey : String) (loading : Bool)
  | setReplyTo (message : ChatMessage) (asThread : Bool)
  | clearReplyTo
  | syncRestored (conversationId : String)
  | groupRotationNeeded (conversationId : String)
  | groupRotationCleared (conversationId : String)
  | signatureFailureCleared (conversationId : String)
  | clearConversation (conversationId : String)
  | clear
  | tick (elapsed : Nat)

namespace Chat
variable (platform : Platform)

def withState (chat : Chat) (s : ChatState) : Chat := { chat with state := s }

def addMessage (chat : Chat) (msg : ChatMessage) (bumpReplyCount : Bool) : Chat :=
  let alreadyKnown := decide (msg.id ∈ chat.state.knownIds msg.conversationId)
  let newState := chat.state.withMessage msg
  match msg.replyToId with
  | some parent =>
    if bumpReplyCount && !alreadyKnown then chat.withState (incrementReplyCount newState msg.conversationId parent)
    else chat.withState newState
  | none => chat.withState newState

def pendingId (now : Nat) : String := "pending_" ++ toString now

def optimistic (now : Nat) (content myUserId : String) (username : Option String) (conversationId : String)
    (channelId replyToId replyToContent replyToUsername threadRootId : Option String) : ChatMessage :=
  { id := pendingId now
    fromUserId := myUserId
    fromUsername := username.getD "You"
    conversationId := conversationId
    channelId := channelId
    content := content
    timestamp := platform.toIso8601String now
    isMine := true
    status := .sending
    replyToId := replyToId
    replyToContent := replyToContent
    replyToUsername := replyToUsername
    threadRootId := threadRootId
    failedContent := some content }

def addOptimistic (chat : Chat) (content myUserId : String) (username : Option String) (conversationId : String)
    (channelId replyToId replyToContent replyToUsername threadRootId : Option String) : Chat :=
  let msg := optimistic platform chat.now content myUserId username conversationId channelId replyToId
    replyToContent replyToUsername threadRootId
  let newState := chat.state.withMessage msg
  let newState := match replyToId with
    | some parent => incrementReplyCount newState conversationId parent
    | none => newState
  { chat with
    state := newState
    sendTimeouts := Function.update chat.sendTimeouts (pendingId chat.now)
      (some ⟨conversationId, content, chat.now + sendTimeout⟩) }

def transitionToFailed (s : ChatState) (conversationId pendingId originalContent : String) : ChatState :=
  let messages := s.messagesForConversation conversationId
  match messages.findIdx? (fun m => m.id == pendingId) with
  | none => s
  | some idx =>
    match messages[idx]? with
    | none => s
    | some msg =>
      if msg.status ≠ .sending then s
      else
        let updated := { msg with
          status := .failed
          content := originalContent
          failedContent := some originalContent }
        let newState := s.setMessages conversationId (messages.set idx updated)
        match msg.replyToId with
        | some parent => decrementReplyCount newState conversationId parent
        | none => newState

/-- The callback of the timer, at or after its due time; a cancelled timer does nothing. -/
def timeout (chat : Chat) (pendingId : String) : Chat :=
  match chat.sendTimeouts pendingId with
  | none => chat
  | some timer =>
    if timer.due ≤ chat.now then
      { chat with
        state := transitionToFailed chat.state timer.conversationId pendingId timer.content
        sendTimeouts := Function.update chat.sendTimeouts pendingId none }
    else chat

def confirmSent (chat : Chat) (messageId conversationId timestamp : String) (channelId : Option String)
    (expiresAt : Option Nat) : Chat :=
  match chat.state.messagesByConversation conversationId with
  | none => chat
  | some messages =>
    match replacePendingMessage messageId timestamp channelId expiresAt messages with
    | none => chat
    | some (replacedPendingId, updatedMessages) =>
      { chat with
        state := (chat.state.setMessages conversationId updatedMessages).setIndex conversationId
          (idSet updatedMessages)
        sendTimeouts := Function.update chat.sendTimeouts replacedPendingId none }

def updateMessageStatus (s : ChatState) (conversationId messageId : String) (status : MessageStatus) : ChatState :=
  let messages := s.messagesForConversation conversationId
  let newState := mapMessages s conversationId fun msg =>
    if msg.id = messageId then { msg with status := status } else msg
  match messages.find? (fun m => m.id == messageId) with
  | none => newState
  | some before =>
    match before.replyToId with
    | none => newState
    | some parent =>
      if before.status = .failed ∧ status ≠ .failed then incrementReplyCount newState conversationId parent
      else if before.status ≠ .failed ∧ status = .failed then decrementReplyCount newState conversationId parent
      else newState

def markConversationRead (s : ChatState) (conversationId : String) : ChatState :=
  mapMessages s conversationId fun msg =>
    if msg.isMine ∧ (msg.status = .sent ∨ msg.status = .delivered) then { msg with status := .read } else msg

def deleteMessage (s : ChatState) (conversationId messageId : String) : ChatState :=
  match s.messagesByConversation conversationId with
  | none => s
  | some messages =>
    (s.setMessages conversationId (messages.filter fun msg => msg.id ≠ messageId)).setIndex conversationId
      ((s.knownIds conversationId).erase messageId)

def editMessage (s : ChatState) (now : Nat) (conversationId messageId newContent : String)
    (editedAt : Option String) : ChatState :=
  mapMessages s conversationId fun msg =>
    if msg.id = messageId then
      { msg with content := newContent, editedAt := some (editedAt.getD (platform.toIso8601String now)) }
    else msg

def updateMessagePin (s : ChatState) (conversationId messageId : String) (pinnedById : Option String)
    (pinnedAt : Option Nat) : ChatState :=
  mapMessages s conversationId fun msg =>
    if msg.id = messageId then { msg with pinnedById := pinnedById, pinnedAt := pinnedAt } else msg

def removeReaction (s : ChatState) (conversationId messageId userId emoji : String) : ChatState :=
  mapMessages s conversationId fun msg =>
    if msg.id = messageId then
      { msg with reactions := msg.reactions.filter fun r => !(r.userId == userId && r.emoji == emoji) }
    else msg

def addReaction (s : ChatState) (conversationId : String) (reaction : Reaction) : ChatState :=
  mapMessages s conversationId fun msg =>
    if msg.id = reaction.messageId then
      { msg with reactions :=
          (msg.reactions.filter fun r => !(r.userId == reaction.userId && r.emoji == reaction.emoji)) ++ [reaction] }
    else msg

/-- The list `_mergeMessages` assembles, before the cap. -/
def merged (s : ChatState) (conversationId : String) (newMessages : List ChatMessage) : List ChatMessage :=
  let existing := s.messagesForConversation conversationId
  let deduped := newMessages.filter fun m => m.id ∉ idSet existing
  platform.sort (deduped ++ existing)

def mergeMessages (s : ChatState) (conversationId : String) (newMessages : List ChatMessage)
    (channelId : Option String) : ChatState :=
  let kept := trim (merged platform s conversationId newMessages)
  { (s.setMessages conversationId kept).setIndex conversationId (idSet kept) with
    hasMore := Function.update s.hasMore (historyKey conversationId channelId)
      (some (decide (50 ≤ newMessages.length))) }

def repeatsLast (existing : List ChatMessage) (event : String) : Bool :=
  match existing.getLast? with
  | some last => last.fromUserId == systemUserId && last.content == event
  | none => false

def addSystemEvent (s : ChatState) (now : Nat) (conversationId event : String) : ChatState :=
  if repeatsLast (s.messagesForConversation conversationId) event then s
  else
    s.withMessage
      { id := "system_" ++ toString now
        fromUserId := systemUserId
        fromUsername := "System"
        conversationId := conversationId
        content := event
        timestamp := platform.toIso8601String now
        isMine := false
        status := .sent }

def clearConversation (chat : Chat) (conversationId : String) : Chat :=
  let pending := (chat.state.messagesForConversation conversationId).filter fun m => startsWith m.id "pending_"
  { chat with
    state := { chat.state with
      messagesByConversation := Function.update chat.state.messagesByConversation conversationId none
      messageIdIndex := Function.update chat.state.messageIdIndex conversationId none }
    sendTimeouts := fun key => if key ∈ ids pending then none else chat.sendTimeouts key }

def clear (chat : Chat) : Chat := { chat with state := {}, sendTimeouts := fun _ => none }

def perform (chat : Chat) : Op → Chat
  | .addMessage msg bump => chat.addMessage msg bump
  | .addOptimistic content me username conv channel replyTo replyContent replyName threadRoot =>
    chat.addOptimistic platform content me username conv channel replyTo replyContent replyName threadRoot
  | .timeout pendingId => chat.timeout pendingId
  | .confirmSent messageId conv timestamp channel expiresAt =>
    chat.confirmSent messageId conv timestamp channel expiresAt
  | .updateMessageStatus conv messageId status =>
    chat.withState (updateMessageStatus chat.state conv messageId status)
  | .markConversationRead conv => chat.withState (markConversationRead chat.state conv)
  | .deleteMessage conv messageId => chat.withState (deleteMessage chat.state conv messageId)
  | .editMessage conv messageId newContent editedAt =>
    chat.withState (editMessage platform chat.state chat.now conv messageId newContent editedAt)
  | .updateMessagePin conv messageId pinnedById pinnedAt =>
    chat.withState (updateMessagePin chat.state conv messageId pinnedById pinnedAt)
  | .addReaction conv reaction => chat.withState (addReaction chat.state conv reaction)
  | .removeReaction conv messageId userId emoji =>
    chat.withState (removeReaction chat.state conv messageId userId emoji)
  | .mergeMessages conv newMessages channel =>
    chat.withState (mergeMessages platform chat.state conv newMessages channel)
  | .hydrate latest => chat.withState (chat.state.withMessage latest)
  | .addSystemEvent conv event => chat.withState (addSystemEvent platform chat.state chat.now conv event)
  | .setLoadingHistory key loading =>
    chat.withState { chat.state with loadingHistory := Function.update chat.state.loadingHistory key (some loading) }
  | .setReplyTo message asThread =>
    chat.withState { chat.state with replyToMessage := some message, replyAsThread := asThread }
  | .clearReplyTo => chat.withState { chat.state with replyToMessage := none, replyAsThread := false }
  | .syncRestored conv => chat.withState (chat.state.withSyncRestored conv)
  | .groupRotationNeeded conv => chat.withState (chat.state.withGroupRotationNeeded conv)
  | .groupRotationCleared conv => chat.withState (chat.state.withGroupRotationCleared conv)
  | .signatureFailureCleared conv => chat.withState (chat.state.withSignatureFailureCleared conv)
  | .clearConversation conv => chat.clearConversation conv
  | .clear => chat.clear
  | .tick elapsed => { chat with now := chat.now + elapsed }

end Chat
end Echo.Timeline
