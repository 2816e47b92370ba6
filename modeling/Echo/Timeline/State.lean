import Mathlib.Data.Finset.Image
import Mathlib.Data.List.Nodup

/- The immutable state of `chat_state.dart`: the messages of each conversation, the redundant
index of their ids, and the counters the banners read. -/
namespace Echo.Timeline

inductive MessageStatus
  | sending | sent | delivered | read | failed
  deriving DecidableEq

structure Reaction where
  messageId : String
  userId : String
  username : String
  emoji : String
  deriving DecidableEq

/-- The fields the store reads or writes; the thread preview of a history row is left out. -/
structure ChatMessage where
  id : String
  fromUserId : String
  fromUsername : String
  conversationId : String
  channelId : Option String := none
  content : String
  timestamp : String
  isMine : Bool
  status : MessageStatus := .sent
  reactions : List Reaction := []
  editedAt : Option String := none
  isEncrypted : Bool := false
  replyToId : Option String := none
  replyToContent : Option String := none
  replyToUsername : Option String := none
  threadRootId : Option String := none
  replyCount : Int := 0
  pinnedById : Option String := none
  pinnedAt : Option Nat := none
  expiresAt : Option Nat := none
  failedContent : Option String := none
  deriving DecidableEq

def systemUserId : String := "__system__"

def ChatMessage.isSystemEvent (m : ChatMessage) : Bool := m.fromUserId == systemUserId

def startsWith (text start : String) : Bool := start.toList.isPrefixOf text.toList

def placeholderContents : List String := ["Securing message...", "[Encrypted for another device of this account]"]

def isPlaceholderContent (content : String) : Bool :=
  placeholderContents.contains content || startsWith content "[Could not decrypt"

def maxMessagesPerConv : Nat := 500

abbrev ids (messages : List ChatMessage) : List String := messages.map ChatMessage.id

def idSet (messages : List ChatMessage) : Finset String := (ids messages).toFinset

structure ChatState where
  messagesByConversation : String → Option (List ChatMessage) := fun _ => none
  messageIdIndex : String → Option (Finset String) := fun _ => none
  loadingHistory : String → Option Bool := fun _ => none
  hasMore : String → Option Bool := fun _ => none
  replyToMessage : Option ChatMessage := none
  replyAsThread : Bool := false
  consecutiveDecryptFailures : String → Option Nat := fun _ => none
  signatureFailures : Finset String := ∅
  groupsNeedingRotation : Finset String := ∅

def trim (messages : List ChatMessage) : List ChatMessage :=
  if maxMessagesPerConv < messages.length then messages.drop (messages.length - maxMessagesPerConv)
  else messages

namespace ChatState

def messagesForConversation (s : ChatState) (conversationId : String) : List ChatMessage :=
  (s.messagesByConversation conversationId).getD []

def knownIds (s : ChatState) (conversationId : String) : Finset String :=
  (s.messageIdIndex conversationId).getD ∅

def setMessages (s : ChatState) (conversationId : String) (messages : List ChatMessage) : ChatState :=
  { s with messagesByConversation := Function.update s.messagesByConversation conversationId (some messages) }

def setIndex (s : ChatState) (conversationId : String) (known : Finset String) : ChatState :=
  { s with messageIdIndex := Function.update s.messageIdIndex conversationId (some known) }

def trackDecryptFailures (s : ChatState) (msg : ChatMessage) : ChatState :=
  let prev := (s.consecutiveDecryptFailures msg.conversationId).getD 0
  let nextFailures :=
    if startsWith msg.content "[Could not decrypt" then
      Function.update s.consecutiveDecryptFailures msg.conversationId (some (prev + 1))
    else if 0 < prev && !isPlaceholderContent msg.content && !msg.isSystemEvent then
      Function.update s.consecutiveDecryptFailures msg.conversationId none
    else s.consecutiveDecryptFailures
  let nextSigFailures :=
    if startsWith msg.content "[Could not verify sender" then insert msg.conversationId s.signatureFailures
    else s.signatureFailures
  { s with consecutiveDecryptFailures := nextFailures, signatureFailures := nextSigFailures }

def appendOrReplaceMessage (s : ChatState) (msg : ChatMessage) : ChatState :=
  let existing := s.messagesForConversation msg.conversationId
  if msg.id ∉ s.knownIds msg.conversationId then
    let updated := trim (existing ++ [msg])
    (s.setMessages msg.conversationId updated).setIndex msg.conversationId (idSet updated)
  else
    match existing.findIdx? (fun m => m.id == msg.id) with
    | none => s
    | some idx =>
      match existing[idx]? with
      | none => s
      | some held =>
        if held.isEncrypted && isPlaceholderContent held.content then
          s.setMessages msg.conversationId (existing.set idx msg)
        else s

/-- The new state is built without `replyAsThread`, which falls back to its default. -/
def withMessage (s : ChatState) (msg : ChatMessage) : ChatState :=
  let next := if msg.conversationId = "" then s else (s.trackDecryptFailures msg).appendOrReplaceMessage msg
  { next with replyAsThread := false }

def withSyncRestored (s : ChatState) (conversationId : String) : ChatState :=
  if (s.consecutiveDecryptFailures conversationId).isNone then s
  else
    { s with
      consecutiveDecryptFailures := Function.update s.consecutiveDecryptFailures conversationId none
      replyAsThread := false }

def withGroupRotationNeeded (s : ChatState) (conversationId : String) : ChatState :=
  if conversationId ∈ s.groupsNeedingRotation then s
  else { s with groupsNeedingRotation := insert conversationId s.groupsNeedingRotation, replyAsThread := false }

def withGroupRotationCleared (s : ChatState) (conversationId : String) : ChatState :=
  if conversationId ∉ s.groupsNeedingRotation then s
  else { s with groupsNeedingRotation := s.groupsNeedingRotation.erase conversationId, replyAsThread := false }

def withSignatureFailureCleared (s : ChatState) (conversationId : String) : ChatState :=
  if conversationId ∉ s.signatureFailures then s
  else { s with signatureFailures := s.signatureFailures.erase conversationId, replyAsThread := false }

@[simp] theorem messagesForConversation_setMessages (s : ChatState) (c d : String) (messages : List ChatMessage) :
    (s.setMessages c messages).messagesForConversation d =
      if d = c then messages else s.messagesForConversation d := by
  by_cases same : d = c
  · subst same
    simp [messagesForConversation, setMessages]
  · simp [messagesForConversation, setMessages, same]

@[simp] theorem knownIds_setMessages (s : ChatState) (c d : String) (messages : List ChatMessage) :
    (s.setMessages c messages).knownIds d = s.knownIds d := rfl

@[simp] theorem messagesForConversation_setIndex (s : ChatState) (c d : String) (known : Finset String) :
    (s.setIndex c known).messagesForConversation d = s.messagesForConversation d := rfl

@[simp] theorem knownIds_setIndex (s : ChatState) (c d : String) (known : Finset String) :
    (s.setIndex c known).knownIds d = if d = c then known else s.knownIds d := by
  by_cases same : d = c
  · subst same
    simp [knownIds, setIndex]
  · simp [knownIds, setIndex, same]

end ChatState

theorem trim_eq_drop (messages : List ChatMessage) :
    trim messages = messages.drop (messages.length - maxMessagesPerConv) := by
  unfold trim
  split
  · rfl
  · next short =>
    rw [Nat.sub_eq_zero_of_le (by omega), List.drop_zero]

theorem trim_short {messages : List ChatMessage} (short : messages.length ≤ maxMessagesPerConv) :
    trim messages = messages := if_neg (by omega)

theorem length_trim_le (messages : List ChatMessage) : (trim messages).length ≤ maxMessagesPerConv := by
  rw [trim_eq_drop, List.length_drop]
  omega

theorem trim_sublist (messages : List ChatMessage) : (trim messages).Sublist messages := by
  rw [trim_eq_drop]
  exact List.drop_sublist _ _

theorem ids_set {messages : List ChatMessage} {idx : Nat} {held msg : ChatMessage}
    (found : messages[idx]? = some held) (same : msg.id = held.id) :
    ids (messages.set idx msg) = ids messages := by
  obtain ⟨inside, rfl⟩ := List.getElem?_eq_some_iff.mp found
  unfold ids
  have bound : idx < (messages.map ChatMessage.id).length := by simpa using inside
  have here : msg.id = (messages.map ChatMessage.id)[idx] := by simpa using same
  rw [List.map_set, here, List.set_getElem_self]

end Echo.Timeline
