import Echo.Client.GroupCrypto
import Echo.Lib.Along

/-! The conversation list of the client and the updates that come to it. Names, icons, mutes, pins
and timers of a conversation are left out. -/
namespace Echo.Conversations
open Echo.Client (startsWith)

structure ConversationMember where
  userId : String
  username : String
  role : Option String
  deriving DecidableEq

structure Conversation where
  id : String
  isGroup : Bool
  isEncrypted : Bool := false
  lastMessage : Option String := none
  lastMessageTimestamp : Option String := none
  lastMessageSender : Option String := none
  unreadCount : Nat := 0
  mentionCount : Nat := 0
  members : List ConversationMember := []
  deriving DecidableEq

/-- `MessageCache.failureSentinels` -/
def failureSentinels : List String :=
  ["[Message encrypted - history unavailable]", "[Encrypted history]",
    "[Could not decrypt - encryption keys may be out of sync]"]

def systemPrefix : String := "__system__:"

/-- A message for the list, as the handlers give it to `onNewMessage`. -/
structure NewMessage where
  conversationId : String
  content : String
  timestamp : String
  senderUsername : String
  incrementUnread : Bool := true
  isMention : Bool := false

section Lists

def find (conversations : List Conversation) (id : String) : Option Conversation :=
  conversations.find? fun conv => conv.id = id

theorem find_some {conversations : List Conversation} {id : String} {conv : Conversation}
    (found : find conversations id = some conv) : conv.id = id ∧ conv ∈ conversations := by
  have same := List.find?_some found
  exact ⟨of_decide_eq_true same, List.mem_of_find?_eq_some found⟩

/-- Change the first entry of a conversation in its place; nothing where there is none. -/
def modify (f : Conversation → Option Conversation) (id : String) : List Conversation → Option (List Conversation)
  | [] => none
  | conv :: rest =>
    if conv.id = id then (f conv).map fun conv => conv :: rest
    else (modify f id rest).map fun rest => conv :: rest

theorem find_modify_of_ne {f : Conversation → Option Conversation} (keeps : ∀ c c', f c = some c' → c'.id = c.id)
    {id other : String} (apart : other ≠ id) (conversations : List Conversation) :
    find ((modify f id conversations).getD conversations) other = find conversations other := by
  induction conversations with
  | nil => rfl
  | cons conv rest ih =>
    simp only [modify]
    split
    · next same =>
      cases made : f conv with
      | none => rfl
      | some conv' =>
        have old : conv.id ≠ other := fun also => apart (also.symm.trans same)
        have new : conv'.id ≠ other := by rw [keeps conv conv' made]; exact old
        simp [find, old, new]
    · cases made : modify f id rest with
      | none => rfl
      | some rest' =>
        rw [made] at ih
        change find (conv :: rest') other = _
        unfold find at ih ⊢
        rw [List.find?_cons, List.find?_cons]
        split
        · rfl
        · exact ih

theorem find_modify {f : Conversation → Option Conversation} {id : String} {conversations : List Conversation}
    {conv conv' : Conversation} (found : find conversations id = some conv) (made : f conv = some conv')
    (same : conv'.id = id) : find ((modify f id conversations).getD conversations) id = some conv' := by
  induction conversations with
  | nil => cases found
  | cons first rest ih =>
    unfold find at found
    rw [List.find?_cons] at found
    simp only [modify]
    by_cases here : first.id = id
    · rw [if_pos here]
      simp only [here, decide_true] at found
      cases found
      rw [made]
      simp [find, same]
    · rw [if_neg here]
      simp only [here, decide_false] at found
      have later := ih found
      cases changed : modify f id rest with
      | none =>
        rw [changed] at later
        simp only [find, Option.map_none, Option.getD_none, List.find?_cons, here, decide_false]
        exact later
      | some rest' =>
        rw [changed] at later
        simp only [find, Option.map_some, Option.getD_some, List.find?_cons, here, decide_false]
        exact later

def without (id : String) : List Conversation → List Conversation
  | [] => []
  | conv :: rest => if conv.id = id then rest else conv :: without id rest

theorem find_without {id other : String} (apart : other ≠ id) (conversations : List Conversation) :
    find (without id conversations) other = find conversations other := by
  induction conversations with
  | nil => rfl
  | cons conv rest ih =>
    simp only [without]
    split
    · next same =>
      have old : conv.id ≠ other := fun also => apart (also.symm.trans same)
      simp [find, old]
    · unfold find at ih ⊢
      rw [List.find?_cons, List.find?_cons]
      split
      · rfl
      · exact ih

def Conversation.receive (m : NewMessage) (conv : Conversation) : Conversation :=
  { conv with
    lastMessage := some m.content
    lastMessageTimestamp := some m.timestamp
    lastMessageSender := some m.senderUsername
    unreadCount := if m.incrementUnread then conv.unreadCount + 1 else conv.unreadCount
    mentionCount := if m.incrementUnread && m.isMention then conv.mentionCount + 1 else conv.mentionCount }

def receive (m : NewMessage) (conversations : List Conversation) : Option (List Conversation) :=
  (find conversations m.conversationId).map fun conv =>
    conv.receive m :: without m.conversationId conversations

def setRole (userId newRole : String) : List ConversationMember → Option (List ConversationMember)
  | [] => none
  | member :: rest =>
    if member.userId = userId then some ({ member with role := some newRole } :: rest)
    else (setRole userId newRole rest).map fun rest => member :: rest

def Conversation.addGroupMember (member : ConversationMember) (conv : Conversation) : Option Conversation :=
  if conv.members.any fun m => m.userId = member.userId then none
  else some { conv with members := conv.members ++ [member] }

end Lists

inductive Update
  | newMessage (m : NewMessage)
  | markAsRead (id : String)
  | messageEdited (id newContent : String)
  | memberAdded (id : String) (member : ConversationMember)
  | memberRoleChanged (id userId newRole : String)
  | removed (id : String)

/-- The list after an update, nothing where the handler leaves the state alone. -/
def Update.apply (conversations : List Conversation) : Update → Option (List Conversation)
  | .newMessage m => if startsWith m.content systemPrefix then none else receive m conversations
  | .markAsRead id => modify (fun conv => some { conv with unreadCount := 0, mentionCount := 0 }) id conversations
  | .messageEdited id newContent =>
    modify (fun conv => some { conv with lastMessage := some newContent }) id conversations
  | .memberAdded id member => modify (Conversation.addGroupMember member) id conversations
  | .memberRoleChanged id userId newRole =>
    modify (fun conv => (setRole userId newRole conv.members).map fun members => { conv with members }) id
      conversations
  | .removed id => some (conversations.filter fun conv => conv.id ≠ id)

def replay (updates : List Update) (conversations : List Conversation) : List Conversation :=
  updates.foldl (fun conversations u => (u.apply conversations).getD conversations) conversations

theorem replay_append (updates : List Update) (u : Update) (conversations : List Conversation) :
    replay (updates ++ [u]) conversations =
      (u.apply (replay updates conversations)).getD (replay updates conversations) :=
  List.foldl_append ..

end Echo.Conversations
