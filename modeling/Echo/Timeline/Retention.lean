import Echo.Timeline.Index

/- What a run of the store's operations may do to a message it has accepted. -/
namespace Echo.Timeline
open ChatState Chat
variable {platform : Platform}

def Op.Removes : Op → String → String → Prop
  | .deleteMessage conv messageId, c, id => c = conv ∧ id = messageId
  | .clearConversation conv, c, _ => c = conv
  | .clear, _, _ => True
  | _, _, _ => False

/-- The message keeps its id, or it waited for the confirmation that arrives and takes its id. -/
def Op.Becomes (op : Op) (c : String) (m m' : ChatMessage) : Prop :=
  m'.id = m.id ∨ ∃ messageId timestamp channelId expiresAt,
    op = .confirmSent messageId c timestamp channelId expiresAt ∧ isPendingFor channelId m = true ∧
      m' = m.confirmed messageId timestamp channelId expiresAt

/-- The list after the operation is the newest part of one that has every message stored before,
those it was asked to take out apart. -/
def Retains (s : ChatState) (op : Op) (s' : ChatState) : Prop :=
  ∀ c, ∃ whole, ids (s'.messagesForConversation c) = ids (trim whole) ∧
    ∀ m ∈ s.messagesForConversation c, ¬ op.Removes c m.id → ∃ m' ∈ whole, op.Becomes c m m'

theorem Retains.of_same {s s' t : ChatState} {op : Op} (kept : Retains s op s') (same : Same s' t) :
    Retains s op t := by
  intro c
  obtain ⟨whole, made, all⟩ := kept c
  exact ⟨whole, (same c).1.trans made, all⟩

theorem Retains.unchanged {s s' : ChatState} (shape : Represented s) {op : Op} {c : String}
    (same : ids (s'.messagesForConversation c) = ids (s.messagesForConversation c)) :
    ∃ whole, ids (s'.messagesForConversation c) = ids (trim whole) ∧
      ∀ m ∈ s.messagesForConversation c, ¬ op.Removes c m.id → ∃ m' ∈ whole, op.Becomes c m m' := by
  refine ⟨s.messagesForConversation c, ?_, fun m inside _ => ⟨m, inside, .inl rfl⟩⟩
  rw [trim_short (shape.bounded c)]
  exact same

theorem Retains.rebuild {s : ChatState} (shape : Represented s) {op : Op} {c : String} {whole : List ChatMessage}
    (all : ∀ m ∈ s.messagesForConversation c, ∃ m' ∈ whole, op.Becomes c m m') :
    Retains s op (s.rebuild c (trim whole)) := by
  intro d
  by_cases here : d = c
  · subst here
    refine ⟨whole, ?_, fun m inside _ => all m inside⟩
    rw [ChatState.rebuild, messagesForConversation_setIndex, messagesForConversation_setMessages, if_pos rfl]
  · apply Retains.unchanged shape
    rw [ChatState.rebuild, messagesForConversation_setIndex, messagesForConversation_setMessages, if_neg here]

theorem effect_retains {now : Nat} {s s' : ChatState} {op : Op} (shape : Represented s)
    (effect : Effect platform now s op s') : Retains s op s' := by
  cases effect with
  | same same => exact fun c => Retains.unchanged shape (same c).1
  | appended msg _ _ appended =>
    refine (Retains.rebuild shape fun m inside => ⟨m, List.mem_append_left _ inside, .inl rfl⟩).of_same appended
  | @confirmed c messageId timestamp pendingId channelId expiresAt updated replaced =>
    obtain ⟨before, msg, after, listed, -, pending, -, rfl⟩ := replacePendingMessage_some replaced
    have short := shape.bounded c
    rw [listed] at short
    have short' : (before ++ msg.confirmed messageId timestamp channelId expiresAt :: after).length ≤ maxMessagesPerConv := by
      simpa using short
    rw [← trim_short short']
    apply Retains.rebuild shape
    intro m inside
    rw [listed] at inside
    rcases List.mem_append.mp inside with inside | inside
    · exact ⟨m, List.mem_append_left _ inside, .inl rfl⟩
    · rcases List.mem_cons.mp inside with rfl | inside
      · exact ⟨_, List.mem_append_right _ List.mem_cons_self,
          .inr ⟨messageId, timestamp, channelId, expiresAt, rfl, pending, rfl⟩⟩
      · exact ⟨m, List.mem_append_right _ (List.mem_cons_of_mem _ inside), .inl rfl⟩
  | @merged c newMessages channelId _ merged =>
    refine (Retains.rebuild shape fun m inside => ⟨m, ?_, .inl rfl⟩).of_same merged
    exact (merged_perm s c newMessages).mem_iff.mpr (List.mem_append_right _ inside)
  | @deleted c messageId =>
    intro d
    refine ⟨(deleteMessage s c messageId).messagesForConversation d, ?_, ?_⟩
    · rw [trim_short]
      rw [deleteMessage_messages]
      split
      · exact (List.length_filter_le _ _).trans (shape.bounded d)
      · exact shape.bounded d
    · intro m inside stays
      refine ⟨m, ?_, .inl rfl⟩
      rw [deleteMessage_messages]
      split
      · next here =>
        exact List.mem_filter.mpr ⟨inside, decide_eq_true fun same => stays ⟨here, same⟩⟩
      · exact inside
  | @clearedOne c _ none _ others =>
    intro d
    by_cases here : d = c
    · subst here
      exact ⟨[], by rw [none]; rfl, fun m _ stays => absurd rfl stays⟩
    · exact Retains.unchanged shape (congrArg ids (others d here).1)
  | cleared => exact fun c => ⟨[], rfl, fun m _ stays => absurd trivial stays⟩

def Chat.run (platform : Platform) (ops : List Op) : Chat := ops.foldl (fun chat op => chat.perform platform op) {}

inductive Guarded (platform : Platform) : Chat → Prop
  | start : Guarded platform {}
  | step {chat : Chat} (op : Op) : Guarded platform chat → Unambiguous chat.state op →
    Guarded platform (chat.perform platform op)

/-- A merge that stays under the cap; the cut of a longer one may hide a repeated id. -/
def Untrimmed (platform : Platform) (s : ChatState) : Op → Prop
  | .mergeMessages c newMessages _ => (Chat.merged platform s c newMessages).length ≤ maxMessagesPerConv
  | _ => True

theorem start_represented : Represented {} where
  distinct _ := List.nodup_nil
  indexed _ := rfl
  bounded _ := Nat.zero_le _

theorem guarded_represented {chat : Chat} (run : Guarded platform chat) : Represented chat.state := by
  induction run with
  | start => exact start_represented
  | step op _ clear ih => exact effect_represented ih (perform_effect _ op) clear

theorem merge_unambiguous {chat : Chat} {c : String} {newMessages : List ChatMessage} {channelId : Option String}
    (untrimmed : Untrimmed platform chat.state (.mergeMessages c newMessages channelId))
    (shape' : Represented (mergeMessages platform chat.state c newMessages channelId)) :
    Unambiguous chat.state (.mergeMessages c newMessages channelId) := by
  have distinct := shape'.distinct c
  have listed : (mergeMessages platform chat.state c newMessages channelId).messagesForConversation c =
      Chat.merged platform chat.state c newMessages := by
    rw [← trim_short untrimmed]
    exact rebuild_messages _ _ _
  rw [listed, ((merged_perm chat.state c newMessages).map _).nodup_iff, List.map_append] at distinct
  exact (List.nodup_append'.mp distinct).1

theorem confirm_unambiguous {chat : Chat} {c messageId timestamp : String} {channelId : Option String}
    {expiresAt : Option Nat} (shape : Represented chat.state)
    (shape' : Represented (chat.confirmSent messageId c timestamp channelId expiresAt).state) :
    Unambiguous chat.state (.confirmSent messageId c timestamp channelId expiresAt) := by
  cases replaced : replacePendingMessage messageId timestamp channelId expiresAt
      (chat.state.messagesForConversation c) with
  | none =>
    intro msg found
    have pending := List.find?_some found
    rw [replacePendingMessage_none.mp replaced msg (List.mem_of_find?_eq_some found)] at pending
    contradiction
  | some made =>
    apply (confirmed_represented_iff shape replaced).mp
    have known : chat.state.messagesByConversation c = some (chat.state.messagesForConversation c) := by
      unfold messagesForConversation at replaced ⊢
      cases held : chat.state.messagesByConversation c with
      | none => simp [held, replacePendingMessage] at replaced
      | some messages => rfl
    simp only [confirmSent, known, replaced] at shape'
    exact shape'

def readBackFirst : List Op :=
  [.addOptimistic "hi" "me" none "c" none none none none none,
   .mergeMessages "c" [⟨"m1", "me", "Me", "c", none, "hi", "1", true, .sent, [], none, false, none, none, none, none,
      0, none, none, none, none⟩] none,
   .confirmSent "m1" "c" "1" none none]

theorem read_back_twice :
    ids ((Chat.run stablePlatform readBackFirst).state.messagesForConversation "c") = ["m1", "m1"] := by
  decide +kernel

def sentOnce : List Op :=
  [.addOptimistic "hi" "me" none "c" none none none none none, .confirmSent "m1" "c" "1" none none]

theorem guarded_sentOnce : Guarded stablePlatform (Chat.run stablePlatform sentOnce) := by
  let sent := Chat.run stablePlatform [sentOnce[0]]
  have guarded : Guarded stablePlatform sent := .step sentOnce[0] .start trivial
  have fresh : "m1" ∉ ids (sent.state.messagesForConversation "c") := by decide +kernel
  exact .step (.confirmSent "m1" "c" "1" none none) guarded fun msg _ taken => absurd taken fresh

end Echo.Timeline
