import Echo.Conversations.State
import Echo.Timeline.Chronology

/-! Copies of one message from the cache, the history and the live socket, of which only some could be decrypted. -/
namespace Echo.Timeline
open ChatState Chat
open Echo.Lib (Along cutOff newest cutOff_append_newest)
variable (platform : Platform)

def ChatMessage.isReadable (m : ChatMessage) : Bool :=
  !isPlaceholderContent m.content && !Conversations.failureSentinels.contains m.content &&
    !startsWith m.content "[Could not verify sender"

def Call.conversationId : Call → String
  | withMessage msg => msg.conversationId
  | mergeMessages conversationId _ _ => conversationId

namespace ChatState
variable (s : ChatState)

def Shows (c id : String) : Prop := ∃ m ∈ s.messagesForConversation c, m.id = id ∧ m.isReadable = true

def Waits (c id : String) : Prop := id ∈ ids (s.messagesForConversation c) ∧ ¬ s.Shows c id

instance (msg : ChatMessage) : Decidable (s.Appends msg) := inferInstanceAs (Decidable (_ ∧ _))

def cut : Call → List ChatMessage
  | .withMessage msg =>
    if s.Appends msg then cutOff maxMessagesPerConv (s.messagesForConversation msg.conversationId ++ [msg]) else []
  | .mergeMessages c newMessages _ => cutOff maxMessagesPerConv (merged platform s c newMessages)

/-- A decrypted copy takes the place of placeholders, and stays in the list unless the cap takes it. -/
structure Better (call : Call) : Prop where
  wins : ∀ m ∈ call.messages, m.isReadable = true → s.Waits call.conversationId m.id →
    m ∈ (s.call platform call).messagesForConversation call.conversationId
  stays : ∀ c, ∀ m ∈ s.messagesForConversation c, m.isReadable = true →
    m ∈ (s.call platform call).messagesForConversation c ∨ c = call.conversationId ∧ m ∈ s.cut platform call

/-- The first entry with the id is a placeholder that a live copy replaces. -/
structure ReplaceableAt (c id : String) (idx : Nat) (held : ChatMessage) : Prop where
  first : (s.messagesForConversation c).findIdx? (fun m => m.id == id) = some idx
  here : (s.messagesForConversation c)[idx]? = some held
  encrypted : held.isEncrypted = true
  placeholder : isPlaceholderContent held.content = true

def Replaceable (c id : String) : Prop := ∃ idx held, s.ReplaceableAt c id idx held

/-- A merge brings no decrypted copy of a message that waits for one, and a live one comes to what it replaces. -/
def Ready : Call → Prop
  | .withMessage msg => msg.isReadable = true → s.Waits msg.conversationId msg.id →
      msg.conversationId ≠ "" ∧ s.Replaceable msg.conversationId msg.id
  | .mergeMessages c newMessages _ => ∀ m ∈ newMessages, m.isReadable = true → ¬ s.Waits c m.id

def Indexed : Prop := ∀ c, s.knownIds c = idSet (s.messagesForConversation c)

end ChatState

def Call.Brings (call : Call) (c id : String) : Prop :=
  call.conversationId = c ∧ (∀ msg, call = .withMessage msg → c ≠ "") ∧
    ∃ m ∈ call.messages, m.id = id ∧ m.isReadable = true

variable {platform}

section Lists
variable {s : ChatState} {c d : String} {msg : ChatMessage}

theorem ChatState.Indexed.mem_iff (indexed : s.Indexed) {id : String} :
    id ∈ s.knownIds c ↔ id ∈ ids (s.messagesForConversation c) := by
  rw [indexed c, idSet, List.mem_toFinset]

theorem ChatState.Indexed.of_same {t : ChatState} (indexed : s.Indexed) (same : Same s t) : t.Indexed := by
  intro c
  rw [(same c).2, indexed c, idSet, idSet, (same c).1]

theorem ChatState.Indexed.rebuild (indexed : s.Indexed) (c : String) (messages : List ChatMessage) :
    (s.rebuild c messages).Indexed := by
  intro d
  rw [ChatState.rebuild, knownIds_setIndex, messagesForConversation_setIndex, messagesForConversation_setMessages]
  split
  · rfl
  · exact indexed d

theorem ChatState.Indexed.call (indexed : s.Indexed) (call : Call) : (s.call platform call).Indexed := by
  cases call with
  | withMessage msg =>
    rcases withMessage_cases s msg with same | ⟨-, made⟩
    · exact indexed.of_same same
    · exact (indexed.rebuild _ _).of_same made
  | mergeMessages c newMessages channelId => exact indexed.rebuild c _

theorem withMessage_elsewhere (s : ChatState) (apart : d ≠ msg.conversationId) :
    (s.withMessage msg).messagesForConversation d = s.messagesForConversation d := by
  have same : (s.trackDecryptFailures msg).messagesForConversation d = s.messagesForConversation d := rfl
  rw [withMessage, ← same]
  split
  · rfl
  · change ((s.trackDecryptFailures msg).appendOrReplaceMessage msg).messagesForConversation d = _
    unfold appendOrReplaceMessage
    dsimp only
    split
    · rw [messagesForConversation_setIndex, messagesForConversation_setMessages, if_neg apart]
    · split
      · rfl
      · split
        · rfl
        · split
          · rw [messagesForConversation_setMessages, if_neg apart]
          · rfl

theorem withMessage_known (known : ¬ s.Appends msg) :
    (msg.conversationId ≠ "" ∧ ∃ idx held, s.ReplaceableAt msg.conversationId msg.id idx held ∧
        (s.withMessage msg).messagesForConversation msg.conversationId =
          (s.messagesForConversation msg.conversationId).set idx msg) ∨
      ¬ (msg.conversationId ≠ "" ∧ s.Replaceable msg.conversationId msg.id) ∧
        (s.withMessage msg).messagesForConversation msg.conversationId = s.messagesForConversation msg.conversationId := by
  by_cases named : msg.conversationId = ""
  · refine Or.inr ⟨fun both => both.1 named, ?_⟩
    rw [withMessage, if_pos named]
    rfl
  · have held_id : ¬ msg.id ∉ (s.trackDecryptFailures msg).knownIds msg.conversationId := fun new => known ⟨named, new⟩
    have after : (s.withMessage msg).messagesForConversation msg.conversationId =
        ((s.trackDecryptFailures msg).appendOrReplaceMessage msg).messagesForConversation msg.conversationId := by
      rw [withMessage, if_neg named]
      rfl
    have list : (s.trackDecryptFailures msg).messagesForConversation msg.conversationId =
        s.messagesForConversation msg.conversationId := rfl
    rw [after, appendOrReplaceMessage, if_neg held_id, list]
    cases found : (s.messagesForConversation msg.conversationId).findIdx? (fun m => m.id == msg.id) with
    | none =>
      refine Or.inr ⟨?_, rfl⟩
      rintro ⟨-, idx, held, at_⟩
      cases found.symm.trans at_.first
    | some idx =>
      cases here : (s.messagesForConversation msg.conversationId)[idx]? with
      | none =>
        refine Or.inr ⟨?_, by simp only [here]; rfl⟩
        rintro ⟨-, idx', held, at_⟩
        cases found.symm.trans at_.first
        cases here.symm.trans at_.here
      | some held =>
        simp only [here]
        by_cases waits : (held.isEncrypted && isPlaceholderContent held.content) = true
        · rw [if_pos waits, messagesForConversation_setMessages, if_pos rfl]
          rw [Bool.and_eq_true] at waits
          exact Or.inl ⟨named, idx, held, ⟨found, here, waits.1, waits.2⟩, rfl⟩
        · rw [if_neg waits]
          refine Or.inr ⟨?_, rfl⟩
          rintro ⟨-, idx', held', at_⟩
          cases found.symm.trans at_.first
          cases here.symm.trans at_.here
          exact waits (by rw [at_.encrypted, at_.placeholder, Bool.and_self])

end Lists

section Step
variable {s : ChatState}

variable {c : String} {m : ChatMessage} {call : Call}

theorem not_shows {id : String} (waits : s.Waits c id) (mem : m ∈ s.messagesForConversation c)
    (same : m.id = id) : m.isReadable = false := by
  refine Bool.eq_false_iff.mpr fun readable => waits.2 ⟨m, mem, same, readable⟩

theorem isReadable_of_placeholder (placeholder : isPlaceholderContent m.content = true) :
    m.isReadable = false := by
  rw [ChatMessage.isReadable, placeholder, Bool.not_true, Bool.false_and, Bool.false_and]

theorem merge_elsewhere (s : ChatState) {d : String} (newMessages : List ChatMessage) (channelId : Option String)
    (apart : d ≠ c) :
    (mergeMessages platform s c newMessages channelId).messagesForConversation d = s.messagesForConversation d := by
  change (s.rebuild c _).messagesForConversation d = _
  rw [ChatState.rebuild, messagesForConversation_setIndex, messagesForConversation_setMessages, if_neg apart]

theorem mem_merged {newMessages : List ChatMessage} :
    m ∈ merged platform s c newMessages ↔
      (m ∈ newMessages ∧ m.id ∉ ids (s.messagesForConversation c)) ∨ m ∈ s.messagesForConversation c := by
  rw [(merged_perm s c newMessages).mem_iff, List.mem_append, List.mem_filter, decide_eq_true_eq, idSet, List.mem_toFinset]

theorem live_wins_iff (indexed : s.Indexed) {msg : ChatMessage} (readable : msg.isReadable = true)
    (waits : s.Waits msg.conversationId msg.id) :
    msg ∈ (s.withMessage msg).messagesForConversation msg.conversationId ↔
      msg.conversationId ≠ "" ∧ s.Replaceable msg.conversationId msg.id := by
  have known : ¬ s.Appends msg := fun appends => appends.2 (indexed.mem_iff.mpr waits.1)
  rcases withMessage_known known with ⟨named, idx, held, at_, list⟩ | ⟨stuck, list⟩
  · refine iff_of_true ?_ ⟨named, idx, held, at_⟩
    rw [list]
    exact List.mem_set (List.getElem?_eq_some_iff.mp at_.here).1 msg
  · rw [list]
    refine iff_of_false (fun mem => ?_) stuck
    exact Bool.false_ne_true ((not_shows waits mem rfl).symm.trans readable)

theorem merge_loses {newMessages : List ChatMessage} {channelId : Option String}
    (readable : m.isReadable = true) (waits : s.Waits c m.id) :
    m ∉ (mergeMessages platform s c newMessages channelId).messagesForConversation c := by
  rw [merge_messages]
  intro mem
  rcases mem_merged.mp ((List.drop_sublist _ _).subset mem) with ⟨-, new⟩ | held
  · exact new waits.1
  · exact Bool.false_ne_true ((not_shows waits held rfl).symm.trans readable)

variable (platform) in
theorem wins_iff (indexed : s.Indexed) (call : Call) :
    (∀ m ∈ call.messages, m.isReadable = true → s.Waits call.conversationId m.id →
        m ∈ (s.call platform call).messagesForConversation call.conversationId) ↔ s.Ready call := by
  cases call with
  | withMessage msg =>
    constructor
    · exact fun wins readable waits => (live_wins_iff indexed readable waits).mp (wins msg List.mem_cons_self readable waits)
    · intro ready m mem readable waits
      cases List.mem_singleton.mp mem
      exact (live_wins_iff indexed readable waits).mpr (ready readable waits)
  | mergeMessages c newMessages channelId =>
    constructor
    · exact fun wins m mem readable waits => merge_loses readable waits (wins m mem readable waits)
    · exact fun ready m mem readable waits => absurd waits (ready m mem readable)

theorem readable_stays (s : ChatState) (call : Call)
    (mem : m ∈ s.messagesForConversation c) (readable : m.isReadable = true) :
    m ∈ (s.call platform call).messagesForConversation c ∨ c = call.conversationId ∧ m ∈ s.cut platform call := by
  cases call with
  | withMessage msg =>
    by_cases here : c = msg.conversationId
    · subst here
      by_cases appends : s.Appends msg
      · have whole := List.mem_append_left [msg] mem
        rw [← cutOff_append_newest maxMessagesPerConv (_ ++ [msg]), List.mem_append] at whole
        rw [cut, if_pos appends]
        exact whole.symm.imp (fun kept => (append_messages appends).symm ▸ kept) fun gone => ⟨rfl, gone⟩
      · left
        rcases withMessage_known appends with ⟨-, idx, held, at_, list⟩ | ⟨-, list⟩
        · change m ∈ (s.withMessage msg).messagesForConversation msg.conversationId
          rw [list]
          obtain ⟨j, inside, rfl⟩ := List.getElem_of_mem mem
          by_cases same : j = idx
          · subst same
            have isHeld := (List.getElem?_eq_getElem inside).symm.trans at_.here
            cases Option.some.inj isHeld
            exact absurd ((isReadable_of_placeholder at_.placeholder).symm.trans readable) Bool.false_ne_true
          · exact List.mem_iff_getElem?.mpr ⟨j, by rw [List.getElem?_set_ne (Ne.symm same), List.getElem?_eq_getElem inside]⟩
        · exact list.symm ▸ mem
    · exact Or.inl ((withMessage_elsewhere s here).symm ▸ mem)
  | mergeMessages d newMessages channelId =>
    by_cases here : c = d
    · subst here
      have whole : m ∈ merged platform s c newMessages := mem_merged.mpr (Or.inr mem)
      rw [← cutOff_append_newest maxMessagesPerConv (merged platform s c newMessages), List.mem_append] at whole
      exact whole.symm.imp (fun kept => (merge_messages s c newMessages channelId).symm ▸ kept) fun gone => ⟨rfl, gone⟩
    · exact Or.inl ((merge_elsewhere s newMessages channelId here).symm ▸ mem)

theorem mem_list_call
    (mem : m ∈ (s.call platform call).messagesForConversation c) :
    m ∈ s.messagesForConversation c ∨
      call.conversationId = c ∧ (∀ msg, call = .withMessage msg → c ≠ "") ∧ m ∈ call.messages := by
  cases call with
  | withMessage msg =>
    by_cases here : c = msg.conversationId
    · subst here
      by_cases named : msg.conversationId = ""
      · have same : (s.withMessage msg).messagesForConversation msg.conversationId =
            s.messagesForConversation msg.conversationId := by
          rw [withMessage, if_pos named]
          rfl
        exact Or.inl (same ▸ mem)
      · refine (mem_call mem).imp_right fun brought => ⟨rfl, fun _ _ => named, brought⟩
    · exact Or.inl ((withMessage_elsewhere s here) ▸ mem)
  | mergeMessages d newMessages channelId =>
    by_cases here : c = d
    · subst here
      exact (mem_call mem).imp_right fun brought => ⟨rfl, fun _ impossible => (by cases impossible), brought⟩
    · exact Or.inl ((merge_elsewhere s newMessages channelId here) ▸ mem)

variable (platform) in
theorem better_iff (indexed : s.Indexed) (call : Call) : s.Better platform call ↔ s.Ready call := by
  rw [← wins_iff platform indexed call]
  exact ⟨fun better => better.wins, fun wins => ⟨wins, fun _ _ mem readable => readable_stays s call mem readable⟩⟩

theorem new_listed (indexed : s.Indexed) (room : s.cut platform call = [])
    (named : ∀ msg, call = .withMessage msg → c ≠ "") (target : call.conversationId = c)
    (mem : m ∈ call.messages) (new : m.id ∉ ids (s.messagesForConversation c)) :
    m ∈ (s.call platform call).messagesForConversation c := by
  cases call with
  | withMessage msg =>
    cases List.mem_singleton.mp mem
    subst target
    have appends : s.Appends m := ⟨named m rfl, fun known => new (indexed.mem_iff.mp known)⟩
    rw [cut, if_pos appends] at room
    have whole := cutOff_append_newest maxMessagesPerConv (s.messagesForConversation m.conversationId ++ [m])
    rw [room, List.nil_append] at whole
    exact (append_messages appends).symm ▸ whole.symm ▸ List.mem_append_right _ List.mem_cons_self
  | mergeMessages d newMessages channelId =>
    subst target
    have whole := cutOff_append_newest maxMessagesPerConv (merged platform s d newMessages)
    rw [cut] at room
    rw [room, List.nil_append] at whole
    exact (merge_messages s d newMessages channelId).symm ▸ whole.symm ▸ mem_merged.mpr (Or.inl ⟨mem, new⟩)

theorem shows_call_iff (indexed : s.Indexed) (ready : s.Ready call) (room : s.cut platform call = [])
    (c id : String) : (s.call platform call).Shows c id ↔ s.Shows c id ∨ call.Brings c id := by
  have better := (better_iff platform indexed call).mpr ready
  constructor
  · rintro ⟨m, mem, same, readable⟩
    rcases mem_list_call mem with held | ⟨target, named, brought⟩
    · exact Or.inl ⟨m, held, same, readable⟩
    · exact Or.inr ⟨target, named, m, brought, same, readable⟩
  · have kept : s.Shows c id → (s.call platform call).Shows c id := by
      rintro ⟨m, mem, same, readable⟩
      rcases better.stays c m mem readable with stays | ⟨-, gone⟩
      · exact ⟨m, stays, same, readable⟩
      · exact absurd (room ▸ gone) List.not_mem_nil
    rintro (shown | ⟨target, named, m, brought, same, readable⟩)
    · exact kept shown
    · by_cases shown : s.Shows c id
      · exact kept shown
      · by_cases listed : id ∈ ids (s.messagesForConversation c)
        · subst target same
          exact ⟨m, better.wins m brought readable ⟨listed, shown⟩, rfl, readable⟩
        · exact ⟨m, new_listed indexed room named target brought (same.symm ▸ listed), same, readable⟩

end Step

theorem shows_run_iff {s : ChatState} (indexed : s.Indexed) {calls : List Call}
    (ready : Along (ChatState.call platform) ChatState.Ready s calls)
    (room : Along (ChatState.call platform) (fun s call => s.cut platform call = []) s calls) (c id : String) :
    (calls.foldl (ChatState.call platform) s).Shows c id ↔ s.Shows c id ∨ ∃ call ∈ calls, call.Brings c id := by
  induction calls generalizing s with
  | nil => simp
  | cons call calls ih =>
    rw [List.foldl_cons, ih (indexed.call call) ready.2 room.2, shows_call_iff indexed ready.1 room.1, or_assoc]
    simp only [List.mem_cons, exists_eq_or_imp]

/-- A message of which the key has not come yet, and the same decrypted later. -/
def placeholderCopy : ChatMessage :=
  { id := "m1", fromUserId := "ann", fromUsername := "Ann", conversationId := "c", content := "Securing message...",
    timestamp := "2026-01-01T12:00:00.000Z", isMine := false, isEncrypted := true }

def readableCopy : ChatMessage := { placeholderCopy with content := "hello" }

theorem placeholderCopy_listed :
    (ChatState.withMessage {} placeholderCopy).messagesForConversation "c" = [placeholderCopy] := by decide +kernel

end Echo.Timeline
