import Echo.Lib.Along
import Echo.Lib.Newest
import Echo.Timeline.Index
import Echo.Timeline.Stamps

/-! The order of a conversation's list, against the moments its timestamps denote. -/
namespace Echo.Timeline
open ChatState Chat
open Echo.Lib (Along Clock Chronicle cutOff cutOff_eq_nil newest chronicle_iff)
variable (platform : Platform) (zone : Nat → Int)

inductive Call where
  | withMessage (msg : ChatMessage)
  | mergeMessages (conversationId : String) (newMessages : List ChatMessage) (channelId : Option String)

def Call.messages : Call → List ChatMessage
  | withMessage msg => [msg]
  | mergeMessages _ newMessages _ => newMessages

def Stamped (m : ChatMessage) : Prop := ∃ stamp : Stamp, m.timestamp = stamp.text

open Classical in
noncomputable def instant (m : ChatMessage) : Int := if stamped : Stamped m then stamped.choose.moment zone else 0

namespace ChatState
variable (s : ChatState)

def call : Call → ChatState
  | .withMessage msg => s.withMessage msg
  | .mergeMessages conversationId newMessages channelId => mergeMessages platform s conversationId newMessages channelId

def Appends (msg : ChatMessage) : Prop := msg.conversationId ≠ "" ∧ msg.id ∉ s.knownIds msg.conversationId

def gathered (conversationId : String) (newMessages : List ChatMessage) : List ChatMessage :=
  let existing := s.messagesForConversation conversationId
  newMessages.filter (fun m => m.id ∉ idSet existing) ++ existing

/-- The list after a merge is in the order of time, and nothing that the cap cuts off is newer than something kept. -/
def Chronological : Call → Prop
  | .withMessage msg =>
    s.Appends msg →
      ∀ a ∈ cutOff maxMessagesPerConv (s.messagesForConversation msg.conversationId ++ [msg]),
        ∀ b ∈ (s.withMessage msg).messagesForConversation msg.conversationId, instant zone a ≤ instant zone b
  | .mergeMessages conversationId newMessages channelId =>
    Chronicle (instant zone) (cutOff maxMessagesPerConv (merged platform s conversationId newMessages))
      ((mergeMessages platform s conversationId newMessages channelId).messagesForConversation conversationId)

/-- A merge brings no two messages together of which the later has the text that is before, but for one with `cap`
texts after its own; a message appended to a full list comes after a first one that is no newer than the others. -/
def WellRead : Call → Prop
  | .withMessage msg =>
    s.Appends msg → ∀ first rest, s.messagesForConversation msg.conversationId = first :: rest →
      rest.length + 1 = maxMessagesPerConv → ∀ b ∈ rest ++ [msg], ∀ early late : Stamp,
        first.timestamp = early.text → b.timestamp = late.text → early.moment zone ≤ late.moment zone
  | .mergeMessages conversationId newMessages _ =>
    ∀ a ∈ s.gathered conversationId newMessages, ∀ b ∈ s.gathered conversationId newMessages, ∀ later earlier : Stamp,
      a.timestamp = later.text → b.timestamp = earlier.text → later.Misread zone earlier →
        maxMessagesPerConv ≤
          (s.gathered conversationId newMessages).countP fun m => codeUnits b.timestamp < codeUnits m.timestamp

end ChatState

variable {platform zone}

theorem instant_eq {m : ChatMessage} {stamp : Stamp} (written : m.timestamp = stamp.text) :
    instant zone m = stamp.moment zone := by
  have stamped : Stamped m := ⟨stamp, written⟩
  rw [instant, dif_pos stamped]
  exact moment_of_text zone (congrArg codeUnits (stamped.choose_spec.symm.trans written))

theorem instant_of_text {a b : ChatMessage} (left : Stamped a) (right : Stamped b)
    (same : codeUnits a.timestamp = codeUnits b.timestamp) : instant zone a = instant zone b := by
  obtain ⟨s, written⟩ := left
  obtain ⟨t, written'⟩ := right
  rw [instant_eq written, instant_eq written']
  rw [written, written'] at same
  exact moment_of_text zone same

theorem misread_iff {a b : ChatMessage} {s t : Stamp} (left : a.timestamp = s.text) (right : b.timestamp = t.text) :
    codeUnits a.timestamp < codeUnits b.timestamp ∧ instant zone b < instant zone a ↔ s.Misread zone t := by
  rw [instant_eq left, instant_eq right, left, right, codeUnits_lt_iff_textBefore]
  rfl

theorem trim_eq_newest (messages : List ChatMessage) : trim messages = newest maxMessagesPerConv messages :=
  trim_eq_drop messages

theorem merge_messages (s : ChatState) (c : String) (newMessages : List ChatMessage) (channelId : Option String) :
    (mergeMessages platform s c newMessages channelId).messagesForConversation c =
      newest maxMessagesPerConv (merged platform s c newMessages) := by
  rw [← trim_eq_newest]
  exact rebuild_messages s c _

theorem append_messages {s : ChatState} {msg : ChatMessage} (appends : s.Appends msg) :
    (s.withMessage msg).messagesForConversation msg.conversationId =
      newest maxMessagesPerConv (s.messagesForConversation msg.conversationId ++ [msg]) := by
  have fresh : msg.id ∉ (s.trackDecryptFailures msg).knownIds msg.conversationId := appends.2
  rw [← trim_eq_newest, withMessage, if_neg appends.1, appendOrReplaceMessage, if_pos fresh]
  exact rebuild_messages (s.trackDecryptFailures msg) msg.conversationId _

/-- What the runs keep: every message is stamped, and no list is over the cap. -/
structure Tidied (s : ChatState) : Prop where
  stamped : ∀ c, ∀ m ∈ s.messagesForConversation c, Stamped m
  bounded : ∀ c, (s.messagesForConversation c).length ≤ maxMessagesPerConv

theorem mem_rebuild {s : ChatState} {c d : String} {messages : List ChatMessage} {m : ChatMessage}
    (mem : m ∈ (s.rebuild c messages).messagesForConversation d) :
    m ∈ s.messagesForConversation d ∨ d = c ∧ m ∈ messages := by
  rw [ChatState.rebuild, messagesForConversation_setIndex, messagesForConversation_setMessages] at mem
  split at mem
  · next same => exact Or.inr ⟨same, mem⟩
  · exact Or.inl mem

theorem mem_appendOrReplaceMessage {s : ChatState} {msg m : ChatMessage} {c : String}
    (mem : m ∈ (s.appendOrReplaceMessage msg).messagesForConversation c) :
    m ∈ s.messagesForConversation c ∨ m = msg := by
  unfold appendOrReplaceMessage at mem
  dsimp only at mem
  split at mem
  · rcases mem_rebuild mem with held | ⟨rfl, made⟩
    · exact Or.inl held
    · exact (List.mem_append.mp ((trim_sublist _).subset made)).imp_right List.mem_singleton.mp
  · split at mem
    · exact Or.inl mem
    · split at mem
      · exact Or.inl mem
      · split at mem
        · rw [messagesForConversation_setMessages] at mem
          split at mem
          · next same => exact same ▸ List.mem_or_eq_of_mem_set mem
          · exact Or.inl mem
        · exact Or.inl mem

theorem mem_call {s : ChatState} {call : Call} {m : ChatMessage} {c : String}
    (mem : m ∈ (s.call platform call).messagesForConversation c) :
    m ∈ s.messagesForConversation c ∨ m ∈ call.messages := by
  cases call with
  | withMessage msg =>
    rw [call, withMessage] at mem
    split at mem
    · exact Or.inl mem
    · exact (mem_appendOrReplaceMessage mem).imp_right List.mem_singleton.mpr
  | mergeMessages d newMessages channelId =>
    rcases mem_rebuild (s := s) mem with held | ⟨rfl, made⟩
    · exact Or.inl held
    · have assembled := (merged_perm s c newMessages).mem_iff.mp ((trim_sublist _).subset made)
      rcases List.mem_append.mp assembled with new | held
      · exact Or.inr (List.mem_of_mem_filter new)
      · exact Or.inl held

theorem length_rebuild_le {s : ChatState} {c d : String} {messages : List ChatMessage}
    (short : (s.messagesForConversation d).length ≤ maxMessagesPerConv) :
    ((s.rebuild c (trim messages)).messagesForConversation d).length ≤ maxMessagesPerConv := by
  rw [ChatState.rebuild, messagesForConversation_setIndex, messagesForConversation_setMessages]
  split
  · exact length_trim_le messages
  · exact short

theorem Same.length {s t : ChatState} (same : Same s t) (c : String) :
    (t.messagesForConversation c).length = (s.messagesForConversation c).length := by
  simpa using congrArg List.length (same c).1

theorem length_call_le {s : ChatState} {call : Call} {c : String}
    (short : (s.messagesForConversation c).length ≤ maxMessagesPerConv) :
    ((s.call platform call).messagesForConversation c).length ≤ maxMessagesPerConv := by
  cases call with
  | withMessage msg =>
    rcases withMessage_cases s msg with same | ⟨-, made⟩
    · exact (same.length c).trans_le short
    · exact (made.length c).trans_le (length_rebuild_le short)
  | mergeMessages d newMessages channelId => exact length_rebuild_le short

theorem Tidied.call {s : ChatState} (tidied : Tidied s) {call : Call} (stamped : ∀ m ∈ call.messages, Stamped m) :
    Tidied (s.call platform call) where
  stamped c m mem := (mem_call mem).elim (tidied.stamped c m) (stamped m)
  bounded c := length_call_le (tidied.bounded c)

theorem gathered_perm (s : ChatState) (c : String) (newMessages : List ChatMessage) :
    (merged platform s c newMessages).Perm (s.gathered c newMessages) := platform.perm _

theorem merge_chronological_iff {s : ChatState} {c : String} {newMessages : List ChatMessage}
    (channelId : Option String)
    (all : ∀ m ∈ s.gathered c newMessages, Stamped m) :
    s.Chronological platform zone (.mergeMessages c newMessages channelId) ↔
      s.WellRead zone (.mergeMessages c newMessages channelId) := by
  have perm : (merged platform s c newMessages).Perm (s.gathered c newMessages) := gathered_perm s c newMessages
  have sorted : (merged platform s c newMessages).Pairwise fun a b => codeUnits a.timestamp ≤ codeUnits b.timestamp :=
    platform.ordered _
  rw [Chronological, merge_messages, chronicle_iff sorted fun a left b right same =>
    instant_of_text (all a (perm.mem_iff.mp left)) (all b (perm.mem_iff.mp right)) same, WellRead]
  constructor
  · intro well a left b right later earlier written written' misread
    obtain ⟨less, order⟩ := (misread_iff written written').mpr misread
    refine (well a (perm.mem_iff.mpr left) b (perm.mem_iff.mpr right) less order).trans_eq ?_
    exact (List.countP_congr fun m _ => by simp only [decide_eq_true_eq]).trans (perm.countP_eq _)
  · intro well a left b right less order
    obtain ⟨later, written⟩ := all a (perm.mem_iff.mp left)
    obtain ⟨earlier, written'⟩ := all b (perm.mem_iff.mp right)
    refine (well a (perm.mem_iff.mp left) b (perm.mem_iff.mp right) later earlier written written'
      ((misread_iff written written').mp ⟨less, order⟩)).trans_eq ?_
    exact (perm.countP_eq _).symm.trans (List.countP_congr fun m _ => by simp only [decide_eq_true_eq])

theorem cutOff_append {messages : List ChatMessage} (bounded : messages.length ≤ maxMessagesPerConv) (msg : ChatMessage)
    (P : ChatMessage → ChatMessage → Prop) :
    (∀ a ∈ cutOff maxMessagesPerConv (messages ++ [msg]), ∀ b ∈ newest maxMessagesPerConv (messages ++ [msg]), P a b) ↔
      ∀ first rest, messages = first :: rest → rest.length + 1 = maxMessagesPerConv → ∀ b ∈ rest ++ [msg],
          P first b := by
  rcases bounded.lt_or_eq with room | full
  · rw [cutOff_eq_nil (by rw [List.length_append, List.length_singleton]; omega)]
    refine iff_of_true (fun a mem => absurd mem List.not_mem_nil) fun first rest shape full => ?_
    rw [shape, List.length_cons] at room
    omega
  · cases messages with
    | nil => exact absurd full (by decide)
    | cons first rest =>
      have excess : (first :: rest ++ [msg]).length - maxMessagesPerConv = 1 := by
        rw [List.length_append, full, List.length_singleton, Nat.add_sub_cancel_left]
      rw [cutOff, newest, excess]
      constructor
      · rintro spared _ _ ⟨⟩ -
        exact spared first List.mem_cons_self
      · intro spared a mem
        obtain rfl := List.mem_singleton.mp mem
        exact spared a rest rfl full

theorem append_chronological_iff {s : ChatState} {msg : ChatMessage} (stamped : Stamped msg)
    (tidied : Tidied s) : s.Chronological platform zone (.withMessage msg) ↔ s.WellRead zone (.withMessage msg) := by
  refine imp_congr_right fun appends => ?_
  rw [append_messages appends, cutOff_append (tidied.bounded _) msg fun a b => instant zone a ≤ instant zone b]
  refine forall₃_congr fun first rest shape => imp_congr_right fun full => forall₂_congr fun b mem => ?_
  have held : ∀ m ∈ first :: rest, Stamped m := shape ▸ tidied.stamped msg.conversationId
  have later : Stamped b := by
    rcases List.mem_append.mp mem with kept | new
    · exact held b (List.mem_cons_of_mem first kept)
    · rwa [List.mem_singleton.mp new]
  constructor
  · intro order early late written written'
    rwa [← instant_eq written, ← instant_eq written']
  · intro order
    obtain ⟨early, written⟩ := held first List.mem_cons_self
    obtain ⟨late, written'⟩ := later
    rw [instant_eq written, instant_eq written']
    exact order early late written written'

theorem chronological_iff {s : ChatState} (tidied : Tidied s) {call : Call}
    (stamped : ∀ m ∈ call.messages, Stamped m) :
    s.Chronological platform zone call ↔ s.WellRead zone call := by
  cases call with
  | withMessage msg => exact append_chronological_iff (stamped msg List.mem_cons_self) tidied
  | mergeMessages c newMessages channelId =>
    refine merge_chronological_iff channelId fun m mem => ?_
    rcases List.mem_append.mp mem with new | held
    · exact stamped m (List.mem_of_mem_filter new)
    · exact tidied.stamped c m held

/-- Along every run of calls on stamped messages. -/
theorem timeline_chronological_iff (platform : Platform) (zone : Nat → Int) (calls : List Call)
    (stamped : ∀ call ∈ calls, ∀ m ∈ call.messages, Stamped m) :
    Along (ChatState.call platform) (ChatState.Chronological platform zone) {} calls ↔
      Along (ChatState.call platform) (ChatState.WellRead zone) {} calls := by
  have start : Tidied {} := ⟨fun _ _ mem => absurd mem List.not_mem_nil, fun _ => Nat.zero_le _⟩
  have keep : ∀ s call, Tidied s → (∀ m ∈ Call.messages call, Stamped m) → Tidied (s.call platform call) :=
    fun _ _ tidied given => tidied.call given
  exact Along.congr keep (fun _ _ tidied given => chronological_iff tidied given) stamped start

instance second_neZero : NeZero 60 := ⟨by decide⟩

instance micro_neZero : NeZero 1000000 := ⟨by decide⟩

def noon (second : Fin 60) (micros : Fin 1000000) : Clock :=
  ⟨2026, 1, 1, 12, 0, second, micros, by decide, by decide, by decide, by decide, by decide, by decide, by decide,
    second.isLt, micros.isLt⟩

def sentAt (id : String) (clock : Clock) : ChatMessage :=
  { id := id, fromUserId := "ann", fromUsername := "Ann", conversationId := "c", content := "hi",
    timestamp := (Stamp.utc clock).text, isMine := false }

/-- At noon, and half a second later: `12:00:00.500Z` is before `12:00:00Z`. -/
def halfSecond : List ChatMessage := [sentAt "m1" (noon 0 0), sentAt "m2" (noon 0 500000)]

theorem halfSecond_misread :
    (∀ m ∈ halfSecond, Stamped m) ∧
      ¬ Along (ChatState.call stablePlatform) (ChatState.Chronological stablePlatform fun _ => 0) {}
        [.mergeMessages "c" halfSecond none] := by
  have stamped : ∀ m ∈ halfSecond, Stamped m := by
    intro m mem
    rcases List.mem_cons.mp mem with rfl | later
    · exact ⟨.utc (noon 0 0), rfl⟩
    · rw [List.mem_singleton.mp later]
      exact ⟨.utc (noon 0 500000), rfl⟩
  have gathered : ChatState.gathered {} "c" halfSecond = halfSecond := rfl
  refine ⟨stamped, fun kept => ?_⟩
  have well := (merge_chronological_iff none (gathered ▸ stamped)).mp kept.1
  have beyond := well (sentAt "m2" (noon 0 500000)) (List.mem_cons_of_mem _ List.mem_cons_self) (sentAt "m1" (noon 0 0))
    List.mem_cons_self (.utc (noon 0 500000)) (.utc (noon 0 0)) rfl rfl (by decide +kernel)
  exact absurd (beyond.trans List.countP_le_length) (by decide)

def wholeSecond : List ChatMessage := [sentAt "m1" (noon 0 0), sentAt "m2" (noon 1 0)]

theorem wholeSecond_chronological :
    Along (ChatState.call stablePlatform) (ChatState.Chronological stablePlatform fun _ => 0) {}
      [.mergeMessages "c" wholeSecond none] := by
  have stamped : ∀ m ∈ wholeSecond, ∃ clock, clock.micros = 0 ∧ m.timestamp = (Stamp.utc clock).text := by
    intro m mem
    rcases List.mem_cons.mp mem with rfl | later
    · exact ⟨noon 0 0, rfl, rfl⟩
    · rw [List.mem_singleton.mp later]
      exact ⟨noon 1 0, rfl, rfl⟩
  refine (timeline_chronological_iff stablePlatform (fun _ => 0) [.mergeMessages "c" wholeSecond none] ?_).mpr
    ⟨?_, trivial⟩
  · intro call only m mem
    rw [List.mem_singleton.mp only] at mem
    obtain ⟨clock, -, written⟩ := stamped m mem
    exact ⟨.utc clock, written⟩
  · intro a left b right later earlier written written' misread
    obtain ⟨clock, whole, text⟩ := stamped a left
    obtain ⟨clock', whole', text'⟩ := stamped b right
    rw [← misread_iff written written', misread_iff text text', misread_server_iff _ rfl rfl] at misread
    rw [Stamp.unit, Stamp.unit, if_pos whole, if_pos whole'] at misread
    exact absurd misread.1 (lt_irrefl _)

end Echo.Timeline
