import Echo.Timeline.Store
import Mathlib.Data.List.Perm.Basic

/- The representation of the store: the ids of a conversation are distinct, the index is their
set, and the list stays under the cap. -/
namespace Echo.Timeline
open ChatState Chat

structure Represented (s : ChatState) : Prop where
  distinct : ∀ c, (ids (s.messagesForConversation c)).Nodup
  indexed : ∀ c, s.knownIds c = idSet (s.messagesForConversation c)
  bounded : ∀ c, (s.messagesForConversation c).length ≤ maxMessagesPerConv

/-- The two states hold the same ids in the same order under the same index. -/
def Same (s s' : ChatState) : Prop :=
  ∀ c, ids (s'.messagesForConversation c) = ids (s.messagesForConversation c) ∧ s'.knownIds c = s.knownIds c

def ChatState.rebuild (s : ChatState) (c : String) (messages : List ChatMessage) : ChatState :=
  (s.setMessages c messages).setIndex c (idSet messages)

theorem Same.refl (s : ChatState) : Same s s := fun _ => ⟨rfl, rfl⟩

variable {s s' : ChatState} {c messageId timestamp : String} {messages : List ChatMessage} {channelId : Option String}
variable {expiresAt : Option Nat} {op : Op} {msg : ChatMessage}

theorem Same.trans {t u : ChatState} (first : Same s t) (second : Same t u) : Same s u := by
  intro c
  exact ⟨(second c).1.trans (first c).1, (second c).2.trans (first c).2⟩

theorem Same.of_eq (messages : s'.messagesByConversation = s.messagesByConversation)
    (index : s'.messageIdIndex = s.messageIdIndex) : Same s s' := by
  intro c
  simp only [messagesForConversation, knownIds, messages, index, and_self]

theorem Same.setMessages
    (same : ids messages = ids (s.messagesForConversation c)) : Same s (s.setMessages c messages) := by
  intro d
  rw [messagesForConversation_setMessages, knownIds_setMessages]
  split
  · next here =>
    subst here
    exact ⟨same, rfl⟩
  · exact ⟨rfl, rfl⟩

theorem Represented.of_same (shape : Represented s) (same : Same s s') : Represented s' where
  distinct c := by
    rw [(same c).1]
    exact shape.distinct c
  indexed c := by
    rw [(same c).2, shape.indexed c, idSet, idSet, (same c).1]
  bounded c := by
    have length := congrArg List.length (same c).1
    rw [List.length_map, List.length_map] at length
    rw [length]
    exact shape.bounded c

theorem Represented.rebuild (shape : Represented s)
    (distinct : (ids messages).Nodup) (short : messages.length ≤ maxMessagesPerConv) :
    Represented (s.rebuild c messages) where
  distinct d := by
    rw [ChatState.rebuild, messagesForConversation_setIndex, messagesForConversation_setMessages]
    split
    · exact distinct
    · exact shape.distinct d
  indexed d := by
    rw [ChatState.rebuild, knownIds_setIndex, messagesForConversation_setIndex,
      messagesForConversation_setMessages]
    split
    · rfl
    · exact shape.indexed d
  bounded d := by
    rw [ChatState.rebuild, messagesForConversation_setIndex, messagesForConversation_setMessages]
    split
    · exact short
    · exact shape.bounded d

theorem amendReplyCount_same (s : ChatState) (c parentId : String) (amend : Int → Option Int) :
    Same s (amendReplyCount s c parentId amend) := by
  unfold amendReplyCount
  dsimp only
  split
  · exact .refl s
  · split
    · exact .refl s
    · next found =>
      split
      · exact .refl s
      · exact .setMessages (ids_set found rfl)

theorem mapMessages_same (s : ChatState) (c : String) {change : ChatMessage → ChatMessage}
    (keeps : ∀ m, (change m).id = m.id) : Same s (mapMessages s c change) := by
  unfold mapMessages
  split
  · exact .refl s
  · next messages held =>
    apply Same.setMessages
    have listed : s.messagesForConversation c = messages := by simp [messagesForConversation, held]
    rw [listed, ids, List.map_map]
    exact List.map_congr_left fun m _ => keeps m

theorem transitionToFailed_same (s : ChatState) (c pendingId content : String) :
    Same s (transitionToFailed s c pendingId content) := by
  unfold transitionToFailed
  dsimp only
  split
  · exact .refl s
  · split
    · exact .refl s
    · next msg found =>
      split
      · exact .refl s
      · have renamed : ({ msg with status := .failed, content := content, failedContent := some content } :
            ChatMessage).id = msg.id := rfl
        have failed : Same s (s.setMessages c _) := .setMessages (ids_set found renamed)
        split
        · exact failed.trans (amendReplyCount_same _ _ _ _)
        · exact failed

theorem updateMessageStatus_same (s : ChatState) (c messageId : String) (status : MessageStatus) :
    Same s (updateMessageStatus s c messageId status) := by
  unfold updateMessageStatus
  dsimp only
  have changed : Same s (mapMessages s c fun msg => if msg.id = messageId then { msg with status := status } else msg) :=
    mapMessages_same s c fun m => by split <;> rfl
  split
  · exact changed
  · split
    · exact changed
    · split
      · exact changed.trans (amendReplyCount_same _ _ _ _)
      · split
        · exact changed.trans (amendReplyCount_same _ _ _ _)
        · exact changed

theorem trackDecryptFailures_same (s : ChatState) (msg : ChatMessage) : Same s (s.trackDecryptFailures msg) :=
  .of_eq rfl rfl

/- A received message is dropped, takes the place of its placeholder, or is appended and the
list cut to the cap. -/
theorem appendOrReplaceMessage_cases (s : ChatState) (msg : ChatMessage) :
    Same s (s.appendOrReplaceMessage msg) ∨
      (msg.id ∉ s.knownIds msg.conversationId ∧
        s.appendOrReplaceMessage msg = s.rebuild msg.conversationId
          (trim (s.messagesForConversation msg.conversationId ++ [msg]))) := by
  unfold appendOrReplaceMessage
  dsimp only
  split
  · next fresh => exact .inr ⟨fresh, rfl⟩
  · left
    split
    · exact .refl s
    · next idx found =>
      split
      · exact .refl s
      · next held there =>
        split
        · apply Same.setMessages
          apply ids_set there
          obtain ⟨inside, holds, _⟩ := List.findIdx?_eq_some_iff_getElem.mp found
          obtain ⟨_, rfl⟩ := List.getElem?_eq_some_iff.mp there
          exact (eq_of_beq holds).symm
        · exact .refl s

theorem withMessage_cases (s : ChatState) (msg : ChatMessage) :
    Same s (s.withMessage msg) ∨
      (msg.id ∉ s.knownIds msg.conversationId ∧
        Same (s.rebuild msg.conversationId (trim (s.messagesForConversation msg.conversationId ++ [msg])))
          (s.withMessage msg)) := by
  unfold withMessage
  split
  · exact .inl (.of_eq rfl rfl)
  · rcases appendOrReplaceMessage_cases (s.trackDecryptFailures msg) msg with same | ⟨fresh, appended⟩
    · exact .inl ((trackDecryptFailures_same s msg).trans (same.trans (.of_eq rfl rfl)))
    · right
      refine ⟨fresh, ?_⟩
      rw [appended]
      exact .of_eq rfl rfl

theorem replacePendingMessage_none
    :
    replacePendingMessage messageId timestamp channelId expiresAt messages = none ↔
      ∀ m ∈ messages, isPendingFor channelId m = false := by
  induction messages with
  | nil => simp [replacePendingMessage]
  | cons msg rest ih =>
    unfold replacePendingMessage
    split
    · next pending => simp [pending]
    · next other => simp [ih, other]

/- The first message of the list that waits on the channel is renamed, and nothing else. -/
theorem replacePendingMessage_some
    {updated : List ChatMessage} {pendingId : String}
    (replaced : replacePendingMessage messageId timestamp channelId expiresAt messages = some (pendingId, updated)) :
    ∃ before msg after, messages = before ++ msg :: after ∧
      (∀ m ∈ before, isPendingFor channelId m = false) ∧ isPendingFor channelId msg = true ∧ pendingId = msg.id ∧
      updated = before ++ msg.confirmed messageId timestamp channelId expiresAt :: after := by
  induction messages generalizing updated with
  | nil => simp [replacePendingMessage] at replaced
  | cons first rest ih =>
    unfold replacePendingMessage at replaced
    split at replaced
    · next pending =>
      obtain ⟨rfl, rfl⟩ := Prod.mk.inj (Option.some.inj replaced)
      exact ⟨[], first, rest, rfl, by simp, pending, rfl, rfl⟩
    · next other =>
      obtain ⟨⟨found, list⟩, inner, made⟩ := Option.map_eq_some_iff.mp replaced
      obtain ⟨rfl, rfl⟩ := Prod.mk.inj made
      obtain ⟨before, msg, after, rfl, none, pending, named, rfl⟩ := ih inner
      refine ⟨first :: before, msg, after, rfl, ?_, pending, named, rfl⟩
      intro m inside
      rcases List.mem_cons.mp inside with rfl | inside
      · exact eq_false_of_ne_true other
      · exact none m inside

def Op.newIds (now : Nat) : Op → List String
  | .addMessage msg _ => [msg.id]
  | .addOptimistic .. => [pendingId now]
  | .mergeMessages _ newMessages _ => ids newMessages
  | .hydrate latest => [latest.id]
  | .addSystemEvent .. => ["system_" ++ toString now]
  | _ => []

inductive Effect (platform : Platform) (now : Nat) (s : ChatState) : Op → ChatState → Prop
  | same {op : Op} {s' : ChatState} : Same s s' → Effect platform now s op s'
  | appended {op : Op} {s' : ChatState} (msg : ChatMessage) : msg.id ∈ op.newIds now →
    msg.id ∉ s.knownIds msg.conversationId →
    Same (s.rebuild msg.conversationId (trim (s.messagesForConversation msg.conversationId ++ [msg]))) s' →
    Effect platform now s op s'
  | confirmed {c messageId timestamp pendingId : String} {channelId : Option String} {expiresAt : Option Nat}
    {updated : List ChatMessage} :
    replacePendingMessage messageId timestamp channelId expiresAt (s.messagesForConversation c) =
      some (pendingId, updated) →
    Effect platform now s (.confirmSent messageId c timestamp channelId expiresAt) (s.rebuild c updated)
  | merged {c : String} {newMessages : List ChatMessage} {channelId : Option String} {s' : ChatState} :
    Same (s.rebuild c (trim (Chat.merged platform s c newMessages))) s' →
    Effect platform now s (.mergeMessages c newMessages channelId) s'
  | deleted {c messageId : String} :
    Effect platform now s (.deleteMessage c messageId) (deleteMessage s c messageId)
  | clearedOne {c : String} {s' : ChatState} : s'.messagesForConversation c = [] → s'.knownIds c = ∅ →
    (∀ d, d ≠ c → s'.messagesForConversation d = s.messagesForConversation d ∧ s'.knownIds d = s.knownIds d) →
    Effect platform now s (.clearConversation c) s'
  | cleared : Effect platform now s .clear {}

variable {platform : Platform}

theorem Effect.of_withMessage {now : Nat}
    (new : msg.id ∈ op.newIds now) (then_ : Same (s.withMessage msg) s') : Effect platform now s op s' := by
  rcases withMessage_cases s msg with same | ⟨fresh, appended⟩
  · exact .same (same.trans then_)
  · exact .appended msg new fresh (appended.trans then_)

theorem confirmSent_effect (chat : Chat) (messageId c timestamp : String) (channelId : Option String)
    (expiresAt : Option Nat) :
    Effect platform chat.now chat.state (.confirmSent messageId c timestamp channelId expiresAt)
      (chat.confirmSent messageId c timestamp channelId expiresAt).state := by
  unfold confirmSent
  split
  · exact .same (.refl _)
  · next messages held =>
    split
    · exact .same (.refl _)
    · next replaced =>
      have listed : chat.state.messagesForConversation c = messages := by simp [messagesForConversation, held]
      apply Effect.confirmed
      rw [listed]
      exact replaced

theorem clearConversation_effect (chat : Chat) (c : String) :
    Effect platform chat.now chat.state (.clearConversation c) (chat.clearConversation c).state := by
  apply Effect.clearedOne
  · simp [clearConversation, messagesForConversation]
  · simp [clearConversation, knownIds]
  · intro d other
    simp [clearConversation, messagesForConversation, knownIds, other]

theorem addOptimistic_effect (chat : Chat) (content me : String) (username : Option String) (c : String)
    (channel replyTo replyContent replyName threadRoot : Option String) :
    Effect platform chat.now chat.state
      (.addOptimistic content me username c channel replyTo replyContent replyName threadRoot)
      (chat.addOptimistic platform content me username c channel replyTo replyContent replyName threadRoot).state := by
  cases replyTo with
  | none => exact .of_withMessage List.mem_cons_self (.refl _)
  | some parent => exact .of_withMessage List.mem_cons_self (amendReplyCount_same _ _ _ _)

theorem addMessage_effect (chat : Chat) (msg : ChatMessage) (bump : Bool) :
    Effect platform chat.now chat.state (.addMessage msg bump) (chat.addMessage msg bump).state := by
  unfold addMessage
  dsimp only
  split
  · split
    · exact .of_withMessage List.mem_cons_self (amendReplyCount_same _ _ _ _)
    · exact .of_withMessage List.mem_cons_self (.refl _)
  · exact .of_withMessage List.mem_cons_self (.refl _)

theorem timeout_effect (chat : Chat) (pendingId : String) :
    Effect platform chat.now chat.state op (chat.timeout pendingId).state := by
  unfold timeout
  split
  · exact .same (.refl _)
  · split
    · exact .same (transitionToFailed_same _ _ _ _)
    · exact .same (.refl _)

theorem addSystemEvent_effect (chat : Chat) (c event : String) :
    Effect platform chat.now chat.state (.addSystemEvent c event) (addSystemEvent platform chat.state chat.now c event) := by
  unfold addSystemEvent
  split
  · exact .same (.refl _)
  · exact .of_withMessage List.mem_cons_self (.refl _)

theorem withSyncRestored_same (s : ChatState) (c : String) : Same s (s.withSyncRestored c) := by
  unfold withSyncRestored
  split <;> exact .of_eq rfl rfl

theorem withGroupRotationNeeded_same (s : ChatState) (c : String) : Same s (s.withGroupRotationNeeded c) := by
  unfold withGroupRotationNeeded
  split <;> exact .of_eq rfl rfl

theorem withGroupRotationCleared_same (s : ChatState) (c : String) : Same s (s.withGroupRotationCleared c) := by
  unfold withGroupRotationCleared
  split <;> exact .of_eq rfl rfl

theorem withSignatureFailureCleared_same (s : ChatState) (c : String) : Same s (s.withSignatureFailureCleared c) := by
  unfold withSignatureFailureCleared
  split <;> exact .of_eq rfl rfl

theorem perform_effect (chat : Chat) (op : Op) :
    Effect platform chat.now chat.state op (chat.perform platform op).state := by
  cases op with
  | addMessage msg bump => exact addMessage_effect chat msg bump
  | addOptimistic content me username c channel replyTo replyContent replyName threadRoot =>
    exact addOptimistic_effect chat content me username c channel replyTo replyContent replyName threadRoot
  | timeout pendingId => exact timeout_effect chat pendingId
  | confirmSent messageId c timestamp channelId expiresAt =>
    exact confirmSent_effect chat messageId c timestamp channelId expiresAt
  | updateMessageStatus c messageId status => exact .same (updateMessageStatus_same _ _ _ _)
  | markConversationRead | editMessage | addReaction | removeReaction =>
    exact .same (mapMessages_same _ _ fun m => by split <;> rfl)
  | deleteMessage c messageId => exact .deleted
  | updateMessagePin c messageId pinnedById pinnedAt =>
    exact .same (mapMessages_same _ _ fun m => by split <;> rfl)
  | mergeMessages c newMessages channelId => exact .merged (.of_eq rfl rfl)
  | hydrate latest => exact .of_withMessage List.mem_cons_self (.refl _)
  | addSystemEvent c event => exact addSystemEvent_effect chat c event
  | setLoadingHistory | setReplyTo | clearReplyTo => exact .same (.of_eq rfl rfl)
  | syncRestored c => exact .same (withSyncRestored_same _ _)
  | groupRotationNeeded c => exact .same (withGroupRotationNeeded_same _ _)
  | groupRotationCleared c => exact .same (withGroupRotationCleared_same _ _)
  | signatureFailureCleared c => exact .same (withSignatureFailureCleared_same _ _)
  | clearConversation c => exact clearConversation_effect chat c
  | clear => exact .cleared
  | tick elapsed => exact .same (.refl _)

theorem merged_perm (s : ChatState) (c : String) (newMessages : List ChatMessage) :
    (Chat.merged platform s c newMessages).Perm
      (newMessages.filter (fun m => m.id ∉ idSet (s.messagesForConversation c)) ++ s.messagesForConversation c) :=
  platform.perm _

theorem deleteMessage_messages (s : ChatState) (c messageId d : String) :
    (deleteMessage s c messageId).messagesForConversation d =
      if d = c then (s.messagesForConversation d).filter (fun m => m.id ≠ messageId)
      else s.messagesForConversation d := by
  unfold deleteMessage
  split
  · next absent =>
    split
    · next here =>
      subst here
      simp [messagesForConversation, absent]
    · rfl
  · next messages held =>
    rw [messagesForConversation_setIndex, messagesForConversation_setMessages]
    split
    · next here =>
      subst here
      simp [messagesForConversation, held]
    · rfl

theorem deleteMessage_known (shape : Represented s) (c messageId d : String) :
    (deleteMessage s c messageId).knownIds d =
      if d = c then (s.knownIds d).erase messageId else s.knownIds d := by
  unfold deleteMessage
  split
  · next absent =>
    split
    · next here =>
      subst here
      have none : s.knownIds d = ∅ := by
        rw [shape.indexed d, messagesForConversation, absent]
        rfl
      simp [none]
    · rfl
  · rw [knownIds_setIndex]
    split
    · next here => rw [here]
    · rfl

/-- A confirmation gives its message an id that no other message of the conversation has, and a
merged batch has no id twice among the messages it adds. -/
def Unambiguous (s : ChatState) : Op → Prop
  | .confirmSent messageId c _ channelId _ =>
    ∀ msg, (s.messagesForConversation c).find? (isPendingFor channelId) = some msg →
      messageId ∈ ids (s.messagesForConversation c) → messageId = msg.id
  | .mergeMessages c newMessages _ =>
    (ids (newMessages.filter fun m => m.id ∉ idSet (s.messagesForConversation c))).Nodup
  | _ => True

theorem find?_pending {before after : List ChatMessage}
    (none : ∀ m ∈ before, isPendingFor channelId m = false) (pending : isPendingFor channelId msg = true) :
    (before ++ msg :: after).find? (isPendingFor channelId) = some msg := by
  rw [List.find?_append, List.find?_eq_none.mpr fun m inside => by simp [none m inside]]
  simp [pending]

/- Renaming one of the messages keeps the ids apart exactly when the new id is not another's. -/
theorem nodup_renamed {before after : List ChatMessage} (renamed : ChatMessage)
    (distinct : (ids (before ++ msg :: after)).Nodup) :
    (ids (before ++ renamed :: after)).Nodup ↔
      (renamed.id ∈ ids (before ++ msg :: after) → renamed.id = msg.id) := by
  have split : ∀ m : ChatMessage, (ids (before ++ m :: after)).Perm (m.id :: ids (before ++ after)) := fun m => by
    rw [ids, List.map_append, List.map_cons, ids, List.map_append]
    exact List.perm_middle
  have apart := List.nodup_cons.mp ((split msg).nodup_iff.mp distinct)
  rw [(split renamed).nodup_iff, List.nodup_cons, (split msg).mem_iff, List.mem_cons]
  constructor
  · rintro ⟨fresh, -⟩ (same | inside)
    · exact same
    · exact absurd inside fresh
  · intro clear
    refine ⟨fun inside => ?_, apart.2⟩
    rw [clear (.inr inside)] at inside
    exact apart.1 inside

theorem rebuild_messages (s : ChatState) (c : String) (messages : List ChatMessage) :
    (s.rebuild c messages).messagesForConversation c = messages := by
  rw [ChatState.rebuild, messagesForConversation_setIndex, messagesForConversation_setMessages, if_pos rfl]

/- A confirmation keeps the representation exactly when the id it brings is not already taken. -/
theorem confirmed_represented_iff (shape : Represented s) {pendingId : String}
    {updated : List ChatMessage}
    (replaced : replacePendingMessage messageId timestamp channelId expiresAt (s.messagesForConversation c) =
      some (pendingId, updated)) :
    Represented (s.rebuild c updated) ↔
      Unambiguous s (.confirmSent messageId c timestamp channelId expiresAt) := by
  obtain ⟨before, msg, after, listed, none, pending, -, rfl⟩ := replacePendingMessage_some replaced
  have oldest : (s.messagesForConversation c).find? (isPendingFor channelId) = some msg := by
    rw [listed]
    exact find?_pending none pending
  have distinct := shape.distinct c
  rw [listed] at distinct
  have renamed := nodup_renamed (msg.confirmed messageId timestamp channelId expiresAt) distinct
  constructor
  · intro shape' m found taken
    have again := shape'.distinct c
    rw [rebuild_messages] at again
    rw [listed] at taken
    cases Option.some.inj (oldest.symm.trans found)
    exact renamed.mp again taken
  · intro clear
    have short := shape.bounded c
    rw [listed] at short
    refine shape.rebuild (renamed.mpr fun taken => clear msg oldest ?_) (by simpa using short)
    rw [listed]
    exact taken

theorem deleteMessage_represented (shape : Represented s) (c messageId : String) :
    Represented (deleteMessage s c messageId) where
  distinct d := by
    rw [deleteMessage_messages]
    split
    · exact (shape.distinct d).sublist (List.filter_sublist.map _)
    · exact shape.distinct d
  indexed d := by
    rw [deleteMessage_known shape, deleteMessage_messages]
    split
    · rw [shape.indexed d]
      ext id
      simp only [idSet, ids, Finset.mem_erase, List.mem_toFinset, List.mem_map, List.mem_filter, decide_eq_true_eq]
      constructor
      · rintro ⟨other, m, inside, rfl⟩
        exact ⟨m, ⟨inside, other⟩, rfl⟩
      · rintro ⟨m, ⟨inside, other⟩, rfl⟩
        exact ⟨other, m, inside, rfl⟩
    · exact shape.indexed d
  bounded d := by
    rw [deleteMessage_messages]
    split
    · exact (List.length_filter_le _ _).trans (shape.bounded d)
    · exact shape.bounded d

theorem clearedOne_represented (shape : Represented s)
    (none : s'.messagesForConversation c = []) (known : s'.knownIds c = ∅)
    (others : ∀ d, d ≠ c → s'.messagesForConversation d = s.messagesForConversation d ∧
      s'.knownIds d = s.knownIds d) : Represented s' := by
  have each : ∀ d, (ids (s'.messagesForConversation d)).Nodup ∧
      s'.knownIds d = idSet (s'.messagesForConversation d) ∧
      (s'.messagesForConversation d).length ≤ maxMessagesPerConv := by
    intro d
    by_cases here : d = c
    · subst here
      rw [none, known]
      exact ⟨List.nodup_nil, rfl, Nat.zero_le _⟩
    · rw [(others d here).1, (others d here).2]
      exact ⟨shape.distinct d, shape.indexed d, shape.bounded d⟩
  exact ⟨fun d => (each d).1, fun d => (each d).2.1, fun d => (each d).2.2⟩

theorem effect_represented {now : Nat} (shape : Represented s)
    (effect : Effect platform now s op s') (clear : Unambiguous s op) : Represented s' := by
  cases effect with
  | same same => exact shape.of_same same
  | appended msg _ fresh appended =>
    refine (shape.rebuild ?_ (length_trim_le _)).of_same appended
    apply List.Nodup.sublist ((trim_sublist _).map _)
    rw [shape.indexed, idSet, List.mem_toFinset] at fresh
    rw [List.map_append]
    refine List.nodup_append'.mpr ⟨shape.distinct _, List.nodup_singleton _, ?_⟩
    simpa [ids] using fresh
  | confirmed replaced => exact (confirmed_represented_iff shape replaced).mpr clear
  | @merged c newMessages channelId _ merged =>
    refine (shape.rebuild ?_ (length_trim_le _)).of_same merged
    apply List.Nodup.sublist ((trim_sublist _).map _)
    rw [((merged_perm s c newMessages).map _).nodup_iff, List.map_append]
    refine List.nodup_append'.mpr ⟨clear, shape.distinct c, ?_⟩
    intro id new old
    obtain ⟨m, inside, rfl⟩ := List.mem_map.mp new
    have apart := of_decide_eq_true (List.mem_filter.mp inside).2
    exact apart (List.mem_toFinset.mpr old)
  | @deleted c messageId => exact deleteMessage_represented shape c messageId
  | clearedOne none known others => exact clearedOne_represented shape none known others
  | cleared => exact ⟨fun _ => List.nodup_nil, fun _ => rfl, fun _ => Nat.zero_le _⟩

end Echo.Timeline
