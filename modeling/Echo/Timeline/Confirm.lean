import Echo.Timeline.Sends
import Mathlib.Data.List.Pairwise

/- Confirmations reach the messages they confirm, in every orderly run. -/
namespace Echo.Timeline
open ChatState Chat
variable {directory : Directory} {platform : Platform}

section Every
variable {Q : ChatMessage → Prop}

def Every (Q : ChatMessage → Prop) (s : ChatState) : Prop := ∀ c, ∀ m ∈ s.messagesForConversation c, Q m

variable {s : ChatState} {c : String}

theorem Every.of_eq {s' : ChatState} (every : Every Q s)
    (messages : s'.messagesByConversation = s.messagesByConversation) : Every Q s' := by
  intro c m inside
  simp only [messagesForConversation, messages] at inside
  exact every c m inside

theorem Every.setMessages (every : Every Q s) {messages : List ChatMessage}
    (all : ∀ m ∈ messages, Q m) : Every Q (s.setMessages c messages) := by
  intro d m inside
  rw [messagesForConversation_setMessages] at inside
  split at inside
  · exact all m inside
  · exact every d m inside

theorem Every.set (every : Every Q s) {idx : Nat} {msg : ChatMessage} (holds : Q msg) :
    Every Q (s.setMessages c ((s.messagesForConversation c).set idx msg)) := by
  apply every.setMessages
  intro m inside
  rcases List.mem_or_eq_of_mem_set inside with inside | rfl
  · exact every c m inside
  · exact holds

theorem Every.setIndex (every : Every Q s) (c : String) (known : Finset String) :
    Every Q (s.setIndex c known) := every

theorem Every.amendReplyCount (every : Every Q s)
    (stable : ∀ m count, Q m → Q { m with replyCount := count }) (c parentId : String) (amend : Int → Option Int) :
    Every Q (amendReplyCount s c parentId amend) := by
  unfold Timeline.amendReplyCount
  dsimp only
  split
  · exact every
  · split
    · exact every
    · next parent found =>
      split
      · exact every
      · exact every.set (stable _ _ (every c _ (List.mem_of_getElem? found)))

theorem Every.mapMessages (every : Every Q s) {change : ChatMessage → ChatMessage}
    (keeps : ∀ m ∈ s.messagesForConversation c, Q m → Q (change m)) : Every Q (mapMessages s c change) := by
  unfold Timeline.mapMessages
  split
  · exact every
  · next messages held =>
    apply every.setMessages
    intro m inside
    obtain ⟨old, there, rfl⟩ := List.mem_map.mp inside
    have listed : old ∈ s.messagesForConversation c := by simpa [messagesForConversation, held] using there
    exact keeps old listed (every c old listed)

theorem Every.withMessage (every : Every Q s) {msg : ChatMessage} (holds : Q msg) :
    Every Q (s.withMessage msg) := by
  unfold ChatState.withMessage
  split
  · exact every.of_eq rfl
  · have tracked : Every Q (s.trackDecryptFailures msg) := every.of_eq rfl
    have appended : Every Q ((s.trackDecryptFailures msg).appendOrReplaceMessage msg) := by
      unfold appendOrReplaceMessage
      dsimp only
      split
      · refine (tracked.setMessages fun m inside => ?_).setIndex _ _
        rcases List.mem_append.mp ((trim_sublist _).mem inside) with inside | inside
        · exact tracked _ m inside
        · rw [List.mem_singleton.mp inside]
          exact holds
      · split
        · exact tracked
        · split
          · exact tracked
          · split
            · exact tracked.set holds
            · exact tracked
    exact appended.of_eq rfl

end Every

def LocalFailure (m : ChatMessage) : Prop := m.status = .failed → isLocalId m.id = true

abbrev Failures (s : ChatState) : Prop := Every LocalFailure s

variable {c : String} {chat : Chat} {op : Op} {w : Wire} {conf : Confirmation}

theorem Failures.updateMessageStatus {s : ChatState} (every : Failures s) {messageId : String}
    {status : MessageStatus} (allowed : status = .failed → isLocalId messageId = true) :
    Failures (updateMessageStatus s c messageId status) := by
  unfold Chat.updateMessageStatus
  dsimp only
  have changed : Failures (mapMessages s c fun msg =>
      if msg.id = messageId then { msg with status := status } else msg) := by
    refine every.mapMessages fun m _ holds => ?_
    split
    · next here =>
      intro failed
      rw [here]
      exact allowed failed
    · exact holds
  have stable : ∀ (m : ChatMessage) (count : Int), LocalFailure m → LocalFailure { m with replyCount := count } :=
    fun _ _ holds => holds
  split
  · exact changed
  · split
    · exact changed
    · split
      · exact changed.amendReplyCount stable _ _ _
      · split
        · exact changed.amendReplyCount stable _ _ _
        · exact changed

theorem Failures.transitionToFailed {s : ChatState} (every : Failures s) {pendingId content : String}
    (own : isLocalId pendingId = true) : Failures (transitionToFailed s c pendingId content) := by
  unfold Chat.transitionToFailed
  dsimp only
  split
  · exact every
  · next idx found =>
    split
    · exact every
    · next msg there =>
      split
      · exact every
      · have named : msg.id = pendingId := by
          obtain ⟨inside, holds, _⟩ := List.findIdx?_eq_some_iff_getElem.mp found
          obtain ⟨_, rfl⟩ := List.getElem?_eq_some_iff.mp there
          exact eq_of_beq holds
        have failed : Failures (s.setMessages c ((s.messagesForConversation c).set idx
            { msg with status := .failed, content := content, failedContent := some content })) := by
          refine every.set fun _ => ?_
          rw [named]
          exact own
        split
        · exact failed.amendReplyCount (fun _ _ holds => holds) _ _ _
        · exact failed

theorem Failures.confirmSent (every : Failures chat.state) (messageId c timestamp : String)
    (channelId : Option String) (expiresAt : Option Nat) :
    Failures (chat.confirmSent messageId c timestamp channelId expiresAt).state := by
  unfold Chat.confirmSent
  split
  · exact every
  · next messages held =>
    split
    · exact every
    · next replaced =>
      obtain ⟨before, msg, after, rfl, -, -, -, rfl⟩ := replacePendingMessage_some replaced
      have listed : ∀ m ∈ before ++ msg :: after, LocalFailure m := by
        intro m inside
        exact every c m (by simpa [messagesForConversation, held] using inside)
      refine (every.setMessages fun m inside => ?_).setIndex _ _
      rcases List.mem_append.mp inside with inside | inside
      · exact listed m (List.mem_append_left _ inside)
      · rcases List.mem_cons.mp inside with rfl | inside
        · intro failed
          cases failed
        · exact listed m (List.mem_append_right _ (List.mem_cons_of_mem _ inside))

theorem Failures.background (every : Failures chat.state) (outside : op.isBackground = true) :
    Failures (chat.perform platform op).state := by
  have brought : ∀ {msg : ChatMessage}, isBrought msg = true → LocalFailure msg := by
    intro msg ok failed
    simp only [isBrought, failed, Bool.and_eq_true, Bool.or_eq_true] at ok
    rcases ok.2 with other | own
    · simp at other
    · exact own
  cases op with
  | addMessage msg bump =>
    have added := every.withMessage (brought outside)
    show Failures (chat.addMessage msg bump).state
    unfold Chat.addMessage
    dsimp only
    split
    · split
      · exact added.amendReplyCount (fun _ _ holds => holds) _ _ _
      · exact added
    · exact added
  | hydrate latest => exact every.withMessage (brought outside)
  | mergeMessages c newMessages channelId =>
    have all : ∀ m ∈ newMessages, LocalFailure m := fun m inside => brought (List.all_eq_true.mp outside m inside)
    refine (every.setMessages fun m inside => ?_).of_eq rfl
    rcases List.mem_append.mp ((merged_perm _ _ _).mem_iff.mp ((trim_sublist _).mem inside)) with inside | inside
    · exact all m (List.mem_filter.mp inside).1
    · exact every c m inside
  | updateMessageStatus c messageId status =>
    refine every.updateMessageStatus fun failed => ?_
    simp [Op.isBackground, failed] at outside
  | markConversationRead c =>
    refine every.mapMessages fun m _ holds => ?_
    split
    · intro failed
      cases failed
    · exact holds
  | editMessage | updateMessagePin =>
    exact every.mapMessages fun m _ holds => by split <;> exact holds
  | addReaction | removeReaction => exact every.mapMessages fun m _ holds => by split <;> exact holds
  | addSystemEvent c event =>
    show Failures (addSystemEvent platform chat.state chat.now c event)
    unfold Chat.addSystemEvent
    split
    · exact every
    · refine every.withMessage fun failed => ?_
      cases failed
  | deleteMessage c messageId =>
    intro d m inside
    change m ∈ (Chat.deleteMessage chat.state c messageId).messagesForConversation d at inside
    rw [deleteMessage_messages] at inside
    split at inside
    · exact every d m (List.mem_filter.mp inside).1
    · exact every d m inside
  | clearConversation c =>
    intro d m inside
    by_cases here : d = c
    · subst here
      simp [perform, Chat.clearConversation, messagesForConversation] at inside
    · exact every d m (by simpa [perform, Chat.clearConversation, messagesForConversation, here] using inside)
  | clear =>
    intro _ _ inside
    cases inside
  | syncRestored c => exact every.of_eq (by simp only [perform, withState, withSyncRestored]; split <;> rfl)
  | groupRotationNeeded c => exact every.of_eq (by simp only [perform, withState, withGroupRotationNeeded]; split <;> rfl)
  | groupRotationCleared c => exact every.of_eq (by simp only [perform, withState, withGroupRotationCleared]; split <;> rfl)
  | signatureFailureCleared c =>
    exact every.of_eq (by simp only [perform, withState, withSignatureFailureCleared]; split <;> rfl)
  | setLoadingHistory | setReplyTo | clearReplyTo => exact every.of_eq rfl
  | tick elapsed => exact every
  | addOptimistic | timeout | confirmSent => cases outside

section Ids

def pendingIds (messages : List ChatMessage) : List String := (ids messages).filter isPendingId

theorem pendingIds_append (front back : List ChatMessage) :
    pendingIds (front ++ back) = pendingIds front ++ pendingIds back := by
  rw [pendingIds, ids, List.map_append, List.filter_append]
  rfl

theorem pendingIds_sublist {messages whole : List ChatMessage} (kept : messages.Sublist whole) :
    (pendingIds messages).Sublist (pendingIds whole) := (kept.map _).filter _

variable {s : ChatState} {c : String}

/- The ids of a conversation after an operation: those before, those it brings, and the one a
confirmation carries. -/
theorem effect_ids {now : Nat} {s' : ChatState} {op : Op} (effect : Effect platform now s op s') {id : String}
    (inside : id ∈ ids (s'.messagesForConversation c)) :
    id ∈ ids (s.messagesForConversation c) ∨ id ∈ op.newIds now ∨
      ∃ timestamp channelId expiresAt, op = .confirmSent id c timestamp channelId expiresAt := by
  cases effect with
  | same same => exact .inl ((same c).1 ▸ inside)
  | appended msg new _ appended =>
    rw [(appended c).1] at inside
    by_cases here : c = msg.conversationId
    · subst here
      rw [rebuild_messages] at inside
      have whole := ((trim_sublist _).map _).mem inside
      rw [List.map_append] at whole
      rcases List.mem_append.mp whole with old | added
      · exact .inl old
      · rw [List.map_singleton, List.mem_singleton] at added
        subst added
        exact .inr (.inl new)
    · rw [ChatState.rebuild, messagesForConversation_setIndex, messagesForConversation_setMessages,
        if_neg here] at inside
      exact .inl inside
  | @confirmed conv messageId timestamp pendingId channelId expiresAt updated replaced =>
    by_cases here : c = conv
    · subst here
      obtain ⟨before, msg, after, listed, -, -, -, rfl⟩ := replacePendingMessage_some replaced
      rw [rebuild_messages] at inside
      rw [listed]
      simp only [ids, List.map_append, List.map_cons, List.mem_append, List.mem_cons] at inside ⊢
      rcases inside with old | named | old
      · exact .inl (.inl old)
      · subst named
        exact .inr (.inr ⟨timestamp, channelId, expiresAt, rfl⟩)
      · exact .inl (.inr (.inr old))
    · rw [ChatState.rebuild, messagesForConversation_setIndex, messagesForConversation_setMessages,
        if_neg here] at inside
      exact .inl inside
  | @merged conv newMessages channelId _ merged =>
    rw [(merged c).1] at inside
    by_cases here : c = conv
    · subst here
      rw [rebuild_messages] at inside
      have whole := ((merged_perm s c newMessages).map ChatMessage.id).mem_iff.mp (((trim_sublist _).map _).mem inside)
      rw [List.map_append] at whole
      rcases List.mem_append.mp whole with added | old
      · exact .inr (.inl ((List.filter_sublist.map _).mem added))
      · exact .inl old
    · rw [ChatState.rebuild, messagesForConversation_setIndex, messagesForConversation_setMessages,
        if_neg here] at inside
      exact .inl inside
  | deleted =>
    rw [deleteMessage_messages] at inside
    split at inside
    · exact .inl ((List.filter_sublist.map _).mem inside)
    · exact .inl inside
  | @clearedOne conv _ none _ others =>
    by_cases here : c = conv
    · subst here
      rw [none] at inside
      cases inside
    · exact .inl ((others c here).1 ▸ inside)
  | cleared => cases inside

/- A merge of messages that carry no waiting id keeps the waiting ones in their order, when their
timestamps are strictly ascending. -/
theorem merged_pendingIds {newMessages : List ChatMessage}
    (others : ∀ m ∈ newMessages, isPendingId m.id = false)
    (dated : ((s.messagesForConversation c).filter fun m => isPendingId m.id).Pairwise
      fun a b => codeUnits a.timestamp < codeUnits b.timestamp) :
    pendingIds (Chat.merged platform s c newMessages) = pendingIds (s.messagesForConversation c) := by
  let waiting := fun m : ChatMessage => isPendingId m.id
  have none : (newMessages.filter fun m => m.id ∉ idSet (s.messagesForConversation c)).filter waiting = [] :=
    List.filter_eq_nil_iff.mpr fun m inside => by
      simp [waiting, others m (List.mem_filter.mp inside).1]
  have whole : (Chat.merged platform s c newMessages).Perm
      (newMessages.filter (fun m => m.id ∉ idSet (s.messagesForConversation c)) ++ s.messagesForConversation c) :=
    merged_perm s c newMessages
  have perm := whole.filter waiting
  rw [List.filter_append, none, List.nil_append] at perm
  have sorted := (platform.ordered ((newMessages.filter fun m => m.id ∉ idSet (s.messagesForConversation c)) ++
    s.messagesForConversation c)).filter waiting
  have same : (Chat.merged platform s c newMessages).filter waiting =
      (s.messagesForConversation c).filter waiting := by
    apply perm.eq_of_pairwise _ sorted (dated.imp le_of_lt)
    intro a b inA inB before after
    by_contra apart
    let Apart : ChatMessage → ChatMessage → Prop := fun a b =>
      codeUnits a.timestamp < codeUnits b.timestamp ∨ codeUnits b.timestamp < codeUnits a.timestamp
    have symmetric : Std.Symm Apart := ⟨fun _ _ => Or.symm⟩
    have either : ((s.messagesForConversation c).filter waiting).Pairwise Apart := dated.imp Or.inl
    rcases either.forall (perm.mem_iff.mp inA) inB apart with less | less
    · exact less.not_ge after
    · exact less.not_ge before
  have named : ∀ messages : List ChatMessage, pendingIds messages = (messages.filter waiting).map ChatMessage.id :=
    fun messages => List.filter_map
  rw [named, named, same]

theorem rebuild_other {d : String} (messages : List ChatMessage) (other : d ≠ c) :
    (s.rebuild c messages).messagesForConversation d = s.messagesForConversation d := by
  rw [ChatState.rebuild, messagesForConversation_setIndex, messagesForConversation_setMessages, if_neg other]

/- Waiting messages leave a list, but never change places; a new one comes last. -/
theorem effect_pendingIds {now : Nat} {s' : ChatState} {op : Op} (effect : Effect platform now s op s') (c : String)
    (minted : ∀ messageId conv timestamp channelId expiresAt,
      op = .confirmSent messageId conv timestamp channelId expiresAt → isPendingId messageId = false)
    (merges : ∀ newMessages channelId, op = .mergeMessages c newMessages channelId →
      (∀ m ∈ newMessages, isPendingId m.id = false) ∧
        ((s.messagesForConversation c).filter fun m => isPendingId m.id).Pairwise
          fun a b => codeUnits a.timestamp < codeUnits b.timestamp) :
    ∃ added, added.Sublist (op.newIds now) ∧ (∀ id ∈ added, isPendingId id = true) ∧
      (pendingIds (s'.messagesForConversation c)).Sublist (pendingIds (s.messagesForConversation c) ++ added) := by
  have without : ∀ {kept : List String}, kept.Sublist (pendingIds (s.messagesForConversation c)) →
      ∃ added, added.Sublist (op.newIds now) ∧ (∀ id ∈ added, isPendingId id = true) ∧
        kept.Sublist (pendingIds (s.messagesForConversation c) ++ added) :=
    fun kept => ⟨[], List.nil_sublist _, (fun _ inside => nomatch inside), by rwa [List.append_nil]⟩
  have same : ∀ {t : ChatState}, ids (t.messagesForConversation c) = ids (s.messagesForConversation c) →
      pendingIds (t.messagesForConversation c) = pendingIds (s.messagesForConversation c) :=
    fun eq => congrArg (List.filter isPendingId) eq
  cases effect with
  | same kept => exact without (by rw [same (kept c).1])
  | appended msg new _ appended =>
    have whole : pendingIds (s'.messagesForConversation c) = pendingIds ((s.rebuild msg.conversationId
        (trim (s.messagesForConversation msg.conversationId ++ [msg]))).messagesForConversation c) :=
      congrArg (List.filter isPendingId) (appended c).1
    rw [whole]
    by_cases here : c = msg.conversationId
    · subst here
      rw [rebuild_messages]
      refine ⟨pendingIds [msg], ?_, fun id inside => (List.mem_filter.mp inside).2, ?_⟩
      · exact List.filter_sublist.trans (List.singleton_sublist.mpr new)
      · rw [← pendingIds_append]
        exact pendingIds_sublist (trim_sublist _)
    · rw [rebuild_other _ here]
      exact without (.refl _)
  | @confirmed conv messageId timestamp pendingId channelId expiresAt updated replaced =>
    by_cases here : c = conv
    · subst here
      obtain ⟨before, msg, after, listed, -, -, -, rfl⟩ := replacePendingMessage_some replaced
      have server : pendingIds [msg.confirmed messageId timestamp channelId expiresAt] = [] := by
        simp [pendingIds, ids, ChatMessage.confirmed, minted messageId c timestamp channelId expiresAt rfl]
      rw [rebuild_messages]
      apply without
      rw [listed, ← List.singleton_append, pendingIds_append, pendingIds_append, server,
        ← List.singleton_append (l := after), pendingIds_append, pendingIds_append]
      exact (List.Sublist.refl _).append (List.sublist_append_right _ _)
    · rw [rebuild_other _ here]
      exact without (.refl _)
  | @merged conv newMessages channelId _ merged =>
    have whole : pendingIds (s'.messagesForConversation c) = pendingIds ((s.rebuild conv
        (trim (Chat.merged platform s conv newMessages))).messagesForConversation c) :=
      congrArg (List.filter isPendingId) (merged c).1
    rw [whole]
    by_cases here : c = conv
    · subst here
      obtain ⟨others, dated⟩ := merges newMessages channelId rfl
      rw [rebuild_messages]
      apply without
      have held : pendingIds (Chat.merged platform s c newMessages) = pendingIds (s.messagesForConversation c) :=
        merged_pendingIds others dated
      rw [← held]
      exact pendingIds_sublist (trim_sublist _)
    · rw [rebuild_other _ here]
      exact without (.refl _)
  | deleted =>
    apply without
    rw [deleteMessage_messages]
    split
    · exact pendingIds_sublist List.filter_sublist
    · exact .refl _
  | @clearedOne conv _ none _ others =>
    apply without
    by_cases here : c = conv
    · subst here
      rw [none]
      exact List.nil_sublist _
    · rw [(others c here).1]
  | cleared => exact without (List.nil_sublist _)

end Ids

/-- What every orderly run keeps: each list shows its waiting messages in the order of the sends,
only ids of the client itself fail, and no confirmed message still stands under its own id. -/
structure Ordered (w : Wire) : Prop where
  distinct : w.issued.Nodup
  order : ∀ c, (pendingIds (w.list c)).Sublist w.issued
  failures : Failures w.chat.state
  gone : ∀ conf ∈ w.delivered, conf.pendingId ∉ ids (w.list conf.conversationId)
  timers : ∀ p timer, w.chat.sendTimeouts p = some timer → isLocalId p = true
  sent : ∀ s ∈ w.outstanding, isLocalId s.pendingId = true ∧ (isPendingId s.pendingId = true → s.pendingId ∈ w.issued)
  answers : ∀ conf, conf ∈ w.confirmations ∨ conf ∈ w.delivered →
    isLocalId conf.messageId = false ∧ isLocalId conf.pendingId = true ∧
      (isPendingId conf.pendingId = true → conf.pendingId ∈ w.issued)

theorem Ordered.settled (ordered : Ordered w) : Settled w := by
  intro conf inside m listed named failed
  rcases named with own | server
  · exact ordered.gone conf inside (own ▸ List.mem_map_of_mem listed)
  · have mine := ordered.failures conf.conversationId m listed failed
    rw [server, (ordered.answers conf (.inr inside)).1] at mine
    contradiction


theorem isPendingFor_id {channelId : Option String} {m : ChatMessage} (pending : isPendingFor channelId m = true) :
    isPendingId m.id = true := by
  simp only [isPendingFor, Bool.and_eq_true] at pending
  exact pending.1.1.1

theorem isLocalId_of_pending {id : String} (pending : isPendingId id = true) : isLocalId id = true := by
  rw [isLocalId, pending, Bool.true_or]

theorem not_pending_of_server {id : String} (server : isLocalId id = false) : isPendingId id = false := by
  rw [isLocalId, Bool.or_eq_false_iff] at server
  exact server.1

section Order
variable {w : Wire} {c : String} {front back : List ChatMessage} {msg : ChatMessage}

/- Of two waiting messages of a list, the one that stands first was created first. -/
theorem Ordered.precedes (ordered : Ordered w) (listed : w.list c = front ++ msg :: back)
    (pending : isPendingId msg.id = true) {m : ChatMessage} (later : m ∈ back) (pending' : isPendingId m.id = true) :
    Before w msg.id m.id := by
  have tail : [m.id].Sublist (pendingIds back) :=
    List.singleton_sublist.mpr (List.mem_filter.mpr ⟨List.mem_map_of_mem later, pending'⟩)
  have head : pendingIds [msg] = [msg.id] := by simp [pendingIds, ids, pending]
  have whole := ordered.order c
  rw [listed, ← List.singleton_append, pendingIds_append, pendingIds_append, head] at whole
  exact ((tail.cons_cons msg.id).trans (List.sublist_append_right (pendingIds front) _)).trans whole

theorem Ordered.alone (ordered : Ordered w) (listed : w.list c = front ++ msg :: back)
    (pending : isPendingId msg.id = true) : msg.id ∉ ids front ∧ msg.id ∉ ids back := by
  have distinct := ordered.distinct.sublist (ordered.order c)
  have head : pendingIds [msg] = [msg.id] := by simp [pendingIds, ids, pending]
  rw [listed, ← List.singleton_append, pendingIds_append, pendingIds_append, head] at distinct
  have apart := List.nodup_append'.mp distinct
  constructor
  · intro inside
    exact apart.2.2 (List.mem_filter.mpr ⟨inside, pending⟩) List.mem_cons_self
  · intro inside
    exact (List.nodup_cons.mp apart.2.1).1 (List.mem_filter.mpr ⟨inside, pending⟩)

theorem Before.asymm (ordered : Ordered w) {a b : String} (first : Before w a b) : ¬ Before w b a := by
  intro second
  have position : ∀ {a b : String} {issued : List String}, issued.Nodup → [a, b].Sublist issued →
      ¬ [b, a].Sublist issued := by
    intro a b issued distinct
    induction issued with
    | nil => exact fun inside => nomatch inside
    | cons x rest ih =>
      have ⟨fresh, distinct⟩ := List.nodup_cons.mp distinct
      intro one two
      cases one with
      | cons _ one =>
        cases two with
        | cons _ two => exact ih distinct one two
        | cons_cons _ two => exact fresh (one.mem (List.mem_cons_of_mem _ List.mem_cons_self))
      | cons_cons _ one =>
        cases two with
        | cons _ two => exact fresh (two.mem (List.mem_cons_of_mem _ List.mem_cons_self))
        | cons_cons _ two => exact fresh (one.mem List.mem_cons_self)
  exact position ordered.distinct first second

end Order

theorem Ordered.attaches (ordered : Ordered w) (inOrder : InOrder w conf) :
    Attaches w conf := by
  intro replaced updated rewrites
  obtain ⟨before, msg, after, listed, none, pending, rfl, -⟩ := replacePendingMessage_some rewrites
  have inside : msg ∈ w.list conf.conversationId := by
    rw [listed]
    exact List.mem_append_right _ List.mem_cons_self
  obtain ⟨own, there, named⟩ := inOrder.listed ⟨msg, inside, pending⟩
  have waits := inOrder.waits own there named
  rw [listed] at there
  rcases List.mem_append.mp there with front | rest
  · rw [none own front] at waits
    contradiction
  · rcases List.mem_cons.mp rest with rfl | back
    · exact named
    · have earlier := ordered.precedes listed (isPendingFor_id pending) back (isPendingFor_id waits)
      rw [named] at earlier
      exact absurd earlier (inOrder.first msg inside pending)

theorem deliver_chat {rest : List Confirmation}
    (head : w.confirmations = conf :: rest) :
    w.deliver.chat = w.chat.confirmSent conf.messageId conf.conversationId conf.timestamp conf.channelId
      conf.expiresAt := by
  simp [Wire.deliver, head]

theorem confirmSent_messages (chat : Chat) (messageId c timestamp : String) (channelId : Option String)
    (expiresAt : Option Nat) :
    (chat.confirmSent messageId c timestamp channelId expiresAt).state.messagesForConversation c =
      match replacePendingMessage messageId timestamp channelId expiresAt (chat.state.messagesForConversation c) with
      | none => chat.state.messagesForConversation c
      | some (_, updated) => updated := by
  unfold confirmSent
  cases held : chat.state.messagesByConversation c with
  | none => simp [messagesForConversation, held, replacePendingMessage]
  | some messages =>
    have listed : chat.state.messagesForConversation c = messages := by simp [messagesForConversation, held]
    rw [listed]
    dsimp only
    cases rewrites : replacePendingMessage messageId timestamp channelId expiresAt messages with
    | none => exact listed
    | some made => exact rebuild_messages chat.state c made.2

/- In a state of an orderly run, the confirmation at hand is in order exactly when it is attached to
its own message and that message no longer waits afterwards. -/
theorem Ordered.inOrder_iff (ordered : Ordered w) {rest : List Confirmation}
    (head : w.confirmations = conf :: rest) :
    InOrder w conf ↔ Attaches w conf ∧ conf.pendingId ∉ ids (w.deliver.list conf.conversationId) := by
  have answer := ordered.answers conf (.inl (head ▸ List.mem_cons_self))
  have after_ := confirmSent_messages w.chat conf.messageId conf.conversationId conf.timestamp conf.channelId
    conf.expiresAt
  rw [← deliver_chat head] at after_
  change w.deliver.list conf.conversationId = _ at after_
  change _ = (match replacePendingMessage _ _ _ _ (w.list conf.conversationId) with
    | none => w.list conf.conversationId
    | some (_, updated) => updated) at after_
  rw [after_]
  cases rewrites : replacePendingMessage conf.messageId conf.timestamp conf.channelId conf.expiresAt
      (w.list conf.conversationId) with
  | none =>
    have idle := replacePendingMessage_none.mp rewrites
    constructor
    · intro inOrder
      refine ⟨ordered.attaches inOrder, fun listed => ?_⟩
      obtain ⟨m, inside, named⟩ := List.mem_map.mp listed
      have waits := inOrder.waits m inside named
      rw [idle m inside] at waits
      contradiction
    · rintro ⟨-, left⟩
      have busy : ∀ m ∈ w.list conf.conversationId, isPendingFor conf.channelId m ≠ true := fun m inside => by
        rw [idle m inside]
        decide
      exact {
        waits := fun m inside named => absurd (List.mem_map.mpr ⟨m, inside, named⟩) left
        first := fun m inside pending => absurd pending (busy m inside)
        listed := fun ⟨m, inside, pending⟩ => absurd pending (busy m inside) }
  | some made =>
    obtain ⟨before, msg, after, listed, none, pending, replaced, updated⟩ := replacePendingMessage_some rewrites
    have alone := ordered.alone listed (isPendingFor_id pending)
    have left : msg.id ∉ ids made.2 := by
      intro inside
      rw [updated] at inside
      simp only [ids, List.map_append, List.map_cons, List.mem_append, List.mem_cons] at inside
      rcases inside with front | server | back
      · exact alone.1 front
      · have own := isLocalId_of_pending (isPendingFor_id pending)
        rw [server] at own
        change isLocalId conf.messageId = true at own
        rw [answer.1] at own
        contradiction
      · exact alone.2 back
    constructor
    · intro inOrder
      have attaches := ordered.attaches inOrder
      refine ⟨attaches, ?_⟩
      rw [← attaches made.1 made.2 rewrites, replaced]
      exact left
    · rintro ⟨attaches, -⟩
      have named : msg.id = conf.pendingId := replaced ▸ attaches made.1 made.2 rewrites
      refine ⟨?_, ?_, fun _ => ⟨msg, by rw [listed]; simp, named⟩⟩
      · intro m inside same
        rw [listed] at inside
        rcases List.mem_append.mp inside with front | back
        · exact absurd (List.mem_map.mpr ⟨m, front, same.trans named.symm⟩) alone.1
        · rcases List.mem_cons.mp back with rfl | back
          · exact pending
          · exact absurd (List.mem_map.mpr ⟨m, back, same.trans named.symm⟩) alone.2
      · intro m inside waits earlier
        rw [listed] at inside
        rw [← named] at earlier
        rcases List.mem_append.mp inside with front | back
        · rw [none m front] at waits
          contradiction
        · rcases List.mem_cons.mp back with rfl | back
          · exact Before.asymm ordered earlier earlier
          · exact Before.asymm ordered earlier
              (ordered.precedes listed (isPendingFor_id pending) back (isPendingFor_id waits))

/- An operation that brings no waiting message and no id already confirmed. -/
theorem Ordered.moved (ordered : Ordered w) {now : Nat}
    (effect : Effect platform now w.chat.state op chat.state)
    (other : ∀ messageId c timestamp channelId expiresAt, op ≠ .confirmSent messageId c timestamp channelId expiresAt)
    (merges : ∀ c newMessages channelId, op = .mergeMessages c newMessages channelId → Dated w c)
    (foreign : ∀ id ∈ op.newIds now, isPendingId id = false ∧ ∀ conf ∈ w.delivered, id ≠ conf.pendingId)
    (failures : Failures chat.state)
    (timers : ∀ p timer, chat.sendTimeouts p = some timer → isLocalId p = true) :
    Ordered { w with chat := chat } where
  distinct := ordered.distinct
  order c := by
    obtain ⟨added, brought, pending, kept⟩ := effect_pendingIds effect c
      (fun messageId conv timestamp channelId expiresAt same => absurd same (other _ _ _ _ _))
      (fun newMessages channelId same => ⟨fun m inside => (foreign m.id (by
        subst same
        exact List.mem_map_of_mem inside)).1, merges c newMessages channelId same⟩)
    have none : added = [] := List.eq_nil_iff_forall_not_mem.mpr fun id inside => by
      have waits := pending id inside
      rw [(foreign id (brought.mem inside)).1] at waits
      contradiction
    rw [none, List.append_nil] at kept
    exact kept.trans (ordered.order c)
  failures := failures
  gone conf inside listed := by
    rcases effect_ids effect listed with old | new | ⟨timestamp, channelId, expiresAt, same⟩
    · exact ordered.gone conf inside old
    · exact (foreign _ new).2 conf inside rfl
    · exact other _ _ _ _ _ same
  timers := timers
  sent := ordered.sent
  answers := ordered.answers

/- The same for an operation that only rewrites messages in place. -/
theorem Ordered.rewritten (ordered : Ordered w) (same : Same w.chat.state chat.state)
    (failures : Failures chat.state)
    (timers : ∀ p timer, chat.sendTimeouts p = some timer → isLocalId p = true) :
    Ordered { w with chat := chat } where
  distinct := ordered.distinct
  order c := by
    have kept := ordered.order c
    rw [pendingIds, Wire.list, ← (same c).1] at kept
    exact kept
  failures := failures
  gone conf inside := by
    have left := ordered.gone conf inside
    rw [Wire.list, ← (same conf.conversationId).1] at left
    exact left
  timers := timers
  sent := ordered.sent
  answers := ordered.answers

theorem background_timers (own : ∀ p timer, chat.sendTimeouts p = some timer → isLocalId p = true)
    (outside : op.isBackground = true) :
    ∀ p timer, (chat.perform platform op).sendTimeouts p = some timer → isLocalId p = true := by
  intro p timer held
  cases op with
  | clearConversation c =>
    simp only [perform, Chat.clearConversation] at held
    split at held
    · cases held
    · exact own p timer held
  | clear => cases held
  | addOptimistic | timeout | confirmSent => cases outside
  | addMessage msg bump =>
    simp only [perform, Chat.addMessage] at held
    split at held
    · split at held <;> exact own p timer held
    · exact own p timer held
  | _ => exact own p timer held

theorem Ordered.background (ordered : Ordered w) (outside : op.isBackground = true)
    (orderly : Orderly w (.background op)) : Ordered { w with chat := w.chat.perform platform op } := by
  have server : ∀ id ∈ op.newIds w.chat.now, isPendingId id = false := by
    intro id inside
    have brought : ∀ {msg : ChatMessage}, isBrought msg = true → isPendingId msg.id = false := fun ok => by
      simp only [isBrought, Bool.and_eq_true, Bool.not_eq_true'] at ok
      exact ok.1
    cases op with
    | addMessage | hydrate =>
      rw [List.mem_singleton.mp inside]
      exact brought outside
    | mergeMessages c newMessages channelId =>
      obtain ⟨m, listed, rfl⟩ := List.mem_map.mp inside
      exact brought (List.all_eq_true.mp outside m listed)
    | addSystemEvent c event =>
      rw [List.mem_singleton.mp inside, isPendingId, startsWith, String.toList_append]
      rfl
    | addOptimistic => exact nomatch outside
    | _ => exact nomatch inside
  refine ordered.moved (perform_effect w.chat op) ?_ orderly.2 (fun id inside => ⟨server id inside, orderly.1 id inside⟩)
    (ordered.failures.background outside) (background_timers ordered.timers outside)
  rintro messageId c timestamp channelId expiresAt rfl
  exact nomatch outside

theorem Ordered.timer (ordered : Ordered w) (pendingId : String) :
    Ordered { w with chat := w.chat.timeout pendingId } := by
  have same : Same w.chat.state (w.chat.timeout pendingId).state := by
    unfold timeout
    split
    · exact .refl _
    · split
      · exact transitionToFailed_same _ _ _ _
      · exact .refl _
  apply ordered.rewritten same
  · unfold timeout
    split
    · exact ordered.failures
    · next timer held =>
      split
      · exact ordered.failures.transitionToFailed (ordered.timers pendingId timer held)
      · exact ordered.failures
  · intro p timer held
    unfold timeout at held
    split at held
    · exact ordered.timers p timer held
    · split at held
      · by_cases here : p = pendingId
        · subst here
          simp at held
        · exact ordered.timers p timer (by simpa [here] using held)
      · exact ordered.timers p timer held

theorem isPendingId_pendingId (now : Nat) : isPendingId (pendingId now) = true := by
  simp [isPendingId, startsWith, pendingId]

theorem Ordered.send (ordered : Ordered w) (content me : String) (username : Option String) (c : String)
    (channel replyTo replyContent replyName threadRoot : Option String) (fresh : pendingId w.chat.now ∉ w.issued) :
    Ordered (w.send directory platform content me username c channel replyTo replyContent replyName threadRoot) := by
  have effect : Effect platform w.chat.now w.chat.state _ _ := addOptimistic_effect w.chat content me username c
    (if directory.isGroup c then channel else none) replyTo replyContent replyName threadRoot
  have own := isLocalId_of_pending (isPendingId_pendingId w.chat.now)
  refine {
    distinct := List.nodup_append'.mpr ⟨ordered.distinct, List.nodup_singleton _, by simpa using fresh⟩
    order := fun d => ?_
    failures := ?_
    gone := fun conf inside listed => ?_
    timers := fun p timer held => ?_
    sent := fun s inside => ?_
    answers := fun conf inside => ?_ }
  · obtain ⟨added, brought, -, kept⟩ := effect_pendingIds effect d (fun _ _ _ _ _ same => nomatch same)
      (fun _ _ same => nomatch same)
    exact kept.trans ((ordered.order d).append brought)
  · have added : Failures (w.chat.state.withMessage (optimistic platform w.chat.now content me username c
        (if directory.isGroup c then channel else none) replyTo replyContent replyName threadRoot)) :=
      ordered.failures.withMessage fun failed => nomatch failed
    cases replyTo with
    | none => exact added
    | some parent => exact added.amendReplyCount (fun _ _ holds => holds) _ _ _
  · rcases effect_ids effect listed with old | new | ⟨_, _, _, same⟩
    · exact ordered.gone conf inside old
    · have named := List.mem_singleton.mp new
      have answer := ordered.answers conf (.inr inside)
      rw [named] at answer
      exact fresh (answer.2.2 (isPendingId_pendingId _))
    · exact nomatch same
  · by_cases here : p = pendingId w.chat.now
    · rw [here]
      exact own
    · apply ordered.timers p timer
      have kept : Function.update w.chat.sendTimeouts (pendingId w.chat.now)
          (some ⟨c, content, w.chat.now + sendTimeout⟩) p = some timer := held
      rwa [Function.update_of_ne here] at kept
  · rcases List.mem_append.mp inside with old | new
    · exact ⟨(ordered.sent s old).1, fun pending => List.mem_append_left _ ((ordered.sent s old).2 pending)⟩
    · rw [List.mem_singleton.mp new]
      exact ⟨own, fun _ => List.mem_append_right _ List.mem_cons_self⟩
  · have answer := ordered.answers conf inside
    exact ⟨answer.1, answer.2.1, fun pending => List.mem_append_left _ (answer.2.2 pending)⟩

theorem Ordered.remarked (ordered : Ordered w) {messageId : String} {status : MessageStatus}
    (allowed : status = .failed → isLocalId messageId = true) :
    Ordered { w with chat := w.chat.withState (updateMessageStatus w.chat.state c messageId status) } :=
  ordered.rewritten (updateMessageStatus_same _ _ _ _) (ordered.failures.updateMessageStatus allowed) ordered.timers

theorem Ordered.retry (ordered : Ordered w) (c messageId : String) :
    Ordered (w.retry directory c messageId) := by
  unfold Wire.retry
  split
  · exact ordered
  · next m found =>
    split
    · next failed =>
      have listed := List.mem_of_find?_eq_some found
      have holds := List.find?_some found
      have named : m.id = messageId := eq_of_beq holds
      have own : isLocalId messageId = true := named ▸ ordered.failures c m listed failed
      have marked : Ordered { w with chat := w.chat.withState (updateMessageStatus w.chat.state c messageId .sending) } :=
        ordered.remarked fun failed => nomatch failed
      refine { marked with sent := fun s inside => ?_ }
      rcases List.mem_append.mp inside with old | new
      · exact ordered.sent s old
      · rw [List.mem_singleton.mp new]
        refine ⟨own, fun pending => (ordered.order c).mem (List.mem_filter.mpr ⟨?_, pending⟩)⟩
        exact List.mem_map.mpr ⟨m, listed, named⟩
    · exact ordered

theorem Ordered.throws (ordered : Ordered w) (k : Nat) : Ordered (w.throws k) := by
  unfold Wire.throws
  split
  · exact ordered
  · next s held =>
    have own := (ordered.sent s (List.mem_of_getElem? held)).1
    have remaining : ∀ t ∈ w.outstanding.eraseIdx k,
        isLocalId t.pendingId = true ∧ (isPendingId t.pendingId = true → t.pendingId ∈ w.issued) :=
      fun t inside => ordered.sent t (List.mem_of_mem_eraseIdx inside)
    split
    · have marked : Ordered { w with
          chat := w.chat.withState (updateMessageStatus w.chat.state s.conversationId s.pendingId .failed) } :=
        ordered.remarked fun _ => own
      exact { marked with sent := remaining }
    · exact { ordered with sent := remaining }

theorem Ordered.store (ordered : Ordered w) (k : Nat) (messageId timestamp : String)
    (expiresAt : Option Nat) : Ordered (w.store directory k messageId timestamp expiresAt) := by
  unfold Wire.store
  split
  · exact ordered
  · next s held =>
    split
    · exact ordered
    · next server =>
      refine { ordered with
        sent := fun t inside => ordered.sent t (List.mem_of_mem_eraseIdx inside)
        answers := fun conf inside => ?_ }
      rcases inside with waiting | delivered
      · rcases List.mem_append.mp waiting with old | new
        · exact ordered.answers conf (.inl old)
        · rw [List.mem_singleton.mp new]
          exact ⟨eq_false_of_ne_true server, ordered.sent s (List.mem_of_getElem? held)⟩
      · exact ordered.answers conf (.inr delivered)

theorem Ordered.deliver (ordered : Ordered w) (platform : Platform) (orderly : Orderly w .deliver) :
    Ordered w.deliver := by
  cases head : w.confirmations with
  | nil =>
    unfold Wire.deliver
    rw [head]
    exact ordered
  | cons conf rest =>
    have left := ((ordered.inOrder_iff head).mp (orderly conf rest head)).2
    have answer := ordered.answers conf (.inl (head ▸ List.mem_cons_self))
    have effect : Effect platform w.chat.now w.chat.state _ _ := confirmSent_effect w.chat conf.messageId
      conf.conversationId conf.timestamp conf.channelId conf.expiresAt
    have made : w.deliver = { w with
        chat := w.chat.confirmSent conf.messageId conf.conversationId conf.timestamp conf.channelId conf.expiresAt
        confirmations := rest
        delivered := w.delivered ++ [conf] } := by
      unfold Wire.deliver
      rw [head]
    rw [made] at left ⊢
    refine {
      distinct := ordered.distinct
      order := fun c => ?_
      failures := ordered.failures.confirmSent _ _ _ _ _
      gone := fun other inside => ?_
      timers := fun p timer held => ?_
      sent := ordered.sent
      answers := fun other inside => ordered.answers other ?_ }
    · obtain ⟨added, brought, -, kept⟩ := effect_pendingIds effect c
        (fun messageId _ _ _ _ same => by
          cases same
          exact not_pending_of_server answer.1)
        (fun _ _ same => nomatch same)
      rw [List.sublist_nil.mp brought, List.append_nil] at kept
      exact kept.trans (ordered.order c)
    · rcases List.mem_append.mp inside with old | new
      · intro listed
        rcases effect_ids effect listed with before | none | ⟨_, _, _, same⟩
        · exact ordered.gone other old before
        · exact nomatch none
        · have own := (ordered.answers other (.inr old)).2.1
          rw [← (Op.confirmSent.inj same).1, answer.1] at own
          contradiction
      · rw [List.mem_singleton.mp new]
        exact left
    · unfold confirmSent at held
      split at held
      · exact ordered.timers p timer held
      · split at held
        · exact ordered.timers p timer held
        · next replaced _ _ =>
          by_cases here : p = replaced
          · subst here
            simp at held
          · exact ordered.timers p timer (by simpa [here] using held)
    · rcases inside with waiting | delivered
      · exact .inl (head ▸ List.mem_cons_of_mem _ waiting)
      · rcases List.mem_append.mp delivered with old | new
        · exact .inr old
        · rw [List.mem_singleton.mp new, head]
          exact .inl List.mem_cons_self

theorem Ordered.step (ordered : Ordered w) {e : Event} (orderly : Orderly w e) :
    Ordered (w.step directory platform e) := by
  cases e with
  | send content me username c channel replyTo replyContent replyName threadRoot =>
    exact ordered.send content me username c channel replyTo replyContent replyName threadRoot orderly
  | retry c messageId => exact ordered.retry c messageId
  | throws k => exact ordered.throws k
  | reject k => exact { ordered with sent := fun t inside => ordered.sent t (List.mem_of_mem_eraseIdx inside) }
  | store k messageId timestamp expiresAt => exact ordered.store k messageId timestamp expiresAt
  | lose k =>
    refine { ordered with answers := fun conf inside => ordered.answers conf ?_ }
    exact inside.imp_left List.mem_of_mem_eraseIdx
  | deliver => exact ordered.deliver platform orderly
  | timer pendingId => exact ordered.timer pendingId
  | background op =>
    simp only [Wire.step]
    split
    · next outside => exact ordered.background outside orderly
    · exact ordered

theorem ordered_start : Ordered {} where
  distinct := List.nodup_nil
  order _ := List.nil_sublist _
  failures _ _ inside := nomatch inside
  gone _ inside := nomatch inside
  timers _ _ held := nomatch held
  sent _ inside := nomatch inside
  answers _ inside := inside.elim (fun inside => nomatch inside) (fun inside => nomatch inside)

theorem OrderlyRun.ordered (run : OrderlyRun directory platform w) : Ordered w := by
  induction run with
  | start => exact ordered_start
  | step e _ orderly ih => exact ih.step orderly

theorem confirmations_attach {w : Wire} (run : OrderlyRun directory platform w) :
    Settled w ∧ ∀ conf rest, w.confirmations = conf :: rest →
      (InOrder w conf ↔ Attaches w conf ∧ conf.pendingId ∉ ids (w.deliver.list conf.conversationId)) :=
  ⟨run.ordered.settled, fun _ _ head => run.ordered.inOrder_iff head⟩

def sendText (content : String) : Event := .send content "me" none "c" none none none none none

def refusedFirst : List Event :=
  [sendText "first", .background (.tick 1), sendText "second", .reject 0, .store 0 "m1" "t" none]

def directMessages : Directory := ⟨fun _ => false, fun _ => none⟩

theorem confirmation_misattached : ¬ ∀ directory platform events,
    Settled (Wire.run directory platform events) ∧
      ∀ conf rest, (Wire.run directory platform events).confirmations = conf :: rest →
        Attaches (Wire.run directory platform events) conf := by
  intro all
  have attaches := (all directMessages stablePlatform refusedFirst).2 ⟨"pending_1", "m1", "c", none, "t", none⟩ [] rfl
  have taken : (replacePendingMessage "m1" "t" none none
      ((Wire.run directMessages stablePlatform refusedFirst).list "c")).map Prod.fst = some "pending_0" := by
    decide +kernel
  obtain ⟨⟨replaced, updated⟩, rewrites, named⟩ := Option.map_eq_some_iff.mp taken
  have other : "pending_1" = "pending_0" := (attaches replaced updated rewrites).symm.trans named
  exact absurd other (by decide)

/- Its other half fails too: the stored message stays marked as failed. -/

def confirmedOnce : List Event := [sendText "first", .store 0 "m1" "t" none, .deliver]

theorem orderly_confirmedOnce :
    OrderlyRun directMessages stablePlatform (Wire.run directMessages stablePlatform confirmedOnce) := by
  let stored := Wire.run directMessages stablePlatform (confirmedOnce.take 2)
  have sent : OrderlyRun directMessages stablePlatform stored :=
    .step (.store 0 "m1" "t" none) (.step confirmedOnce[0] .start (fun inside => nomatch inside)) trivial
  have listed : stored.list "c" =
      [optimistic stablePlatform 0 "first" "me" none "c" none none none none none] := by decide +kernel
  refine .step .deliver sent fun conf rest head => ?_
  have answers : stored.confirmations = [⟨"pending_0", "m1", "c", none, "t", none⟩] := rfl
  obtain ⟨rfl, rfl⟩ := List.cons.inj (answers.symm.trans head)
  refine ⟨?_, ?_, ?_⟩
  · intro m inside _
    rw [listed, List.mem_singleton] at inside
    subst inside
    decide +kernel
  · intro m inside _ earlier
    have short : 2 ≤ 1 := earlier.length_le
    omega
  · intro _
    exact ⟨_, by rw [listed]; exact List.mem_cons_self, rfl⟩

theorem confirmations_attach_once : Settled (Wire.run directMessages stablePlatform confirmedOnce) :=
  (confirmations_attach orderly_confirmedOnce).1

end Echo.Timeline
