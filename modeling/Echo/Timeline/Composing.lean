import Echo.Lib.Along
import Echo.Timeline.Store

/-! The reply that the user is writing, while the notifier takes messages, histories and keys. -/
namespace Echo.Timeline
open ChatState Chat
open Echo.Lib (Along)
variable (platform : Platform)

def ChatState.composed (s : ChatState) : Option ChatMessage × Bool := (s.replyToMessage, s.replyAsThread)

def Op.Composes : Op → Prop
  | .setReplyTo _ _ | .clearReplyTo | .clear => True
  | _ => False

/-- The operation lists the fields of a new state by hand, without `replyAsThread`. -/
def ChatState.Rebuilds (s : ChatState) : Op → Prop
  | .addMessage _ _ | .addOptimistic .. | .hydrate _ => True
  | .addSystemEvent c event => repeatsLast (s.messagesForConversation c) event = false
  | .syncRestored c => s.consecutiveDecryptFailures c ≠ none
  | .groupRotationNeeded c => c ∉ s.groupsNeedingRotation
  | .groupRotationCleared c => c ∈ s.groupsNeedingRotation
  | .signatureFailureCleared c => c ∈ s.signatureFailures
  | _ => False

section Fields
variable {s : ChatState}

@[simp] theorem composed_setMessages (s : ChatState) (c : String) (messages : List ChatMessage) :
    (s.setMessages c messages).composed = s.composed := rfl

@[simp] theorem composed_setIndex (s : ChatState) (c : String) (known : Finset String) :
    (s.setIndex c known).composed = s.composed := rfl

theorem composed_amendReplyCount (s : ChatState) (c parentId : String) (amend : Int → Option Int) :
    (amendReplyCount s c parentId amend).composed = s.composed := by
  unfold amendReplyCount
  dsimp only
  split
  · rfl
  · split
    · rfl
    · split <;> rfl

theorem composed_mapMessages (s : ChatState) (c : String) (change : ChatMessage → ChatMessage) :
    (mapMessages s c change).composed = s.composed := by
  unfold mapMessages
  split <;> rfl

theorem composed_transitionToFailed (s : ChatState) (c pendingId content : String) :
    (transitionToFailed s c pendingId content).composed = s.composed := by
  unfold transitionToFailed
  dsimp only
  split
  · rfl
  · split
    · rfl
    · split
      · rfl
      · split
        · exact composed_amendReplyCount ..
        · rfl

theorem composed_updateMessageStatus (s : ChatState) (c messageId : String) (status : MessageStatus) :
    (updateMessageStatus s c messageId status).composed = s.composed := by
  have marked := composed_mapMessages s c fun msg => if msg.id = messageId then { msg with status := status } else msg
  unfold updateMessageStatus
  dsimp only
  split
  · exact marked
  · split
    · exact marked
    · split
      · exact (composed_amendReplyCount ..).trans marked
      · split
        · exact (composed_amendReplyCount ..).trans marked
        · exact marked

theorem replyToMessage_appendOrReplaceMessage (s : ChatState) (msg : ChatMessage) :
    (s.appendOrReplaceMessage msg).replyToMessage = s.replyToMessage := by
  unfold appendOrReplaceMessage
  dsimp only
  split
  · rfl
  · split
    · rfl
    · split
      · rfl
      · split <;> rfl

theorem composed_withMessage (s : ChatState) (msg : ChatMessage) :
    (s.withMessage msg).composed = (s.replyToMessage, false) := by
  unfold withMessage
  dsimp only
  split
  · rfl
  · exact congrArg (·, false) (replyToMessage_appendOrReplaceMessage _ _)

theorem composed_withSyncRestored (s : ChatState) (c : String) :
    (s.withSyncRestored c).composed =
      if s.consecutiveDecryptFailures c = none then s.composed else (s.replyToMessage, false) := by
  unfold withSyncRestored
  by_cases uncounted : s.consecutiveDecryptFailures c = none
  · rw [if_pos uncounted, if_pos (Option.isNone_iff_eq_none.mpr uncounted)]
  · rw [if_neg uncounted, if_neg (mt Option.isNone_iff_eq_none.mp uncounted)]
    rfl

theorem composed_withGroupRotationNeeded (s : ChatState) (c : String) :
    (s.withGroupRotationNeeded c).composed =
      if c ∈ s.groupsNeedingRotation then s.composed else (s.replyToMessage, false) := by
  unfold withGroupRotationNeeded
  split <;> rfl

theorem composed_withGroupRotationCleared (s : ChatState) (c : String) :
    (s.withGroupRotationCleared c).composed =
      if c ∉ s.groupsNeedingRotation then s.composed else (s.replyToMessage, false) := by
  unfold withGroupRotationCleared
  split <;> rfl

theorem composed_withSignatureFailureCleared (s : ChatState) (c : String) :
    (s.withSignatureFailureCleared c).composed =
      if c ∉ s.signatureFailures then s.composed else (s.replyToMessage, false) := by
  unfold withSignatureFailureCleared
  split <;> rfl

end Fields

section Step
variable {platform}

theorem composed_addMessage (chat : Chat) (msg : ChatMessage) (bumpReplyCount : Bool) :
    (chat.addMessage msg bumpReplyCount).state.composed = (chat.state.replyToMessage, false) := by
  unfold addMessage
  dsimp only
  split
  · split
    · exact (composed_amendReplyCount ..).trans (composed_withMessage _ _)
    · exact composed_withMessage _ _
  · exact composed_withMessage _ _

theorem composed_addOptimistic (chat : Chat) (content me : String) (username : Option String) (c : String)
    (channel replyTo replyContent replyName threadRoot : Option String) :
    (chat.addOptimistic platform content me username c channel replyTo replyContent replyName threadRoot).state.composed =
      (chat.state.replyToMessage, false) := by
  unfold addOptimistic
  dsimp only
  split
  · exact (composed_amendReplyCount ..).trans (composed_withMessage _ _)
  · exact composed_withMessage _ _

theorem composed_timeout (chat : Chat) (pendingId : String) :
    (chat.timeout pendingId).state.composed = chat.state.composed := by
  unfold timeout
  split
  · rfl
  · split
    · exact composed_transitionToFailed ..
    · rfl

theorem composed_confirmSent (chat : Chat) (messageId c timestamp : String) (channelId : Option String)
    (expiresAt : Option Nat) :
    (chat.confirmSent messageId c timestamp channelId expiresAt).state.composed = chat.state.composed := by
  unfold confirmSent
  split
  · rfl
  · split <;> rfl

theorem composed_deleteMessage (s : ChatState) (c messageId : String) :
    (deleteMessage s c messageId).composed = s.composed := by
  unfold deleteMessage
  split <;> rfl

variable (platform) in
theorem composed_perform (chat : Chat) {op : Op} (incoming : ¬ op.Composes) :
    (chat.state.Rebuilds op → (chat.perform platform op).state.composed = (chat.state.replyToMessage, false)) ∧
      (¬ chat.state.Rebuilds op → (chat.perform platform op).state.composed = chat.state.composed) := by
  cases op with
  | addMessage msg bump => exact ⟨fun _ => composed_addMessage .., fun spared => absurd trivial spared⟩
  | addOptimistic =>
    exact ⟨fun _ => composed_addOptimistic .., fun spared => absurd trivial spared⟩
  | hydrate latest => exact ⟨fun _ => composed_withMessage .., fun spared => absurd trivial spared⟩
  | addSystemEvent c event =>
    refine ⟨fun fresh => ?_, fun repeated => ?_⟩
    · exact (congrArg composed (if_neg (ne_true_of_eq_false fresh))).trans (composed_withMessage _ _)
    · exact congrArg composed (if_pos (eq_true_of_ne_false repeated))
  | syncRestored c =>
    exact ⟨fun counted => (composed_withSyncRestored _ c).trans (if_neg counted),
      fun uncounted => (composed_withSyncRestored _ c).trans (if_pos (not_not.mp uncounted))⟩
  | groupRotationNeeded c =>
    exact ⟨fun new => (composed_withGroupRotationNeeded _ c).trans (if_neg new),
      fun known => (composed_withGroupRotationNeeded _ c).trans (if_pos (not_not.mp known))⟩
  | groupRotationCleared c =>
    exact ⟨fun needing => (composed_withGroupRotationCleared _ c).trans (if_neg (not_not.mpr needing)),
      fun healthy => (composed_withGroupRotationCleared _ c).trans (if_pos healthy)⟩
  | signatureFailureCleared c =>
    exact ⟨fun failing => (composed_withSignatureFailureCleared _ c).trans (if_neg (not_not.mpr failing)),
      fun verified => (composed_withSignatureFailureCleared _ c).trans (if_pos verified)⟩
  | timeout pendingId => exact ⟨False.elim, fun _ => composed_timeout ..⟩
  | confirmSent => exact ⟨False.elim, fun _ => composed_confirmSent ..⟩
  | updateMessageStatus => exact ⟨False.elim, fun _ => composed_updateMessageStatus ..⟩
  | deleteMessage => exact ⟨False.elim, fun _ => composed_deleteMessage ..⟩
  | markConversationRead | editMessage | updateMessagePin | addReaction | removeReaction =>
    exact ⟨False.elim, fun _ => composed_mapMessages ..⟩
  | mergeMessages | setLoadingHistory | clearConversation | tick => exact ⟨False.elim, fun _ => rfl⟩
  | setReplyTo | clearReplyTo | clear => exact absurd trivial incoming

theorem composed_perform_iff {chat : Chat} {op : Op} (incoming : ¬ op.Composes) :
    (chat.perform platform op).state.composed = chat.state.composed ↔
      (chat.state.replyAsThread = true → ¬ chat.state.Rebuilds op) := by
  obtain ⟨rebuilt, spared⟩ := composed_perform platform chat incoming
  by_cases rebuilds : chat.state.Rebuilds op
  · rw [rebuilt rebuilds, composed, Prod.mk.injEq]
    cases chat.state.replyAsThread <;> simp [rebuilds]
  · exact iff_of_true (spared rebuilds) fun _ => rebuilds

theorem replyToMessage_perform {chat : Chat} {op : Op} (incoming : ¬ op.Composes) :
    (chat.perform platform op).state.replyToMessage = chat.state.replyToMessage := by
  obtain ⟨rebuilt, spared⟩ := composed_perform platform chat incoming
  by_cases rebuilds : chat.state.Rebuilds op
  · exact congrArg Prod.fst (rebuilt rebuilds)
  · exact congrArg Prod.fst (spared rebuilds)

theorem replyAsThread_perform {chat : Chat} {op : Op} (incoming : ¬ op.Composes)
    (plain : chat.state.replyAsThread = false) : (chat.perform platform op).state.replyAsThread = false := by
  obtain ⟨rebuilt, spared⟩ := composed_perform platform chat incoming
  by_cases rebuilds : chat.state.Rebuilds op
  · exact congrArg Prod.snd (rebuilt rebuilds)
  · exact (congrArg Prod.snd (spared rebuilds)).trans plain

theorem replyToMessage_run {chat : Chat} {ops : List Op} (incoming : ∀ op ∈ ops, ¬ op.Composes) :
    (ops.foldl (Chat.perform platform) chat).state.replyToMessage = chat.state.replyToMessage := by
  induction ops generalizing chat with
  | nil => rfl
  | cons op ops ih =>
    exact (ih fun later mem => incoming later (List.mem_cons_of_mem op mem)).trans
      (replyToMessage_perform (incoming op List.mem_cons_self))

theorem replyAsThread_run {chat : Chat} {ops : List Op} (incoming : ∀ op ∈ ops, ¬ op.Composes)
    (plain : chat.state.replyAsThread = false) :
    (ops.foldl (Chat.perform platform) chat).state.replyAsThread = false := by
  induction ops generalizing chat with
  | nil => exact plain
  | cons op ops ih =>
    exact ih (fun later mem => incoming later (List.mem_cons_of_mem op mem))
      (replyAsThread_perform (incoming op List.mem_cons_self) plain)

theorem thread_run_iff {chat : Chat} {ops : List Op} (incoming : ∀ op ∈ ops, ¬ op.Composes)
    (thread : chat.state.replyAsThread = true) :
    (ops.foldl (Chat.perform platform) chat).state.replyAsThread = true ↔
      Along (Chat.perform platform) (fun chat op => ¬ chat.state.Rebuilds op) chat ops := by
  induction ops generalizing chat with
  | nil => exact iff_of_true thread trivial
  | cons op ops ih =>
    have first := incoming op List.mem_cons_self
    have rest : ∀ later ∈ ops, ¬ later.Composes := fun later mem => incoming later (List.mem_cons_of_mem op mem)
    obtain ⟨rebuilt, spared⟩ := composed_perform platform chat first
    by_cases rebuilds : chat.state.Rebuilds op
    · have lost : (ops.foldl (Chat.perform platform) (chat.perform platform op)).state.replyAsThread = false :=
        replyAsThread_run rest (congrArg Prod.snd (rebuilt rebuilds))
      exact iff_of_false (ne_true_of_eq_false lost) fun along => along.1 rebuilds
    · rw [List.foldl_cons, ih rest ((congrArg Prod.snd (spared rebuilds)).trans thread)]
      exact (and_iff_right rebuilds).symm

end Step

/-- Over every run of the notifier, from any state: each operation that is not the user's choice leaves the reply as it
is exactly when it does not list the state by hand under a reply to a thread; and where none is the user's choice, the
reply is in the end what it was exactly when that holds all along. -/
theorem composed_kept_iff (chat : Chat) (ops : List Op) :
    (Along (Chat.perform platform)
        (fun chat op => ¬ op.Composes → (chat.perform platform op).state.composed = chat.state.composed) chat ops ↔
      Along (Chat.perform platform)
        (fun chat op => ¬ op.Composes → chat.state.replyAsThread = true → ¬ chat.state.Rebuilds op) chat ops) ∧
    ((∀ op ∈ ops, ¬ op.Composes) →
      ((ops.foldl (Chat.perform platform) chat).state.composed = chat.state.composed ↔
        (chat.state.replyAsThread = true →
          Along (Chat.perform platform) (fun chat op => ¬ chat.state.Rebuilds op) chat ops))) := by
  constructor
  · have agree : ∀ (chat : Chat) (op : Op),
        (¬ op.Composes → (chat.perform platform op).state.composed = chat.state.composed) ↔
          (¬ op.Composes → chat.state.replyAsThread = true → ¬ chat.state.Rebuilds op) :=
      fun _ _ => imp_congr_right composed_perform_iff
    exact ⟨Along.imp fun chat op => (agree chat op).mp, Along.imp fun chat op => (agree chat op).mpr⟩
  · intro incoming
    have same : (ops.foldl (Chat.perform platform) chat).state.replyToMessage = chat.state.replyToMessage :=
      replyToMessage_run incoming
    rw [composed, composed, Prod.mk.injEq, and_iff_right same]
    cases asThread : chat.state.replyAsThread with
    | false => exact iff_of_true (replyAsThread_run incoming asThread) fun thread => absurd thread Bool.false_ne_true
    | true => exact (thread_run_iff incoming asThread).trans ⟨fun along _ => along, fun along => along rfl⟩

def rootMessage : ChatMessage :=
  { id := "m1", fromUserId := "ann", fromUsername := "Ann", conversationId := "c", content := "hi",
    timestamp := "2026-01-01T12:00:00.000Z", isMine := false }

/-- A reply to the thread of `m1` is being written. -/
def replying : Chat := Chat.perform stablePlatform {} (.setReplyTo rootMessage true)

def arriving : ChatMessage := { rootMessage with id := "m2" }

theorem replying_lost :
    replying.state.composed = (some rootMessage, true) ∧
      (replying.perform stablePlatform (.addMessage arriving true)).state.composed ≠ replying.state.composed := by
  refine ⟨rfl, fun same => Bool.false_ne_true ?_⟩
  have lost : (replying.perform stablePlatform (.addMessage arriving true)).state.composed = (some rootMessage, false) :=
    composed_addMessage replying arriving true
  exact congrArg Prod.snd (lost.symm.trans same)

theorem replying_kept :
    ([.mergeMessages "c" [rootMessage] none, .groupRotationCleared "c"].foldl (Chat.perform stablePlatform)
      replying).state.composed = replying.state.composed := by
  have incoming : ∀ op ∈ [Op.mergeMessages "c" [rootMessage] none, .groupRotationCleared "c"], ¬ op.Composes := by
    intro op mem
    rcases List.mem_pair.mp mem with rfl | rfl <;> exact id
  refine ((composed_kept_iff stablePlatform replying _).2 incoming).mpr fun _ => ⟨id, ?_, trivial⟩
  exact Finset.notMem_empty "c"

end Echo.Timeline
