import Echo.Conversations.State
import Echo.Timeline.Draining

/-! Texts that the client reads as signals of its own: system events, failures and placeholders are
told by the content of a message alone. -/
namespace Echo.Timeline
open Echo.Client (looksEncrypted groupEncryptedPrefixV1 groupEncryptedPrefixV2)

section Reading
variable {dates : Dates} {json : Frame} {myUserId text sender : String}

def systemEvent (text myUserId : String) : Option String :=
  if startsWith text "__system__:" then translateSystemSentinel text myUserId else none

def messageId (json : Frame) : String := ((json "id").orElse ((json "message_id").orElse (.str ""))).text

theorem fromServerJson_read {msg : ChatMessage} (content : json "content" = .str text)
    (unnamed : json "sender_id" = .null) (from' : json "from_user_id" = .str sender)
    (made : fromServerJson dates json myUserId = some msg) :
    msg.content = (systemEvent text myUserId).getD text ∧
      msg.fromUserId = (if (systemEvent text myUserId).isSome then systemUserId else sender) ∧
      msg.isEncrypted = false ∧ msg.id = messageId json := by
  have raw : ((json "content").orElse (.str "")).text = text := by
    rw [content]
    rfl
  have named : ((json "sender_id").orElse ((json "from_user_id").orElse (.str ""))).text = sender := by
    rw [unnamed, from']
    rfl
  unfold fromServerJson at made
  iterate 13 obtain ⟨_, -, made⟩ := Option.bind_eq_some_iff.mp made
  cases Option.some.inj made
  refine ⟨?_, ?_, rfl, rfl⟩
  · change (systemEvent ((json "content").orElse (.str "")).text myUserId).getD _ = _
    rw [raw]
  · change (if (systemEvent ((json "content").orElse (.str "")).text myUserId).isSome = true then _ else _) = _
    rw [raw, named]

end Reading

section Treatment

/-- What `MessageCache.cacheMessages` keeps. -/
def isCacheable (msg : ChatMessage) : Bool :=
  !startsWith msg.id "pending_" && !Conversations.failureSentinels.contains msg.content

/-- What every layer does with an ordinary message: the chat, its counters, the cache, a second copy of
the message, and the replay of what the server stored. -/
structure Ordinary (s : ChatState) (text sender stored : String) (msg : ChatMessage) : Prop where
  content : msg.content = text
  sender : msg.fromUserId = sender
  pill : msg.isSystemEvent = false
  failures : ∀ c, ((s.trackDecryptFailures msg).consecutiveDecryptFailures c).getD 0 ≤
    (s.consecutiveDecryptFailures c).getD 0
  signatures : (s.trackDecryptFailures msg).signatureFailures = s.signatureFailures
  cached : isCacheable msg = true
  kept : (msg.isEncrypted && isPlaceholderContent msg.content) = false
  replayed : Server.isSystem stored = false

structure Innocent (text myUserId : String) : Prop where
  event : systemEvent text myUserId = none
  decrypt : startsWith text "[Could not decrypt" = false
  verify : startsWith text "[Could not verify sender" = false
  sentinel : Conversations.failureSentinels.contains text = false

theorem ordinary_iff (msg : ChatMessage) (stored : String) {text sender myUserId : String}
    (content : msg.content = (systemEvent text myUserId).getD text)
    (from' : msg.fromUserId = if (systemEvent text myUserId).isSome then systemUserId else sender)
    (user : sender ≠ systemUserId) (confirmed : startsWith msg.id "pending_" = false) :
    (∀ s, Ordinary s text sender stored msg) ↔
      Innocent text myUserId ∧ (msg.isEncrypted && isPlaceholderContent text) = false ∧
        Server.isSystem stored = false := by
  constructor
  · intro ordinary
    have fresh := ordinary {}
    have event : systemEvent text myUserId = none := by
      cases event : systemEvent text myUserId with
      | none => rfl
      | some shown =>
        rw [event] at from'
        exact (user (fresh.sender.symm.trans from')).elim
    refine ⟨⟨event, ?_, ?_, ?_⟩, ?_, fresh.replayed⟩
    · refine eq_false_of_ne_true fun failure => ?_
      have raised := fresh.failures msg.conversationId
      rw [← fresh.content] at failure
      simp [ChatState.trackDecryptFailures, failure] at raised
    · refine eq_false_of_ne_true fun failure => ?_
      have marked := fresh.signatures
      rw [← fresh.content] at failure
      simp [ChatState.trackDecryptFailures, failure] at marked
    · have cached := fresh.cached
      rw [isCacheable, fresh.content, Bool.and_eq_true, Bool.not_eq_true', Bool.not_eq_true'] at cached
      exact cached.2
    · have kept := fresh.kept
      rwa [fresh.content] at kept
  · rintro ⟨innocent, kept, replayed⟩ s
    rw [innocent.event] at content from'
    have content : msg.content = text := content
    have from' : msg.fromUserId = sender := from'
    have pill : msg.isSystemEvent = false := by
      rw [ChatMessage.isSystemEvent, from']
      exact beq_false_of_ne user
    refine ⟨content, from', pill, fun c => ?_, ?_, ?_, ?_, replayed⟩
    · simp only [ChatState.trackDecryptFailures, content, innocent.decrypt, Bool.false_eq_true, if_false]
      split
      · by_cases here : c = msg.conversationId
        · rw [here, Function.update_self]
          exact Nat.zero_le _
        · rw [Function.update_of_ne here]
      · exact Nat.le_refl _
    · simp [ChatState.trackDecryptFailures, content, innocent.verify]
    · rw [isCacheable, content, confirmed, innocent.sentinel]
      rfl
    · rw [content]
      exact kept

end Treatment

section Layers
variable {dates : Dates} {r : Receiver} {json : Frame} {fields : Fields}

structure UserFrame (dates : Dates) (json : Frame) (fields : Fields) : Prop where
  read : readFields json = some fields
  readable : (json "undecryptable").isTrue = false
  unnamed : json "sender_id" = .null
  user : fields.fromUserId ≠ systemUserId
  confirmed : startsWith (messageId json) "pending_" = false

theorem startsWith_head {text start : String} {c : Char} {rest : List Char} (lead : start.toList = c :: rest)
    (starts : startsWith text start = true) : ∃ tail, text.toList = c :: tail := by
  unfold startsWith at starts
  rw [lead] at starts
  cases whole : text.toList with
  | nil =>
    rw [whole] at starts
    cases starts
  | cons head tail =>
    rw [whole, List.isPrefixOf_cons_cons, Bool.and_eq_true, beq_iff_eq] at starts
    exact ⟨tail, by rw [starts.1]⟩

theorem not_system_of_looks {text : String} (looks : startsWith text groupEncryptedPrefixV1 = true ∨
    startsWith text groupEncryptedPrefixV2 = true ∨ looksEncrypted text = true) : startsWith text "__system__:" = false := by
  refine eq_false_of_ne_true fun system => ?_
  obtain ⟨tail, whole⟩ := startsWith_head (c := '_') rfl system
  have apart : ∀ start : String, ∀ rest, start.toList = 'G' :: rest → startsWith text start = true → False := by
    intro start rest lead starts
    obtain ⟨tail', whole'⟩ := startsWith_head lead starts
    rw [whole] at whole'
    cases (List.cons.inj whole').1
  have body : looksEncrypted text = true → False := by
    intro looks
    simp only [looksEncrypted, Bool.or_eq_true, Bool.and_eq_true, whole] at looks
    rcases looks with (one | two) | ⟨-, all⟩
    · exact apart groupEncryptedPrefixV1 _ rfl one
    · exact apart groupEncryptedPrefixV2 _ rfl two
    · rw [List.all_cons, Bool.and_eq_true] at all
      exact absurd all.1 (by decide)
  rcases looks with one | two | looks
  · exact apart groupEncryptedPrefixV1 _ rfl one
  · exact apart groupEncryptedPrefixV2 _ rfl two
  · exact body looks

theorem work_looks {device : Option Int} {raw sender conversationId : String} {messageId : Option String}
    (encrypted : (r.decryptContent raw sender conversationId device messageId).isEncrypted = true) :
    startsWith raw groupEncryptedPrefixV1 = true ∨ startsWith raw groupEncryptedPrefixV2 = true ∨
      looksEncrypted raw = true := by
  unfold Receiver.decryptContent at encrypted
  simp only at encrypted
  split at encrypted
  · next group =>
    rcases Bool.or_eq_true_iff.mp group with one | two
    · exact .inl one
    · exact .inr (.inl two)
  · split at encrypted
    · next dm => exact .inr (.inr (Bool.and_eq_true_iff.mp dm).2)
    · cases encrypted

namespace Receiver

/-- What a text that is sent as it is comes to, none where it is taken for something else. -/
def shownAs (dates : Dates) (r : Receiver) (json : Frame) (fields : Fields) : Option ChatMessage :=
  match r.route json fields with
  | .plaintext => fromServerJson dates json r.userId
  | .now => (r.liveDelivery json fields).bind fun d => if d.work.isEncrypted then none else d.message dates ""
  | _ => none

/-- It looks like no group wire, and like no ciphertext where the conversation is not a known group. -/
def TakesAsText (r : Receiver) (fields : Fields) : Prop :=
  startsWith fields.rawContent "__system__:" = false ∧
    startsWith fields.rawContent groupEncryptedPrefixV1 = false ∧
    (detectPlaintextGroup (r.conversation fields.conversationId) false = true ∨
      r.isInitialized = false ∧ looksEncrypted fields.rawContent = false ∨
      r.isInitialized = true ∧ startsWith fields.rawContent groupEncryptedPrefixV2 = false ∧
        (r.isGroupConversation fields.conversationId = true ∨ looksEncrypted fields.rawContent = false))

theorem shownAs_iff (frame : UserFrame dates json fields) {msg : ChatMessage} :
    r.shownAs dates json fields = some msg ↔ r.TakesAsText fields ∧ fromServerJson dates json r.userId = some msg := by
  have live := liveDelivery_eq (r := r) frame.read
  unfold shownAs TakesAsText
  cases system : startsWith fields.rawContent "__system__:" with
  | true => simp [route, system]
  | false =>
    cases one : startsWith fields.rawContent groupEncryptedPrefixV1 with
    | true =>
      have group : (r.handed json fields fields.fromDeviceId (r.alreadySeen fields)).work.isEncrypted = true := by
        simp only [handed, decryptContent, one, Bool.true_or, if_true]
        split <;> rfl
      cases ready : r.isInitialized with
      | true => simp [route, system, frame.readable, one, detectPlaintextGroup, detectObviouslyPlaintext, ready, live, group]
      | false => simp [route, system, frame.readable, one, detectPlaintextGroup, detectObviouslyPlaintext, ready]
    | false =>
      cases known : detectPlaintextGroup (r.conversation fields.conversationId) false with
      | true => simp [route, system, frame.readable, one, known]
      | false =>
        cases ready : r.isInitialized with
        | false =>
          cases looks : looksEncrypted fields.rawContent <;>
            simp [route, system, frame.readable, one, known, detectObviouslyPlaintext, looks, ready]
        | true =>
          have now : r.route json fields = .now := by
            simp [route, system, frame.readable, one, known, ready]
          have work : (r.handed json fields fields.fromDeviceId (r.alreadySeen fields)).work =
              r.decryptContent fields.rawContent fields.fromUserId fields.conversationId fields.fromDeviceId
                fields.messageId := rfl
          rw [now, live]
          simp only [Option.bind_some]
          cases two : startsWith fields.rawContent groupEncryptedPrefixV2 with
          | true => simp [work, decryptContent, one, two, Work.isEncrypted]
          | false =>
            cases dm : !r.isGroupConversation fields.conversationId && looksEncrypted fields.rawContent with
            | true =>
              have secret : (r.handed json fields fields.fromDeviceId (r.alreadySeen fields)).work.isEncrypted = true := by
                simp [work, decryptContent, one, two, dm, Work.isEncrypted]
              rw [Bool.and_eq_true, Bool.not_eq_true'] at dm
              simp [secret, dm.1, dm.2]
            | false =>
              have plain : (r.handed json fields fields.fromDeviceId (r.alreadySeen fields)).work =
                  .plain fields.rawContent := by
                rw [work]
                simp [decryptContent, one, two, dm]
              have taken : r.isGroupConversation fields.conversationId = true ∨ looksEncrypted fields.rawContent = false := by
                rw [Bool.and_eq_false_iff, Bool.not_eq_false'] at dm
                exact dm
              have open' : (r.handed json fields fields.fromDeviceId (r.alreadySeen fields)).work.isEncrypted = false := by
                rw [plain]
                rfl
              rw [open', if_neg Bool.false_ne_true, plain_message frame.read plain]
              simp [taken]

end Receiver

end Layers

section Samples
open Receiver (noDates fromSecondDevice earlyFields)

def inPlainGroup : Frame
  | "content" => .str "hello"
  | "from_user_id" => .str "peer"
  | "conversation_id" => .str "g"
  | "timestamp" => .str "t"
  | "from_username" => .str "peer"
  | "message_id" => .str "m"
  | _ => .null

def plainFields : Fields := ⟨"hello", "peer", none, "g", "t", "peer", some "m"⟩

def groupReceiver : Receiver := { userId := "me", conversations := [⟨"g", true, false⟩] }

end Samples
end Echo.Timeline
