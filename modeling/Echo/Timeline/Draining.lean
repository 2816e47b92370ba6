import Echo.Timeline.Receiving

/- What the drain of the queue does with a frame, beside what the handler would have done with it
once the keys are there. -/
namespace Echo.Timeline
open Echo.Client (looksEncrypted groupEncryptedPrefixV1 groupEncryptedPrefixV2)

namespace Receiver

/-- The decoder of a frame asks for a device: a signed group wire, or the session of a peer. -/
def UsesDevice (r : Receiver) (fields : Fields) : Prop :=
  startsWith fields.rawContent groupEncryptedPrefixV2 = true ∨
    startsWith fields.rawContent groupEncryptedPrefixV1 = false ∧
      r.isGroupConversation fields.conversationId = false ∧ looksEncrypted fields.rawContent = true

/-- A drained delivery gives the frame to the decoder, slot and arguments the handler would give it
to, and makes the same message of every answer. -/
def AsLive (dates : Dates) (r : Receiver) (json : Frame) (d : Delivery) : Prop :=
  ∃ fields, readFields json = some fields ∧
    match Receiver.route { r with isInitialized := true } json fields with
    | .now => ∃ live, r.liveDelivery json fields = some live ∧ d.work = live.work ∧
        ∀ answer, d.message dates answer = live.message dates answer
    | .plaintext => d.work = .plain fields.rawContent ∧
        ∀ answer, d.message dates answer = fromServerJson dates json r.userId
    | _ => False

/-- The frame names no device or its decoder does not ask for one; and it is not a signed group
wire of a conversation known by now as an unencrypted group, which the handler would show raw. -/
def Unaffected (r : Receiver) (json : Frame) : Prop :=
  ∀ fields, readFields json = some fields → (fields.fromDeviceId = none ∨ ¬ r.UsesDevice fields) ∧
    ¬ (detectPlaintextGroup (r.conversation fields.conversationId)
        (startsWith fields.rawContent groupEncryptedPrefixV1) = true ∧
      startsWith fields.rawContent groupEncryptedPrefixV2 = true)

structure Queueable (json : Frame) (fields : Fields) : Prop where
  read : readFields json = some fields
  shown : startsWith fields.rawContent "__system__:" = false
  readable : (json "undecryptable").isTrue = false
  secret : detectObviouslyPlaintext (startsWith fields.rawContent groupEncryptedPrefixV1) fields.rawContent = false

variable {dates : Dates} {platform : Platform} {r : Receiver} {json : Frame} {fields : Fields}

theorem later_queueable (read : readFields json = some fields) (later : r.route json fields = .later) :
    Queueable json fields := by
  simp only [route] at later
  split at later
  · exact nomatch later
  · next shown =>
    split at later
    · exact nomatch later
    · next readable =>
      split at later
      · exact nomatch later
      · next secret =>
        split at later
        · exact nomatch later
        · next unready =>
          rw [Bool.or_eq_true, not_or, Bool.and_eq_true, eq_false_of_ne_true unready] at secret
          refine ⟨read, eq_false_of_ne_true shown, eq_false_of_ne_true readable, ?_⟩
          exact eq_false_of_ne_true fun plain => secret.2 ⟨plain, rfl⟩

theorem readFields_eq (read : readFields json = some fields) :
    json "content" = .str fields.rawContent ∧ json "from_user_id" = .str fields.fromUserId ∧
      json "conversation_id" = .str fields.conversationId ∧ json "timestamp" = .str fields.timestamp ∧
      json "from_username" = .str fields.senderUsername ∧
      (json "message_id").asStringOrNull = some fields.messageId := by
  have text : ∀ {v : Value} {s : String}, v.asString = some s → v = .str s := by
    intro v s cast
    cases v <;> simp [Value.asString] at cast
    rw [cast]
  simp only [readFields, Option.bind_eq_bind, Option.bind_eq_some_iff, Option.pure_def] at read
  obtain ⟨content, hc, fromUser, hu, device, -, conversation, hv, timestamp, ht, name, hn, id, hi, made⟩ := read
  cases Option.some.inj made
  exact ⟨text hc, text hu, text hv, text ht, text hn, hi⟩

theorem readDrainFields_eq (read : readFields json = some fields) :
    readDrainFields json = some ⟨fields.rawContent, fields.fromUserId, fields.conversationId, fields.timestamp,
      fields.senderUsername⟩ := by
  obtain ⟨content, fromUser, conversation, timestamp, name, -⟩ := readFields_eq read
  simp only [readDrainFields, content, fromUser, conversation, timestamp, name]
  rfl

def handed (r : Receiver) (json : Frame) (fields : Fields) (device : Option Int) (seen : Bool) : Delivery where
  json := json
  myUserId := r.userId
  conversationId := fields.conversationId
  timestamp := fields.timestamp
  senderUsername := fields.senderUsername
  alreadySeen := seen
  work := r.decryptContent fields.rawContent fields.fromUserId fields.conversationId device fields.messageId

theorem liveDelivery_eq (read : readFields json = some fields) :
    r.liveDelivery json fields = some (r.handed json fields fields.fromDeviceId (r.alreadySeen fields)) := by
  simp only [liveDelivery, delivery, (readFields_eq read).2.2.2.2.2]
  rfl

theorem drainDelivery_eq (read : readFields json = some fields) :
    ∃ held, readDrainFields json = some held ∧ r.drainDelivery json held = some (r.handed json fields none false) := by
  refine ⟨_, readDrainFields_eq read, ?_⟩
  simp only [drainDelivery, delivery, (readFields_eq read).2.2.2.2.2]
  rfl

theorem handed_message {device device' : Option Int} {seen seen' : Bool}
    (same : (r.handed json fields device seen).work = (r.handed json fields device' seen').work) (answer : String) :
    (r.handed json fields device seen).message dates answer = (r.handed json fields device' seen').message dates answer := by
  unfold Delivery.message
  rw [same]
  rfl

theorem plain_message (read : readFields json = some fields) {device : Option Int} {seen : Bool}
    (plain : (r.handed json fields device seen).work = .plain fields.rawContent) (answer : String) :
    (r.handed json fields device seen).message dates answer = fromServerJson dates json r.userId := by
  unfold Delivery.message
  rw [plain]
  change Option.map _ (fromServerJson dates (json.withContent fields.rawContent) r.userId) = _
  rw [Frame.withContent_self (readFields_eq read).1]
  simp [Work.isEncrypted]

/- The decoders agree with and without the device exactly when none is named or none is asked for. -/
theorem decryptContent_device_iff :
    r.decryptContent fields.rawContent fields.fromUserId fields.conversationId none fields.messageId =
        r.decryptContent fields.rawContent fields.fromUserId fields.conversationId fields.fromDeviceId
          fields.messageId ↔
      fields.fromDeviceId = none ∨ ¬ r.UsesDevice fields := by
  unfold decryptContent UsesDevice
  cases device : fields.fromDeviceId with
  | none => simp
  | some id =>
    cases startsWith fields.rawContent groupEncryptedPrefixV2 <;>
      cases startsWith fields.rawContent groupEncryptedPrefixV1 <;>
      cases r.isGroupConversation fields.conversationId <;> cases looksEncrypted fields.rawContent <;> simp

theorem route_initialized (queued : Queueable json fields) :
    Receiver.route { r with isInitialized := true } json fields =
      if detectPlaintextGroup (r.conversation fields.conversationId)
          (startsWith fields.rawContent groupEncryptedPrefixV1) then .plaintext
      else .now := by
  have known : Receiver.conversation { r with isInitialized := true } fields.conversationId =
      r.conversation fields.conversationId := rfl
  simp only [route, queued.shown, queued.readable, queued.secret, known, Bool.false_and, Bool.or_false,
    Bool.false_eq_true, if_false, if_true]

theorem decryptContent_plaintext (group : detectPlaintextGroup (r.conversation fields.conversationId)
    (startsWith fields.rawContent groupEncryptedPrefixV1) = true) (device : Option Int) (messageId : Option String) :
    r.decryptContent fields.rawContent fields.fromUserId fields.conversationId device messageId =
        .plain fields.rawContent ↔
      startsWith fields.rawContent groupEncryptedPrefixV2 = false := by
  simp only [detectPlaintextGroup, Bool.and_eq_true, Bool.not_eq_true'] at group
  have isGroup : r.isGroupConversation fields.conversationId = true := group.1.1
  unfold decryptContent
  rw [group.2, isGroup]
  cases startsWith fields.rawContent groupEncryptedPrefixV2 <;> simp

theorem asLive_iff (queued : Queueable json fields) :
    AsLive dates r json (r.handed json fields none false) ↔ Unaffected r json := by
  have path := route_initialized (r := r) queued
  have device : _ ↔ fields.fromDeviceId = none ∨ ¬ r.UsesDevice fields := decryptContent_device_iff
  cases group : detectPlaintextGroup (r.conversation fields.conversationId)
      (startsWith fields.rawContent groupEncryptedPrefixV1) with
  | true =>
    rw [group, if_pos rfl] at path
    have shownRaw := decryptContent_plaintext group none fields.messageId
    have noDevice : ¬ startsWith fields.rawContent groupEncryptedPrefixV2 = true → ¬ r.UsesDevice fields := by
      intro unsigned uses
      simp only [detectPlaintextGroup, Bool.and_eq_true] at group
      rcases uses with signed | ⟨-, single, -⟩
      · exact unsigned signed
      · exact absurd (group.1.1.symm.trans single) (by decide)
    constructor
    · rintro ⟨read, isRead, same⟩ other isOther
      cases Option.some.inj (queued.read.symm.trans isRead)
      cases Option.some.inj (queued.read.symm.trans isOther)
      rw [path] at same
      have unsigned : ¬ startsWith fields.rawContent groupEncryptedPrefixV2 = true :=
        ne_true_of_eq_false (shownRaw.mp same.1)
      exact ⟨.inr (noDevice unsigned), fun both => unsigned both.2⟩
    · intro unaffected
      have unsigned : ¬ startsWith fields.rawContent groupEncryptedPrefixV2 = true :=
        fun signed => (unaffected fields queued.read).2 ⟨group, signed⟩
      have plain := shownRaw.mpr (eq_false_of_ne_true unsigned)
      refine ⟨fields, queued.read, ?_⟩
      rw [path]
      exact ⟨plain, plain_message queued.read plain⟩
  | false =>
    rw [group, if_neg (by decide)] at path
    have live := liveDelivery_eq (r := r) queued.read
    constructor
    · rintro ⟨read, isRead, same⟩ other isOther
      cases Option.some.inj (queued.read.symm.trans isRead)
      cases Option.some.inj (queued.read.symm.trans isOther)
      rw [path] at same
      obtain ⟨started, isLive, sameWork, -⟩ := same
      cases Option.some.inj (live.symm.trans isLive)
      exact ⟨device.mp sameWork, fun both => absurd (group.symm.trans both.1) (by decide)⟩
    · intro unaffected
      have sameWork := device.mpr (unaffected fields queued.read).1
      refine ⟨fields, queued.read, ?_⟩
      rw [path]
      exact ⟨_, live, sameWork, handed_message sameWork⟩

/- Over runs: whatever is in the queue has come through the handler. -/

theorem cacheMessage_pendingDecryptQueue (conversationId : String) (msg : ChatMessage) :
    (r.cacheMessage conversationId msg).pendingDecryptQueue = r.pendingDecryptQueue := by
  unfold cacheMessage
  split <;> rfl

theorem handleNewMessage_pendingDecryptQueue :
    (r.handleNewMessage dates platform json).pendingDecryptQueue = r.pendingDecryptQueue ∨
      (∃ fields, Queueable json fields) ∧
        (r.handleNewMessage dates platform json).pendingDecryptQueue =
          r.pendingDecryptQueue ++ [(r.userId, json)] := by
  unfold handleNewMessage
  cases read : readFields json with
  | none => exact .inl rfl
  | some fields =>
    cases path : r.route json fields with
    | system =>
      left
      simp only [path]
      cases translateSystemSentinel fields.rawContent r.userId with
      | none => rfl
      | some text => by_cases absent : fields.conversationId = "" <;> simp [absent]
    | undecryptable =>
      left
      simp only [path]
      cases fromServerJson dates (json.withContent "[Encrypted for another device of this account]") r.userId <;> rfl
    | plaintext =>
      left
      simp only [path]
      cases fromServerJson dates json r.userId with
      | none => rfl
      | some msg => exact cacheMessage_pendingDecryptQueue _ _
    | now =>
      left
      simp only [path]
      rfl
    | later =>
      simp only [path]
      cases fromServerJson dates (json.withContent "Securing message...") r.userId with
      | none => exact .inl rfl
      | some msg => exact .inr ⟨⟨fields, later_queueable read path⟩, rfl⟩

theorem drainLoop_spec (entries : List Frame) (readable : ∀ json ∈ entries, ∃ fields, Queueable json fields) :
    ∃ started, (r.drainLoop entries).deliveries = r.deliveries ++ started ∧
      (r.drainLoop entries).running = r.running ++ started ∧
      (r.drainLoop entries).pendingDecryptQueue = r.pendingDecryptQueue ∧
      List.Forall₂ (fun json d => ∃ fields, Queueable json fields ∧ d = r.handed json fields none false)
        entries started := by
  induction entries generalizing r with
  | nil => exact ⟨[], (List.append_nil _).symm, (List.append_nil _).symm, rfl, .nil⟩
  | cons json rest ih =>
    obtain ⟨fields, queued⟩ := readable json List.mem_cons_self
    obtain ⟨held, read, taken⟩ := drainDelivery_eq (r := r) queued.read
    have unfolded : r.drainLoop (json :: rest) =
        (r.start (some (r.handed json fields none false))).drainLoop rest := by
      simp only [drainLoop, read, taken]
    obtain ⟨started, deliveries, running, queue, each⟩ :=
      ih (r := r.start (some (r.handed json fields none false)))
        fun other later => readable other (List.mem_cons_of_mem _ later)
    rw [unfolded]
    refine ⟨r.handed json fields none false :: started, ?_, ?_, queue, .cons ⟨fields, queued, rfl⟩ each⟩
    · rw [deliveries]
      exact List.append_assoc _ [r.handed json fields none false] started
    · rw [running]
      exact List.append_assoc _ [r.handed json fields none false] started

def Holding (r : Receiver) : Prop := ∀ entry ∈ r.pendingDecryptQueue, ∃ fields, Queueable entry.2 fields

theorem owned_queueable (holding : r.Holding) : ∀ json ∈ r.owned, ∃ fields, Queueable json fields := by
  intro json owned
  obtain ⟨entry, queued, rfl⟩ := List.mem_map.mp owned
  exact holding entry (List.mem_filter.mp queued).1

theorem drain_spec (holding : r.Holding) :
    ∃ started, r.drainPendingDecryptQueue.deliveries = r.deliveries ++ started ∧
      r.drainPendingDecryptQueue.running = r.running ++ started ∧
      r.drainPendingDecryptQueue.pendingDecryptQueue = [] ∧
      List.Forall₂ (fun json d => ∃ fields, Queueable json fields ∧ d = r.handed json fields none false)
        r.owned started :=
  drainLoop_spec (r := { r with pendingDecryptQueue := [] }) r.owned (owned_queueable holding)

theorem step_holding (holding : r.Holding) (event : Event) : (r.step dates platform event).Holding := by
  cases event with
  | newMessage json =>
    have queue : (r.handleNewMessage dates platform json).pendingDecryptQueue = r.pendingDecryptQueue ∨ _ :=
      handleNewMessage_pendingDecryptQueue
    rcases queue with same | ⟨queueable, added⟩
    · intro entry queued
      exact holding entry (same ▸ queued)
    · intro entry queued
      rcases List.mem_append.mp (added ▸ queued) with old | new
      · exact holding entry old
      · rw [List.mem_singleton.mp new]
        exact queueable
  | drain =>
    obtain ⟨-, -, -, emptied, -⟩ := drain_spec holding
    intro entry queued
    exact nomatch emptied ▸ queued
  | finish k answer =>
    have same : (r.finish dates k answer).pendingDecryptQueue = r.pendingDecryptQueue := by
      unfold finish
      cases r.running[k]? with
      | none => rfl
      | some d =>
        cases made : d.message dates answer with
        | none => simp only [made]
        | some msg =>
          simp only [made]
          exact cacheMessage_pendingDecryptQueue _ _
    intro entry queued
    exact holding entry (same ▸ queued)
  | clearPendingDecryptQueue => exact fun entry queued => nomatch queued
  | initialized | conversations | sessions | signIn | store => exact holding

theorem run_holding (events : List Event) (holding : r.Holding) : (r.run dates platform events).Holding := by
  induction events generalizing r with
  | nil => exact holding
  | cons event rest ih => exact ih (step_holding holding event)

theorem handed_jsons {entries : List Frame} {started : List Delivery}
    (each : List.Forall₂ (fun json d => ∃ fields, Queueable json fields ∧ d = r.handed json fields none false)
      entries started) : started.map Delivery.json = entries := by
  induction each with
  | nil => rfl
  | cons handed _ ih =>
    obtain ⟨fields, -, rfl⟩ := handed
    rw [List.map_cons, ih]
    rfl

/-- Every queued frame of the signed-in user is started once, in order, and as the handler would
have started it exactly when it is unaffected by the device the drain leaves out. -/
theorem drain_asLive_iff (dates : Dates) (platform : Platform) (start : Receiver)
    (empty : start.pendingDecryptQueue = []) (events : List Event) :
    let r := start.run dates platform events
    ∃ started, r.drainPendingDecryptQueue.deliveries = r.deliveries ++ started ∧
      r.drainPendingDecryptQueue.running = r.running ++ started ∧
      r.drainPendingDecryptQueue.pendingDecryptQueue = [] ∧
      started.map Delivery.json = r.owned ∧
      List.Forall₂ (fun json d => AsLive dates r json d ↔ Unaffected r json) r.owned started := by
  intro r
  have holding : r.Holding := by
    refine run_holding events ?_
    intro entry queued
    rw [empty] at queued
    exact nomatch queued
  obtain ⟨started, deliveries, running, queue, each⟩ := drain_spec holding
  refine ⟨started, deliveries, running, queue, handed_jsons each, ?_⟩
  refine each.imp ?_
  rintro json d ⟨fields, queued, rfl⟩
  exact asLive_iff queued

def noDates : Dates := ⟨fun _ => none, "now"⟩

def fromSecondDevice : Frame
  | "content" => .str "AAAAAAAAAAAAAAAAAAAAAAAA"
  | "from_user_id" => .str "peer"
  | "from_device_id" => .int 2
  | "conversation_id" => .str "c"
  | "timestamp" => .str "t"
  | "from_username" => .str "peer"
  | "message_id" => .str "m"
  | _ => .null

def earlyFields : Fields := ⟨"AAAAAAAAAAAAAAAAAAAAAAAA", "peer", some 2, "c", "t", "peer", some "m"⟩

/-- It arrives before the keys, and then the sessions of that device are there. -/
def earlyMessage : List Event :=
  [.newMessage fromSecondDevice, .sessions fun slot => slot == ⟨"peer", some 2⟩, .initialized true]

theorem drain_on_other_slot : ¬ ∀ (dates : Dates) (platform : Platform) (start : Receiver),
    start.pendingDecryptQueue = [] → ∀ events : List Event,
      let r := start.run dates platform events
      ∃ started, r.drainPendingDecryptQueue.deliveries = r.deliveries ++ started ∧
        List.Forall₂ (AsLive dates r) r.owned started := by
  intro all
  obtain ⟨started, deliveries, each⟩ := all noDates stablePlatform { userId := "me" } rfl earlyMessage
  let r := Receiver.run noDates stablePlatform { userId := "me" } earlyMessage
  have drained : r.drainPendingDecryptQueue.deliveries.map Delivery.work =
      [.dm (.legacy "peer") "peer" "AAAAAAAAAAAAAAAAAAAAAAAA" none] := by decide +kernel
  have live : (r.liveDelivery fromSecondDevice earlyFields).map Delivery.work =
      some (.dm ⟨"peer", some 2⟩ "peer" "AAAAAAAAAAAAAAAAAAAAAAAA" (some 2)) := by decide +kernel
  have path : Receiver.route { r with isInitialized := true } fromSecondDevice earlyFields = .now := by decide +kernel
  have queued : r.owned = [fromSecondDevice] := rfl
  have nothing : r.deliveries = [] := rfl
  change r.drainPendingDecryptQueue.deliveries = r.deliveries ++ started at deliveries
  rw [deliveries, nothing, List.nil_append] at drained
  change List.Forall₂ (AsLive noDates r) r.owned started at each
  rw [queued] at each
  obtain ⟨d, rest, asLive, -, rfl⟩ := List.forall₂_cons_left_iff.mp each
  obtain ⟨other, read, same⟩ := asLive
  have known : earlyFields = other := Option.some.inj read
  rw [← known, path] at same
  obtain ⟨delivered, found, sameWork, -⟩ := same
  rw [found] at live
  have work := (List.cons.inj drained).1
  rw [sameWork, Option.some.inj live] at work
  exact absurd work (by decide)

/- The run above does start its frame, once. -/
theorem drain_asLive_early :
    ∃ started, (run noDates stablePlatform { userId := "me" } earlyMessage).drainPendingDecryptQueue.deliveries =
        (run noDates stablePlatform { userId := "me" } earlyMessage).deliveries ++ started ∧
      started.map Delivery.json = [fromSecondDevice] := by
  obtain ⟨started, deliveries, -, -, jsons, -⟩ :=
    drain_asLive_iff noDates stablePlatform { userId := "me" } rfl earlyMessage
  exact ⟨started, deliveries, jsons⟩

end Receiver
end Echo.Timeline
