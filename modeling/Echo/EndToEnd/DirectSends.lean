import Echo.Client.Trust
import Echo.EndToEnd.Wires
import Echo.Server.Validate

/-! A direct message as the client sends it, and the server's test of it. What the steps of the
encryption come to is all that decides. -/
namespace Echo.Client
open Echo.Lib Echo.Signal Echo.Server

variable {P : Primitives}

/-- What `encryptForAllDevices`, `encryptForOwnDevices`, the single ciphertext, the reset and the
ciphertext after it come to. -/
structure Encryptions where
  recipients : Except Thrown (List (Int × String))
  own : Except Thrown (List (Int × String))
  single : Except Thrown String
  reset : Except Thrown Unit
  again : Except Thrown String

namespace Encryptions

def fallback (e : Encryptions) : Except Thrown String :=
  match e.single with
  | .ok payload => .ok payload
  | .error _ =>
    match e.reset with
    | .error reason => .error reason
    | .ok _ => e.again

def payload (e : Encryptions) (myUserId : Option String) (toUserId : String) :
    Except Thrown (Option DeviceContents × String) :=
  match e.recipients, e.own with
  | .ok recipientContents, .ok selfContents =>
    .ok (some (buildDeviceContentsMap toUserId recipientContents myUserId selfContents),
      firstCiphertext recipientContents selfContents)
  | _, _ => e.fallback.map fun payload => (none, payload)

def outcome (e : Encryptions) (unready myUserId : Option String) (toUserId : String)
    (conversationId replyToId threadRootId : Option String) : SendOutcome :=
  match unready with
  | some reason => .uninitialized reason
  | none =>
    match e.payload myUserId toUserId with
    | .error reason => .failed reason
    | .ok (contents, payload) =>
      .emitted (sendMessageFrame toUserId payload contents conversationId replyToId threadRootId)

structure Shaped (e : Encryptions) : Prop where
  recipients : ∀ contents, e.recipients = .ok contents → ∀ c ∈ contents, isValidCiphertextShape c.2 = true
  own : ∀ contents, e.own = .ok contents → ∀ c ∈ contents, isValidCiphertextShape c.2 = true
  single : ∀ payload, e.single = .ok payload → isValidCiphertextShape payload = true
  again : ∀ payload, e.again = .ok payload → isValidCiphertextShape payload = true

end Encryptions

section Shapes
variable (keys : OwnKeys P)

theorem sessionEncrypt_yields (session : Nat) (plaintext : Bytes) :
    (sessionEncrypt (P := P) session plaintext).Yields fun wire => wire.take 4 = leBytes 4 40 := by
  refine Async.Yields.bind (.any _) fun s _ => ?_
  split
  · refine Async.Yields.bind (.any _) fun _ _ => Async.Yields.bind (.any _) fun s _ =>
      Async.Yields.bind (.any _) fun _ _ => Async.Yields.bind (.any _) fun result _ =>
      Async.Yields.bind (.any _) fun _ _ => Async.Yields.bind (.any _) fun ciphertext _ => .pure ?_
    rw [MessageHeader.serialize_length]
    exact List.take_left' (leBytes_length 4 40)
  · exact .throw _

theorem buildInitialWire_shape {wire : Bytes} (header : wire.take 4 = leBytes 4 40) (info : SessionInfo P) :
    isValidCiphertextShape (base64Encode (buildInitialWire keys wire info)) = true := by
  have decoded : base64Standard (base64Encode (buildInitialWire keys wire info)).toList =
      some (buildInitialWire keys wire info) := by
    rw [base64Encode, String.toList_ofList, base64Standard_chars]
  refine isValidCiphertextShape_iff.mpr ?_
  obtain ⟨session, x3dhResult, otpKeyId⟩ := info
  cases x3dhResult with
  | none =>
    refine ⟨.normal, ?_⟩
    have long : 4 ≤ wire.length := by
      have length := congrArg List.length header
      rw [List.length_take, leBytes_length] at length
      omega
    have whole : base64Standard (base64Encode wire).toList = some wire := decoded
    change shaped (base64Encode wire) .normal = true
    rw [shaped, whole, Option.any_some, hasNormalHeader, header, decide_eq_true long]
    decide
  | some x3dh =>
    cases otpKeyId with
    | none =>
      refine ⟨.initialV1, ?_⟩
      rw [shaped, decoded]
      rfl
    | some otpKeyId =>
      refine ⟨.initialV2, ?_⟩
      rw [shaped, decoded]
      rfl

abbrev IsCiphertext (text : String) : Prop := isValidCiphertextShape text = true

theorem encryptMessage_yields (peer plaintext : String) :
    (encryptMessage keys peer plaintext).Yields IsCiphertext := by
  refine Async.Yields.bind (.any _) fun _ _ => Async.Yields.ensuring ?_
  refine Async.Yields.bind (.any _) fun info _ => ?_
  have sealed : ∀ info : SessionInfo P, (do
      let wire ← sessionEncrypt info.session (utf8Bytes plaintext)
      pure (wire, info) : Dart P (Bytes × SessionInfo P)).Yields fun sent => sent.1.take 4 = leBytes 4 40 :=
    fun info => Async.Yields.bind (sessionEncrypt_yields _ _) fun wire header => .pure header
  refine Async.Yields.bind (Async.Yields.catching ?_ fun e => ?_) fun sent (header : sent.1.take 4 = leBytes 4 40) => ?_
  · dsimp only
    split
    · exact Async.Yields.bind (.any _) fun _ _ => sealed info
    · exact sealed info
  · exact Async.Yields.bind (.any _) fun _ _ => Async.Yields.bind (.any _) fun _ _ =>
      Async.Yields.bind (.any _) fun info _ => sealed info
  · refine Async.Yields.bind (.any _) fun _ _ => Async.Yields.bind (.any _) fun _ _ =>
      Async.Yields.bind (.any _) fun _ _ => Async.Yields.bind (.any _) fun _ _ => .pure ?_
    exact buildInitialWire_shape keys header sent.2

theorem encryptForDevice_yields (peer : String) (deviceId : Int) (bundle : Bundle) (plaintext : String) :
    (encryptForDevice keys peer deviceId bundle plaintext).Yields IsCiphertext := by
  refine Async.Yields.bind (.any _) fun info _ => ?_
  have sent : (do
      let wire ← sessionEncrypt info.session (utf8Bytes plaintext)
      pause
      let finalWire := buildInitialWire keys wire info
      saveSession ⟨peer, some deviceId⟩ info.session
      ask (.put ⟨peer, some deviceId⟩ info.session)
      ask (.handOut ⟨peer, some deviceId⟩ plaintext finalWire)
      pure (base64Encode finalWire) : Dart P String).Yields IsCiphertext := by
    refine Async.Yields.bind (sessionEncrypt_yields _ _) fun wire header => ?_
    refine Async.Yields.bind (.any _) fun _ _ => Async.Yields.bind (.any _) fun _ _ =>
      Async.Yields.bind (.any _) fun _ _ => Async.Yields.bind (.any _) fun _ _ => .pure ?_
    exact buildInitialWire_shape keys header info
  dsimp only
  split
  · exact Async.Yields.bind (.any _) fun _ _ => sent
  · exact sent

abbrev AreCiphertexts (contents : List (Int × String)) : Prop := ∀ c ∈ contents, IsCiphertext c.2

theorem setResult_shape {results : List (Int × String)} (shaped : AreCiphertexts results) {ct : String}
    (shape : IsCiphertext ct) (deviceId : Int) : AreCiphertexts (setResult results deviceId ct) := by
  unfold setResult
  split
  · intro c inside
    obtain ⟨c', there, rfl⟩ := List.mem_map.mp inside
    split
    · exact shape
    · exact shaped c' there
  · intro c inside
    rcases List.mem_append.mp inside with old | new
    · exact shaped c old
    · rw [List.mem_singleton.mp new]
      exact shape

theorem encryptForBundles_yields (peer plaintext : String) (skips : Int → Bool) (bundles : List Bundle)
    {results : List (Int × String)} (shaped : AreCiphertexts results) :
    (encryptForBundles keys peer plaintext skips bundles results).Yields AreCiphertexts := by
  induction bundles generalizing results with
  | nil => exact .pure shaped
  | cons bundle bundles ih =>
    refine Async.Yields.bind (.any _) fun deviceId _ => ?_
    split
    · exact ih shaped
    · refine Async.Yields.bind (Async.Yields.catching ?_ fun e => .pure ?_)
        fun ct (shape : ∀ text, ct = some text → IsCiphertext text) => ih ?_
      · refine Async.Yields.bind (Async.Yields.bind (.any _) fun _ _ =>
          Async.Yields.ensuring (encryptForDevice_yields keys peer deviceId bundle plaintext)) fun ct shape => .pure ?_
        intro text same
        cases same
        exact shape
      · exact nofun
      · cases ct with
        | none => exact shaped
        | some ct => exact setResult_shape shaped (shape ct rfl) deviceId

theorem encryptForAllDevices_yields (peer plaintext : String) :
    (encryptForAllDevices keys peer plaintext).Yields AreCiphertexts := by
  refine Async.Yields.bind (.any _) fun _ _ => Async.Yields.bind (.any _) fun bundles _ => ?_
  split
  · refine Async.Yields.bind (encryptMessage_yields keys peer plaintext) fun ct shape => .pure ?_
    intro c inside
    rw [List.mem_singleton.mp inside]
    exact shape
  · exact encryptForBundles_yields keys peer plaintext _ bundles nofun

theorem encryptForSelf_yields (myUserId : Option String) (content : String) :
    (encryptForSelf keys myUserId content).Yields AreCiphertexts := by
  unfold encryptForSelf
  split
  · exact .pure nofun
  · split
    · exact .pure nofun
    · refine Async.Yields.catching ?_ fun e => .pure nofun
      refine Async.Yields.bind (.any _) fun _ _ => Async.Yields.bind (.any _) fun bundles _ => ?_
      exact encryptForBundles_yields keys _ content _ bundles nofun

end Shapes
end Echo.Client

namespace Echo.EndToEnd
open Echo.Lib Echo.Signal Echo.Client Echo.Server

variable {P : Primitives}

section Steps
variable (keys : OwnKeys P) (toUserId content : String)

theorem encryptMessageFallback_steps :
    (encryptMessageFallback keys toUserId content).Returns fun r => ∃ single reset again,
      (∀ payload, single = .ok payload → IsCiphertext payload) ∧
      (∀ payload, again = .ok payload → IsCiphertext payload) ∧
      ∀ recipients own, r = .ok
        ((Encryptions.fallback ⟨recipients, own, single, reset, again⟩).map fun payload => (none, payload)) := by
  have wrapped : (do
      let fallbackPayload ← encryptMessage keys toUserId content
      pure (.ok (none, fallbackPayload)) : Dart P (Except Thrown (Option Client.DeviceContents × String))).Yields
        fun sent => ∃ payload, sent = .ok (none, payload) ∧ IsCiphertext payload :=
    Async.Yields.bind (encryptMessage_yields keys toUserId content) fun payload shape => .pure ⟨payload, rfl, shape⟩
  refine Async.Returns.catching wrapped (fun sent fine => ?_) fun e _ => ?_
  · obtain ⟨payload, rfl, shape⟩ := fine sent rfl
    refine ⟨.ok payload, .ok (), .ok payload, ?_, ?_, fun _ _ => rfl⟩
    · rintro _ ⟨⟩
      exact shape
    · rintro _ ⟨⟩
      exact shape
  · have retried : (do
        invalidateSessionKey toUserId
        let fallbackPayload ← encryptMessage keys toUserId content
        pure (.ok (none, fallbackPayload)) : Dart P (Except Thrown (Option Client.DeviceContents × String))).Yields
          fun sent => ∃ payload, sent = .ok (none, payload) ∧ IsCiphertext payload :=
      Async.Yields.bind (.any _) fun _ _ => wrapped
    refine Async.Returns.catching retried (fun sent fine => ?_) fun e' _ => ?_
    · obtain ⟨payload, rfl, shape⟩ := fine sent rfl
      refine ⟨.error e, .ok (), .ok payload, nofun, ?_, fun _ _ => rfl⟩
      rintro _ ⟨⟩
      exact shape
    · exact ⟨.error e, .error e', .error e', nofun, nofun, fun _ _ => rfl⟩

theorem encryptMessageForSend_steps (myUserId : Option String) :
    (encryptMessageForSend keys myUserId toUserId content).Returns fun r =>
      ∃ e : Encryptions, e.Shaped ∧ r = .ok (e.payload myUserId toUserId) := by
  have everyone : (do
      let recipientContents ← encryptForAllDevices keys toUserId content
      let selfContents ← encryptForSelf keys myUserId content
      pure (.ok (some (buildDeviceContentsMap toUserId recipientContents myUserId selfContents),
        firstCiphertext recipientContents selfContents)) :
      Dart P (Except Thrown (Option Client.DeviceContents × String))).Returns fun r => ∃ recipients own,
        (∀ contents, recipients = .ok contents → AreCiphertexts contents) ∧
        (∀ contents, own = .ok contents → AreCiphertexts contents) ∧
        ∀ single reset again, (Encryptions.mk recipients own single reset again).payload myUserId toUserId =
          match r with
          | .ok sent => sent
          | .error _ => (Encryptions.fallback ⟨recipients, own, single, reset, again⟩).map fun payload => (none, payload) := by
    refine Async.Returns.bind (encryptForAllDevices_yields keys toUserId content) (fun recipientContents shape => ?_)
      fun e _ => ⟨.error e, .ok [], nofun, ?_, fun _ _ _ => rfl⟩
    · refine Async.Returns.bind (encryptForSelf_yields keys myUserId content) (fun selfContents shape' => ?_)
        fun e _ => ⟨.ok recipientContents, .error e, ?_, nofun, fun _ _ _ => rfl⟩
      · refine ⟨.ok recipientContents, .ok selfContents, ?_, ?_, fun _ _ _ => rfl⟩
        · rintro _ ⟨⟩
          exact shape _ rfl
        · rintro _ ⟨⟩
          exact shape' _ rfl
      · rintro _ ⟨⟩
        exact shape _ rfl
    · rintro _ ⟨⟩
      exact nofun
  refine Async.Returns.catching everyone (fun sent fine => ?_) fun e failed => ?_
  · obtain ⟨recipients, own, shape, shape', same⟩ := fine
    exact ⟨⟨recipients, own, .error .format, .ok (), .error .format⟩, ⟨shape, shape', nofun, nofun⟩,
      congrArg Except.ok (same _ _ _).symm⟩
  · obtain ⟨recipients, own, shape, shape', same⟩ := failed
    refine Async.Returns.mono (encryptMessageFallback_steps keys toUserId content) fun r => ?_
    rintro ⟨single, reset, again, first, last, sent⟩
    refine ⟨⟨recipients, own, single, reset, again⟩, ⟨shape, shape', first, last⟩, ?_⟩
    rw [same]
    exact sent recipients own

theorem sendDmMessage_steps (unready myUserId conversationId replyToId threadRootId : Option String) :
    (sendDmMessage keys unready myUserId toUserId content conversationId replyToId threadRootId).Returns fun r =>
      ∃ e : Encryptions, e.Shaped ∧
        r = .ok (e.outcome unready myUserId toUserId conversationId replyToId threadRootId) := by
  unfold sendDmMessage
  cases unready with
  | some reason => exact ⟨⟨.ok [], .ok [], .error .format, .ok (), .error .format⟩,
      ⟨by rintro _ ⟨⟩; exact nofun, by rintro _ ⟨⟩; exact nofun, nofun, nofun⟩, rfl⟩
  | none =>
    refine Async.Returns.bind (encryptMessageForSend_steps keys toUserId content myUserId) (fun sent made => ?_)
      fun e made => ?_
    · obtain ⟨e, shaped, same⟩ := made
      have outcome : e.outcome none myUserId toUserId conversationId replyToId threadRootId =
          match sent with
          | .error reason => .failed reason
          | .ok (contents, payload) =>
            .emitted (sendMessageFrame toUserId payload contents conversationId replyToId threadRootId) := by
        have payload : e.payload myUserId toUserId = sent := (Except.ok.inj same).symm
        simp only [Encryptions.outcome, payload]
        cases sent <;> rfl
      cases sent with
      | error reason => exact ⟨e, shaped, congrArg Except.ok outcome.symm⟩
      | ok sent => exact ⟨e, shaped, congrArg Except.ok outcome.symm⟩
    · obtain ⟨e, -, same⟩ := made
      cases same

end Steps

section Gate

def deviceTexts (contents : List (Int × String)) : LinkedMap String String :=
  contents.foldl (fun m c => m.insert (toString c.1) c.2) .empty

def onWire (contents : Client.DeviceContents) : RecipientDeviceContents where
  entries := contents.entries.map fun e => (e.1, deviceTexts e.2)
  nodup := by
    rw [List.map_map]
    exact contents.nodup

def recipientDeviceContents (frame : SendFrame) : Option RecipientDeviceContents :=
  if frame.recipientDeviceContents.entries.isEmpty then none else some (onWire frame.recipientDeviceContents)

def Accepted (F : UuidFormat) (senderId : Uuid) (members : List Uuid) (frame : SendFrame) : Prop :=
  encryptedPayloadValid .direct frame.content (recipientDeviceContents frame) = true ∧
    ∀ rdc ∈ recipientDeviceContents frame, includesPeers F senderId members rdc = true

/-- A message shown as failed, with the text to retry; the reason it shows is left out. -/
structure FailedMessage where
  conversationId : String
  failedContent : Option String

def frames : SendOutcome → List SendFrame
  | .emitted frame => [frame]
  | _ => []

def failures (content : String) (conversationId : Option String) : SendOutcome → List FailedMessage
  | .emitted _ => []
  | _ => [⟨conversationId.getD "", some content⟩]

/-- No frame and one failed message with the text, or one frame that is accepted. -/
def Settled (F : UuidFormat) (senderId : Uuid) (members : List Uuid) (content : String)
    (conversationId : Option String) (outcome : SendOutcome) : Prop :=
  (frames outcome = [] ∧ ∃ m, failures content conversationId outcome = [m] ∧ m.failedContent = some content) ∨
    failures content conversationId outcome = [] ∧ ∃ frame, frames outcome = [frame] ∧ Accepted F senderId members frame

/-- A conversation of the sender and the peer, as the client knows both. -/
structure Between (F : UuidFormat) (senderId peer : Uuid) (members : List Uuid) (myUserId : Option String)
    (toUserId : String) : Prop where
  members : ∀ m, m ∈ members ↔ m = senderId ∨ m = peer
  apart : peer ≠ senderId
  named : F.text peer = toUserId
  mine : ∀ me, myUserId = some me → me.isEmpty = false → me = F.text senderId

/-- The device lists were encrypted for, and the peer's with success; or everything failed. -/
def Delivers (unready : Option String) (e : Encryptions) : Prop :=
  unready.isSome = true ∨ (∃ recipientContents selfContents, e.recipients = .ok recipientContents ∧
      e.own = .ok selfContents ∧ recipientContents ≠ []) ∨
    (¬ ∃ recipientContents selfContents, e.recipients = .ok recipientContents ∧ e.own = .ok selfContents) ∧
      ∃ reason, e.fallback = .error reason

variable {F : UuidFormat} {senderId peer : Uuid} {members : List Uuid} {myUserId : Option String} {toUserId : String}

theorem mem_deviceTexts {contents : List (Int × String)} {p : String × String}
    (inside : p ∈ (deviceTexts contents).entries) : ∃ c ∈ contents, c.2 = p.2 := by
  have fold : ∀ (contents : List (Int × String)) (m : LinkedMap String String),
      p ∈ (contents.foldl (fun m c => m.insert (toString c.1) c.2) m).entries →
        p ∈ m.entries ∨ ∃ c ∈ contents, c.2 = p.2 := by
    intro contents
    induction contents with
    | nil => exact fun m there => .inl there
    | cons first contents ih =>
      intro m there
      rcases ih _ there with here | ⟨c, later, same⟩
      · simp only [LinkedMap.insert, List.mem_append, List.mem_singleton] at here
        rcases here with old | new
        · exact .inl (List.mem_of_mem_filter old)
        · exact .inr ⟨first, List.mem_cons_self, congrArg Prod.snd new.symm⟩
      · exact .inr ⟨c, List.mem_cons_of_mem _ later, same⟩
  exact (fold contents .empty inside).resolve_left List.not_mem_nil

theorem deviceTexts_nonempty {contents : List (Int × String)} (some' : contents ≠ []) :
    (deviceTexts contents).entries ≠ [] := by
  obtain ⟨front, last, rfl⟩ := List.eq_nil_or_concat contents |>.resolve_left some'
  simp [deviceTexts, LinkedMap.insert]

variable {recipientContents selfContents : List (Int × String)}

theorem mem_buildDeviceContentsMap
    {p : String × List (Int × String)}
    (inside : p ∈ (buildDeviceContentsMap toUserId recipientContents myUserId selfContents).entries) :
    p = (toUserId, recipientContents) ∧ recipientContents ≠ [] ∨
      (myUserId = some p.1 ∧ p.1.isEmpty = false) ∧ p.2 = selfContents ∧ selfContents ≠ [] := by
  have recipient : p ∈ (if recipientContents.isEmpty then LinkedMap.empty
      else LinkedMap.empty.insert toUserId recipientContents : Client.DeviceContents).entries →
        p = (toUserId, recipientContents) ∧ recipientContents ≠ [] := by
    intro there
    split at there
    · cases there
    · next some' => exact ⟨List.mem_singleton.mp there, fun none => some' (by rw [none]; rfl)⟩
  unfold buildDeviceContentsMap at inside
  cases myUserId with
  | none => exact .inl (recipient inside)
  | some me =>
    simp only at inside
    split at inside
    · exact .inl (recipient inside)
    · next known =>
      rw [Bool.or_eq_true, not_or] at known
      simp only [LinkedMap.insert, List.mem_append, List.mem_singleton] at inside
      rcases inside with old | rfl
      · exact .inl (recipient (List.mem_of_mem_filter old))
      · refine .inr ⟨⟨rfl, eq_false_of_ne_true known.2⟩, rfl, fun none => known.1 ?_⟩
        rw [none]
        rfl

theorem find_buildDeviceContentsMap
    (some' : recipientContents ≠ []) (apart : myUserId = some toUserId → toUserId.isEmpty = true) :
    (buildDeviceContentsMap toUserId recipientContents myUserId selfContents).find toUserId =
      some recipientContents := by
  have first : (if recipientContents.isEmpty then LinkedMap.empty
      else LinkedMap.empty.insert toUserId recipientContents : Client.DeviceContents).find toUserId =
        some recipientContents := by
    rw [if_neg fun none => some' (List.isEmpty_iff.mp none)]
    exact LinkedMap.find_insert_self ..
  unfold buildDeviceContentsMap
  cases myUserId with
  | none => exact first
  | some me =>
    simp only
    split
    · exact first
    · next known =>
      rw [LinkedMap.find_insert, first]
      rintro rfl
      exact known (Bool.or_eq_true_iff.mpr (.inr (apart rfl)))

theorem find_onWire {contents : Client.DeviceContents} {user : String} :
    ((onWire contents).find user).isSome = (contents.find user).isSome := by
  rw [Bool.eq_iff_iff, LinkedMap.find_isSome, LinkedMap.find_isSome]
  simp [onWire]

theorem Between.unlike (between : Between F senderId peer members myUserId toUserId)
    (mine : myUserId = some toUserId) : toUserId.isEmpty = true := by
  refine Classical.byContradiction fun known => between.apart ?_
  have same := between.mine toUserId mine (eq_false_of_ne_true known)
  rw [← between.named] at same
  exact Option.some.inj ((F.parse_text peer).symm.trans ((congrArg F.parse same).trans (F.parse_text senderId)))

theorem firstCiphertext_shape
    (shape : AreCiphertexts recipientContents) (some' : recipientContents ≠ []) :
    IsCiphertext (firstCiphertext recipientContents selfContents) := by
  cases recipientContents with
  | nil => exact (some' rfl).elim
  | cons first rest => exact shape first List.mem_cons_self

theorem accepted_delivered (between : Between F senderId peer members myUserId toUserId)
    (shape : AreCiphertexts recipientContents)
    (shape' : AreCiphertexts selfContents) (some' : recipientContents ≠ [])
    (conversationId replyToId threadRootId : Option String) :
    Accepted F senderId members (sendMessageFrame toUserId (firstCiphertext recipientContents selfContents)
      (some (buildDeviceContentsMap toUserId recipientContents myUserId selfContents)) conversationId replyToId
      threadRootId) := by
  let contents := buildDeviceContentsMap toUserId recipientContents myUserId selfContents
  have found : contents.find toUserId = some recipientContents := find_buildDeviceContentsMap some' between.unlike
  have filled : contents.entries.isEmpty = false :=
    List.isEmpty_eq_false_iff_exists_mem.mpr ⟨_, LinkedMap.find_eq_some.mp found⟩
  have present : recipientDeviceContents (sendMessageFrame toUserId (firstCiphertext recipientContents selfContents)
      (some contents) conversationId replyToId threadRootId) = some (onWire contents) := by
    change (if contents.entries.isEmpty = true then none else some (onWire contents)) = _
    rw [filled]
    rfl
  have perDevice : perDeviceCiphertextsValid (onWire contents) = true := by
    refine List.all_eq_true.mpr fun p inside => ?_
    obtain ⟨e, there, rfl⟩ := List.mem_map.mp inside
    have both : e.2 ≠ [] ∧ AreCiphertexts e.2 := by
      rcases mem_buildDeviceContentsMap there with ⟨rfl, full⟩ | ⟨-, own, full⟩
      · exact ⟨full, shape⟩
      · rw [own]
        exact ⟨full, shape'⟩
    refine Bool.and_eq_true_iff.mpr ⟨?_, List.all_eq_true.mpr fun q device => ?_⟩
    · rw [Bool.not_eq_true', List.isEmpty_eq_false_iff]
      exact deviceTexts_nonempty both.1
    · obtain ⟨c, listed, same⟩ := mem_deviceTexts device
      change isValidCiphertextShape q.2 = true
      rw [← same]
      exact both.2 c listed
  refine ⟨?_, fun rdc here => ?_⟩
  · rw [present]
    change (isValidCiphertextShape (firstCiphertext recipientContents selfContents) &&
      (!(onWire contents).entries.isEmpty && perDeviceCiphertextsValid (onWire contents))) = true
    rw [firstCiphertext_shape shape some', perDevice]
    simpa [onWire] using filled
  · rw [present] at here
    cases here
    refine List.all_eq_true.mpr fun m member => ?_
    rcases (between.members m).mp member with rfl | rfl
    · simp
    · rw [find_onWire, between.named, found]
      simp

theorem rejected_without (between : Between F senderId peer members myUserId toUserId) {frame : SendFrame}
    (missing : frame.recipientDeviceContents.find toUserId = none) : ¬ Accepted F senderId members frame := by
  rintro ⟨valid, includes⟩
  cases present : recipientDeviceContents frame with
  | none =>
    rw [present] at valid
    simp [encryptedPayloadValid] at valid
  | some rdc =>
    have wire : rdc = onWire frame.recipientDeviceContents := by
      unfold recipientDeviceContents at present
      split at present
      · cases present
      · exact (Option.some.inj present).symm
    have all := List.all_eq_true.mp (includes rdc present) peer ((between.members peer).mpr (.inr rfl))
    rw [wire, find_onWire, between.named, missing] at all
    simp [between.apart] at all

theorem delivers_iff (between : Between F senderId peer members myUserId toUserId) {e : Encryptions}
    (shaped : e.Shaped) (content : String) (unready conversationId replyToId threadRootId : Option String) :
    Settled F senderId members content conversationId
        (e.outcome unready myUserId toUserId conversationId replyToId threadRootId) ↔ Delivers unready e := by
  have failed : ∀ outcome, frames outcome = [] → Settled F senderId members content conversationId outcome := by
    intro outcome none
    cases outcome with
    | emitted frame => cases none
    | failed | uninitialized => exact .inl ⟨rfl, _, rfl, rfl⟩
  have emitted : ∀ frame, Settled F senderId members content conversationId (.emitted frame) ↔
      Accepted F senderId members frame := by
    intro frame
    constructor
    · rintro (⟨none, -⟩ | ⟨-, frame', same, accepted⟩)
      · cases none
      · cases same
        exact accepted
    · exact fun accepted => .inr ⟨rfl, frame, rfl, accepted⟩
  cases unready with
  | some reason => exact iff_of_true (failed _ rfl) (.inl rfl)
  | none =>
    cases lists : e.payload myUserId toUserId with
    | error reason =>
      have outcome : e.outcome none myUserId toUserId conversationId replyToId threadRootId = .failed reason := by
        simp only [Encryptions.outcome, lists]
      rw [outcome]
      refine iff_of_true (failed _ rfl) (.inr (.inr ?_))
      unfold Encryptions.payload at lists
      split at lists
      · cases lists
      · next other =>
        refine ⟨fun ⟨rc, sc, first, second⟩ => other rc sc first second, ?_⟩
        cases back : e.fallback with
        | error reason => exact ⟨reason, rfl⟩
        | ok payload =>
          rw [back] at lists
          cases lists
    | ok sent =>
      obtain ⟨contents, payload⟩ := sent
      have outcome : e.outcome none myUserId toUserId conversationId replyToId threadRootId =
          .emitted (sendMessageFrame toUserId payload contents conversationId replyToId threadRootId) := by
        simp only [Encryptions.outcome, lists]
      rw [outcome, emitted]
      unfold Encryptions.payload at lists
      split at lists
      · next recipientContents selfContents first second =>
        cases lists
        by_cases empty : recipientContents = []
        · refine iff_of_false (rejected_without between ?_) ?_
          · subst empty
            cases found : (buildDeviceContentsMap toUserId [] myUserId selfContents).find toUserId with
            | none => exact found
            | some devices =>
              rcases mem_buildDeviceContentsMap (LinkedMap.find_eq_some.mp found) with ⟨-, full⟩ | ⟨⟨mine, known⟩, -⟩
              · exact (full rfl).elim
              · rw [between.unlike mine] at known
                cases known
          · rintro (ready | ⟨rc, sc, same, -, full⟩ | ⟨none, -⟩)
            · cases ready
            · rw [first] at same
              cases same
              exact full empty
            · exact none ⟨_, _, first, second⟩
        · refine iff_of_true ?_ (.inr (.inl ⟨_, _, first, second, empty⟩))
          exact accepted_delivered between (shaped.recipients _ first) (shaped.own _ second) empty _ _ _
      · next other =>
        cases back : e.fallback with
        | error reason =>
          rw [back] at lists
          cases lists
        | ok single =>
          rw [back] at lists
          cases lists
          refine iff_of_false (rejected_without between rfl) ?_
          rintro (ready | ⟨rc, sc, first, second, -⟩ | ⟨-, reason, failed⟩)
          · cases ready
          · exact other rc sc first second
          · rw [back] at failed
            cases failed

/-- What a send comes to is settled by its steps: they reach the peer, or nothing is sent. -/
theorem direct_send_settled_iff (keys : OwnKeys P)
    (between : Between F senderId peer members myUserId toUserId) (content : String)
    (unready conversationId replyToId threadRootId : Option String) :
    ((sendDmMessage keys unready myUserId toUserId content conversationId replyToId threadRootId).Returns fun r =>
      ∃ e : Encryptions, e.Shaped ∧
        r = .ok (e.outcome unready myUserId toUserId conversationId replyToId threadRootId)) ∧
      ∀ e : Encryptions, e.Shaped →
        (Settled F senderId members content conversationId
          (e.outcome unready myUserId toUserId conversationId replyToId threadRootId) ↔ Delivers unready e) :=
  ⟨sendDmMessage_steps keys toUserId content unready myUserId conversationId replyToId threadRootId,
    fun _ shaped => delivers_iff between shaped content unready conversationId replyToId threadRootId⟩

def namedFormat : UuidFormat where
  text id := if id = 3 then "bob" else String.ofList (List.replicate (id + 4) 'x')
  parse text := if text = "bob" then some 3 else some (text.length - 4)
  parse_text id := by
    by_cases named : id = 3
    · simp [named]
    · have long : String.ofList (List.replicate (id + 4) 'x') ≠ "bob" := by
        intro same
        have length := congrArg List.length (String.ofList_injective (same.trans (show "bob" = String.ofList
          ['b', 'o', 'b'] from rfl)))
        rw [List.length_replicate] at length
        cases length
      simp [named, long]

theorem between_bob : Between namedFormat 2 3 [2, 3] none "bob" where
  members := by simp
  apart := by decide
  named := rfl
  mine := nofun

def unreachable : Encryptions := ⟨.error .format, .ok [], .error .format, .error .format, .error .format⟩

theorem direct_send_settled_unreachable :
    Settled namedFormat 2 [2, 3] "hi" none (unreachable.outcome none none "bob" none none none) := by
  have shaped : unreachable.Shaped := by
    refine ⟨nofun, ?_, nofun, nofun⟩
    rintro _ ⟨⟩
    exact nofun
  exact ((direct_send_settled_iff sampleKeys between_bob "hi" none none none none).2 _ shaped).mpr
    (.inr (.inr ⟨nofun, .format, rfl⟩))

def unmapped : Dart .counting SendOutcome × Service .counting → Bool
  | (.done (.ok (.emitted frame)), _) => frame.recipientDeviceContents.entries.isEmpty
  | _ => false

/-- The bundle list fails, the single ciphertext after the reset goes out without a map. -/
theorem direct_send_without_map : Between namedFormat 2 3 [2, 3] none "bob" ∧ ∃ outcome c',
    (sendDmMessage sampleKeys none none "bob" "hi" none none none).exec (rekeyed true) = (.done (.ok outcome), c') ∧
      ¬ Settled namedFormat 2 [2, 3] "hi" none outcome := by
  refine ⟨between_bob, ?_⟩
  have outcome : unmapped ((sendDmMessage sampleKeys none none "bob" "hi" none none none).exec (rekeyed true)) = true := by
    decide +kernel
  unfold unmapped at outcome
  split at outcome
  · rename_i frame c' ran
    refine ⟨.emitted frame, c', ran, ?_⟩
    rintro (⟨none, -⟩ | ⟨-, frame', same, accepted, -⟩)
    · cases none
    · cases same
      rw [recipientDeviceContents, if_pos outcome, encryptedPayloadValid] at accepted
      simp at accepted
  · cases outcome

end Gate
end Echo.EndToEnd
