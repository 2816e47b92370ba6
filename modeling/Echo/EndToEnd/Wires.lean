import Echo.Client.GroupCrypto
import Echo.Server.Shape

/-! What one client writes, the server lets through and the other client reads the same way. -/
namespace Echo.Client
open Echo.Lib Echo.Signal

variable {P : Primitives}

section Writing

theorem MessageHeader.serialize_length (h : MessageHeader) : h.serialize.length = 40 := by
  simp [MessageHeader.serialize]

theorem SignalSession.encrypt_wire {s after : SignalSession P} {nonce : Block 12} {plaintext wire : Bytes}
    (made : s.encrypt nonce plaintext = (.ok wire, after)) :
    ∃ rest, wire = leBytes 4 40 ++ rest ∧ 52 ≤ rest.length := by
  unfold SignalSession.encrypt at made
  split at made
  · simp only at made
    split at made
    · rename_i ciphertext sealed
      obtain ⟨wrote, -⟩ := Prod.mk.inj made
      have nonced : 12 ≤ ciphertext.length := by
        unfold encryptWithAd at sealed
        split at sealed
        · contradiction
        · cases sealed
          rw [List.length_append, List.Vector.toList_length]
          omega
      rw [MessageHeader.serialize_length] at wrote
      refine ⟨_, (Except.ok.inj wrote).symm, ?_⟩
      rw [List.length_append, MessageHeader.serialize_length]
      omega
    · cases made
  · cases made

def SessionInfo.wireClass (info : SessionInfo P) : WireClass :=
  match info.x3dhResult, info.otpKeyId with
  | none, _ => .normal
  | some _, some _ => .initialV2
  | some _, none => .initialV1

end Writing

section Reading

/-- What `_decryptInitialMessage` takes out of the wire. -/
structure InitialFields where
  identity : Bytes
  ephemeral : Bytes
  otpKeyId : Option Int
  sessionWire : Bytes

def initialFields (fullWire : Bytes) (v2 : Bool) : InitialFields where
  identity := (fullWire.drop 2).take 32
  ephemeral := (fullWire.drop 34).take 32
  otpKeyId := if v2 then some (int32OfBytes ((fullWire.drop 66).take 4)) else none
  sessionWire := fullWire.drop (if v2 then 70 else 66)

def loadOtp (fields : InitialFields) : Dart P (Option P.Secret × Bytes) :=
  match fields.otpKeyId with
  | none => pure (none, fields.sessionWire)
  | some otpKeyId => do
    let value ← ask (.readOtp otpKeyId)
    pause
    match ← returned value with
    | some bobOtp => pure (some bobOtp, fields.sessionWire)
    | none =>
      throw (.exception ("OTP key_id=" ++ toString otpKeyId ++ " not found. " ++
        "Ask the sender to resend the message."))

/-- `_decryptInitialMessage` after the wire is cut up. -/
def acceptInitial (keys : OwnKeys P) (fields : InitialFields) (slot : Slot) (peer : String)
    (fromDeviceId : Option Int) : Dart P String := do
  clearStaleSession slot peer fromDeviceId
  let (bobOtp, sessionWire) ← loadOtp fields
  storePeerIdentityKeyTofu peer (base64Encode fields.identity)
  let aliceIdentityPub ← x25519Key fields.identity
  let aliceEphemeralPub ← x25519Key fields.ephemeral
  let (sharedSecret, prekeyToUse) ← computeX3dhResponse keys bobOtp aliceIdentityPub aliceEphemeralPub
  let session ← ask (.new (SignalSession.initBob sharedSecret prekeyToUse))
  pause
  let plainBytes ← Async.catching (sessionDecrypt session sessionWire) fun _ =>
    throw (.initialDecryptFailed peer)
  ask (.put slot session)
  saveSession slot session
  if bobOtp.isSome then
    ask (.deleteOtp (fields.otpKeyId.getD 0))
    pause
  utf8Decoded plainBytes

theorem decryptInitialMessage_fields (keys : OwnKeys P) (fullWire : Bytes) (v2 : Bool) (slot : Slot)
    (peer : String) (fromDeviceId : Option Int) :
    decryptInitialMessage keys fullWire v2 slot peer fromDeviceId =
      acceptInitial keys (initialFields fullWire v2) slot peer fromDeviceId := by
  cases v2 with
  | true | false => rfl

end Reading

section Classes

variable {text : String}

theorem startsWith_iff {lead : String} :
    startsWith text lead = true ↔ ∃ rest, text.toList = lead.toList ++ rest := by
  rw [startsWith, List.isPrefixOf_iff_prefix]
  constructor
  · intro ⟨rest, joined⟩
    exact ⟨rest, joined.symm⟩
  · intro ⟨rest, joined⟩
    exact ⟨rest, joined.symm⟩

theorem startsWith_append (lead body : String) : startsWith (lead ++ body) lead = true :=
  startsWith_iff.mpr ⟨body.toList, String.toList_append⟩

theorem substring_append (lead body : String) : substring (lead ++ body) lead.length = body := by
  rw [substring, String.toList_append, List.drop_left' String.length_toList, String.ofList_toList]

theorem grp_apart (grp1 : startsWith text groupEncryptedPrefixV1 = true)
    (grp2 : startsWith text groupEncryptedPrefixV2 = true) : False := by
  obtain ⟨rest, first⟩ := startsWith_iff.mp grp1
  obtain ⟨rest', second⟩ := startsWith_iff.mp grp2
  rw [first] at second
  cases second

theorem grp1_not_base64 (grp1 : startsWith text groupEncryptedPrefixV1 = true) :
    base64Decode text = none := by
  obtain ⟨rest, shape⟩ := startsWith_iff.mp grp1
  rw [base64Decode, shape]
  exact base64Bytes_colon 'G' 'R' 'P' '1' (unescapePadding rest) (by decide)

theorem grp2_not_base64 (grp2 : startsWith text groupEncryptedPrefixV2 = true) :
    base64Decode text = none := by
  obtain ⟨rest, shape⟩ := startsWith_iff.mp grp2
  rw [base64Decode, shape]
  exact base64Bytes_colon 'G' 'R' 'P' '2' (unescapePadding rest) (by decide)

theorem isV1_apart {fullWire : Bytes} (v1 : isV1 fullWire = true) : isV2 fullWire = false := by
  rw [isV1, Bool.and_eq_true, beq_iff_eq] at v1
  rw [isV2, v1.2]
  exact Bool.and_false _

def sorted (text : String) : Option WireClass :=
  if startsWith text groupEncryptedPrefixV1 then some .grp1
  else if startsWith text groupEncryptedPrefixV2 then some .grp2
  else (base64Decode text).map fun fullWire =>
    if isV1 fullWire then .initialV1 else if isV2 fullWire then .initialV2 else .normal

theorem sorted_of_decoded {fullWire : Bytes} (decoded : base64Decode text = some fullWire) :
    sorted text =
      some (if isV1 fullWire then .initialV1 else if isV2 fullWire then .initialV2 else .normal) := by
  have notGrp1 : ¬ startsWith text groupEncryptedPrefixV1 = true := by
    intro grp1
    rw [grp1_not_base64 grp1] at decoded
    contradiction
  have notGrp2 : ¬ startsWith text groupEncryptedPrefixV2 = true := by
    intro grp2
    rw [grp2_not_base64 grp2] at decoded
    contradiction
  rw [sorted, if_neg notGrp1, if_neg notGrp2, decoded]
  rfl

theorem sorted_of_received {c : WireClass} (received : c.received text = true) :
    sorted text = some c := by
  cases c with
  | grp1 => exact if_pos received
  | grp2 =>
    have notGrp1 : ¬ startsWith text groupEncryptedPrefixV1 = true := fun grp1 => grp_apart grp1 received
    rw [sorted, if_neg notGrp1]
    exact if_pos received
  | initialV1 =>
    obtain ⟨fullWire, decoded, v1⟩ := (Option.any_eq_true _ _).mp received
    rw [sorted_of_decoded decoded, if_pos v1]
  | initialV2 =>
    obtain ⟨fullWire, decoded, v2⟩ := (Option.any_eq_true _ _).mp received
    have notV1 : ¬ isV1 fullWire = true := by
      intro v1
      rw [isV1_apart v1] at v2
      contradiction
    rw [sorted_of_decoded decoded, if_neg notV1, if_pos v2]
  | normal =>
    obtain ⟨fullWire, decoded, neither⟩ := (Option.any_eq_true _ _).mp received
    rw [Bool.not_eq_true', Bool.or_eq_false_iff] at neither
    rw [sorted_of_decoded decoded, neither.1, neither.2]
    rfl

theorem received_unique {c d : WireClass} (first : c.received text = true)
    (second : d.received text = true) : c = d := by
  have same := sorted_of_received first
  rw [sorted_of_received second] at same
  exact (Option.some.inj same).symm

end Classes

section Fields
variable (identity ephemeral : Block 32) (wire : Bytes)

theorem slice_block (front rest : Bytes) {n width : Nat} (block : Block width) (start : front.length = n) :
    ((front ++ (block.toList ++ rest)).drop n).take width = block.toList := by
  rw [List.drop_left' start]
  exact List.take_left' block.2

theorem initialFields_v1 :
    initialFields (initialMsgMagicV1 ++ (identity.toList ++ (ephemeral.toList ++ wire))) false =
      ⟨identity.toList, ephemeral.toList, none, wire⟩ := by
  have atIdentity := slice_block initialMsgMagicV1 (ephemeral.toList ++ wire) identity rfl
  have atEphemeral := slice_block (n := 34) (initialMsgMagicV1 ++ identity.toList) wire ephemeral
    (by simp [initialMsgMagicV1])
  have atWire : (initialMsgMagicV1 ++ identity.toList ++ ephemeral.toList ++ wire).drop 66 = wire :=
    List.drop_left' (by simp [initialMsgMagicV1])
  simp only [List.append_assoc] at atEphemeral atWire
  simp only [initialFields, Bool.false_eq_true, if_false, atEphemeral, atWire]
  exact congrArg (InitialFields.mk · _ _ _) atIdentity

theorem initialFields_v2 {otpKeyId : Int} (fits : -2 ^ 31 ≤ otpKeyId ∧ otpKeyId < 2 ^ 31) :
    initialFields
        (initialMsgMagicV2 ++ (identity.toList ++ (ephemeral.toList ++ (int32Bytes otpKeyId ++ wire)))) true =
      ⟨identity.toList, ephemeral.toList, some otpKeyId, wire⟩ := by
  have atIdentity := slice_block initialMsgMagicV2
    (ephemeral.toList ++ (int32Bytes otpKeyId ++ wire)) identity rfl
  have atEphemeral := slice_block (n := 34) (initialMsgMagicV2 ++ identity.toList)
    (int32Bytes otpKeyId ++ wire) ephemeral (by simp [initialMsgMagicV2])
  have atOtp := slice_block (n := 66) (initialMsgMagicV2 ++ identity.toList ++ ephemeral.toList) wire
    ⟨int32Bytes otpKeyId, int32Bytes_length otpKeyId⟩ (by simp [initialMsgMagicV2])
  have atWire : (initialMsgMagicV2 ++ identity.toList ++ ephemeral.toList ++ int32Bytes otpKeyId ++ wire).drop 70 =
      wire := List.drop_left' (by simp [initialMsgMagicV2])
  simp only [List.append_assoc, List.Vector.toList_mk] at atEphemeral atOtp atWire
  simp only [initialFields, if_true, atEphemeral, atOtp, atWire, int32OfBytes_int32Bytes fits]
  exact congrArg (InitialFields.mk · _ _ _) atIdentity

end Fields

section Sent
variable (keys : OwnKeys P) (info : SessionInfo P)
variable {s after : SignalSession P} {nonce : Block 12} {plaintext wire : Bytes}

theorem buildInitialWire_cases (made : s.encrypt nonce plaintext = (.ok wire, after)) :
    let full := buildInitialWire keys wire info
    56 ≤ full.length ∧
      match info.wireClass with
      | .initialV1 => 70 < full.length ∧ full.take 2 = initialMsgMagicV1
      | .initialV2 => 70 < full.length ∧ full.take 2 = initialMsgMagicV2
      | _ => full.take 4 = leBytes 4 40 := by
  obtain ⟨rest, rfl, room⟩ := SignalSession.encrypt_wire made
  obtain ⟨session, x3dhResult, otpKeyId⟩ := info
  cases x3dhResult with
  | none =>
    refine ⟨?_, List.take_left' (leBytes_length 4 40)⟩
    simp only [buildInitialWire, List.length_append, leBytes_length]
    omega
  | some x3dh =>
    cases otpKeyId with
    | none =>
      simp only [buildInitialWire, SessionInfo.wireClass, List.length_append, leBytes_length,
        List.Vector.toList_length]
      refine ⟨by omega, by omega, List.take_left' rfl⟩
    | some otpKeyId =>
      simp only [buildInitialWire, SessionInfo.wireClass, List.length_append, leBytes_length,
        List.Vector.toList_length, int32Bytes_length]
      refine ⟨by omega, by omega, List.take_left' rfl⟩

theorem take_two_of_four {full : Bytes} (header : full.take 4 = leBytes 4 40) : full.take 2 = [40, 0] := by
  have cut : (full.take 4).take 2 = full.take 2 := by rw [List.take_take]; rfl
  rw [← cut, header]
  rfl

theorem wireClass_received (made : s.encrypt nonce plaintext = (.ok wire, after)) :
    info.wireClass.received (base64Encode (buildInitialWire keys wire info)) = true := by
  obtain ⟨-, starts⟩ := buildInitialWire_cases keys info made
  revert starts
  have class_cases : info.wireClass = .normal ∨ info.wireClass = .initialV1 ∨ info.wireClass = .initialV2 := by
    unfold SessionInfo.wireClass
    split <;> simp
  obtain kind | kind | kind := class_cases
  all_goals
    rw [kind]
    intro starts
    simp only [WireClass.received, base64Decode_encode, Option.any_some]
  · have two := take_two_of_four starts
    simp [isV1, isV2, two, initialMsgMagicV1, initialMsgMagicV2]
  · have long : 66 < (buildInitialWire keys wire info).length := by omega
    simp [isV1, starts.2, long]
  · simp [isV2, starts.1, starts.2]

theorem wireClass_looksEncrypted (made : s.encrypt nonce plaintext = (.ok wire, after)) :
    looksEncrypted (base64Encode (buildInitialWire keys wire info)) = true := by
  obtain ⟨room, -⟩ := buildInitialWire_cases keys info made
  have long : 20 ≤ (base64Chars (buildInitialWire keys wire info)).length := by
    rw [base64Chars_length]
    omega
  have plain : (base64Chars (buildInitialWire keys wire info)).all isBase64 = true :=
    List.all_eq_true.mpr (isBase64_chars _)
  simp [looksEncrypted, base64Encode, long, plain]

theorem receivedClass_eq_sorted {text : String} (looks : looksEncrypted text = true) :
    receivedClass false text = sorted text := by
  unfold receivedClass sorted
  cases grp1 : startsWith text groupEncryptedPrefixV1 with
  | true =>
    cases grp2 : startsWith text groupEncryptedPrefixV2 with
    | true => exact (grp_apart grp1 grp2).elim
    | false => rfl
  | false =>
    cases grp2 : startsWith text groupEncryptedPrefixV2 with
    | true => rfl
    | false =>
      simp only [Bool.or_false, Bool.false_eq_true, if_false, looks, Bool.not_false, Bool.and_true, if_true]
      congr 1
      funext fullWire
      cases v1 : isV1 fullWire with
      | true => simp [isV1_apart v1]
      | false => cases isV2 fullWire <;> rfl

end Sent
end Echo.Client

namespace Echo.Server
open Echo.Lib Echo.Client

def shaped (payload : String) : WireClass → Bool
  | .initialV1 => (base64Standard payload.toList).any (hasInitialMagic wireInitialV1)
  | .initialV2 => (base64Standard payload.toList).any (hasInitialMagic wireInitialV2)
  | .normal => (base64Standard payload.toList).any hasNormalHeader
  | .grp1 => (groupWirePrefixV1.toList.isPrefixOf? payload.toList).any isGroupBody
  | .grp2 => (groupWirePrefixV2.toList.isPrefixOf? payload.toList).any isGroupBody

variable {bytes : Bytes} {payload : String}

theorem unled {chars : List Char} {digit : Char} (inner : digit ≠ '=')
    (decoded : base64Bytes chars = some bytes) : ['G', 'R', 'P', digit, ':'].isPrefixOf? chars = none := by
  cases lead : ['G', 'R', 'P', digit, ':'].isPrefixOf? chars with
  | none => rfl
  | some rest =>
    rw [← List.append_eq_of_isPrefixOf?_eq_some lead] at decoded
    have stuck := base64Bytes_colon 'G' 'R' 'P' digit rest inner
    exact absurd (decoded.symm.trans stuck) (by simp)

theorem ungrouped (decoded : base64Standard payload.toList = some bytes) :
    groupWirePrefixV1.toList.isPrefixOf? payload.toList = none ∧
      groupWirePrefixV2.toList.isPrefixOf? payload.toList = none :=
  have whole := base64Standard_eq_some decoded
  ⟨unled (by decide) whole, unled (by decide) whole⟩

theorem led_apart {payload rest : List Char} (grp2 : groupWirePrefixV2.toList.isPrefixOf? payload = some rest) :
    groupWirePrefixV1.toList.isPrefixOf? payload = none := by
  rw [← List.append_eq_of_isPrefixOf?_eq_some grp2]
  rfl

theorem hasInitialMagic_apart {version other : UInt8}
    (first : hasInitialMagic version bytes = true) (second : hasInitialMagic other bytes = true) :
    version = other := by
  rw [hasInitialMagic, beq_iff_eq] at first second
  rw [first] at second
  exact (List.cons.inj (List.cons.inj second).2).1

theorem hasNormalHeader_apart {version : UInt8} (normal : hasNormalHeader bytes = true) :
    hasInitialMagic version bytes = false := by
  rw [hasNormalHeader, Bool.and_eq_true, decide_eq_true_eq, beq_iff_eq] at normal
  obtain ⟨long, value⟩ := normal
  match bytes, long with
  | a :: b :: c :: d :: rest, _ =>
    change leValue [a, b, c, d] = 40 at value
    simp only [leValue] at value
    have first : a ≠ wireMagic := by
      intro magic
      rw [magic] at value
      have : wireMagic.toNat = 236 := rfl
      omega
    rw [hasInitialMagic, beq_eq_false_iff_ne]
    intro same
    exact first (List.cons.inj same).1

theorem isValidCiphertextShape_iff :
    isValidCiphertextShape payload = true ↔ ∃ c, shaped payload c = true := by
  constructor
  · intro valid
    unfold isValidCiphertextShape at valid
    split at valid
    · rename_i afterPrefix lead
      exact ⟨.grp1, by rw [shaped, lead]; exact valid⟩
    · split at valid
      · rename_i afterPrefix lead
        exact ⟨.grp2, by rw [shaped, lead]; exact valid⟩
      · split at valid
        · contradiction
        · rename_i bytes decoded
          split at valid
          · rename_i initial
            rw [Bool.or_eq_true] at initial
            obtain v1 | v2 := initial
            · exact ⟨.initialV1, by rw [shaped, decoded]; exact v1⟩
            · exact ⟨.initialV2, by rw [shaped, decoded]; exact v2⟩
          · exact ⟨.normal, by rw [shaped, decoded]; exact valid⟩
  · intro ⟨c, shape⟩
    cases c with
    | grp1 =>
      obtain ⟨rest, lead, body⟩ := (Option.any_eq_true _ _).mp shape
      rw [isValidCiphertextShape, lead]
      exact body
    | grp2 =>
      obtain ⟨rest, lead, body⟩ := (Option.any_eq_true _ _).mp shape
      rw [isValidCiphertextShape, led_apart lead, lead]
      exact body
    | initialV1 =>
      obtain ⟨bytes, decoded, magic⟩ := (Option.any_eq_true _ _).mp shape
      obtain ⟨no1, no2⟩ := ungrouped decoded
      simp only [isValidCiphertextShape, no1, no2, decoded, magic, Bool.true_or, if_true]
    | initialV2 =>
      obtain ⟨bytes, decoded, magic⟩ := (Option.any_eq_true _ _).mp shape
      obtain ⟨no1, no2⟩ := ungrouped decoded
      simp only [isValidCiphertextShape, no1, no2, decoded, magic, Bool.or_true, if_true]
    | normal =>
      obtain ⟨bytes, decoded, header⟩ := (Option.any_eq_true _ _).mp shape
      obtain ⟨no1, no2⟩ := ungrouped decoded
      simp only [isValidCiphertextShape, no1, no2, decoded, header, ite_self]

def shapeOf (payload : String) : Option WireClass :=
  if (groupWirePrefixV1.toList.isPrefixOf? payload.toList).isSome then some .grp1
  else if (groupWirePrefixV2.toList.isPrefixOf? payload.toList).isSome then some .grp2
  else (base64Standard payload.toList).map fun bytes =>
    if hasInitialMagic wireInitialV1 bytes then .initialV1
    else if hasInitialMagic wireInitialV2 bytes then .initialV2 else .normal

theorem shapeOf_of_decoded
    (decoded : base64Standard payload.toList = some bytes) :
    shapeOf payload = some (if hasInitialMagic wireInitialV1 bytes then .initialV1
      else if hasInitialMagic wireInitialV2 bytes then .initialV2 else .normal) := by
  obtain ⟨no1, no2⟩ := ungrouped decoded
  rw [shapeOf, no1, no2, decoded]
  rfl

theorem shapeOf_of_shaped {c : WireClass} (shape : shaped payload c = true) :
    shapeOf payload = some c := by
  cases c with
  | grp1 =>
    obtain ⟨rest, lead, -⟩ := (Option.any_eq_true _ _).mp shape
    rw [shapeOf, lead]
    rfl
  | grp2 =>
    obtain ⟨rest, lead, -⟩ := (Option.any_eq_true _ _).mp shape
    rw [shapeOf, led_apart lead, lead]
    rfl
  | initialV1 =>
    obtain ⟨bytes, decoded, magic⟩ := (Option.any_eq_true _ _).mp shape
    rw [shapeOf_of_decoded decoded, if_pos magic]
  | initialV2 =>
    obtain ⟨bytes, decoded, magic⟩ := (Option.any_eq_true _ _).mp shape
    have notV1 : ¬ hasInitialMagic wireInitialV1 bytes = true := by
      intro v1
      exact absurd (hasInitialMagic_apart v1 magic) (by decide)
    rw [shapeOf_of_decoded decoded, if_neg notV1, if_pos magic]
  | normal =>
    obtain ⟨bytes, decoded, header⟩ := (Option.any_eq_true _ _).mp shape
    rw [shapeOf_of_decoded decoded, hasNormalHeader_apart header, hasNormalHeader_apart header]
    rfl

theorem shaped_unique {c d : WireClass} (first : shaped payload c = true)
    (second : shaped payload d = true) : c = d := by
  have same := shapeOf_of_shaped first
  rw [shapeOf_of_shaped second] at same
  exact (Option.some.inj same).symm

end Echo.Server

namespace Echo.EndToEnd
open Echo.Lib Echo.Signal Echo.Client Echo.Server

variable {P : Primitives}

section Direct
variable (keys : OwnKeys P) (info : SessionInfo P)
variable {s after : SignalSession P} {nonce : Block 12} {plaintext wire : Bytes}

theorem direct_shaped (made : s.encrypt nonce plaintext = (.ok wire, after)) :
    shaped (base64Encode (buildInitialWire keys wire info)) info.wireClass = true := by
  obtain ⟨room, starts⟩ := buildInitialWire_cases keys info made
  revert starts
  have decoded : base64Standard (base64Encode (buildInitialWire keys wire info)).toList =
      some (buildInitialWire keys wire info) := by
    rw [base64Encode, String.toList_ofList, base64Standard_chars]
  cases kind : info.wireClass with
  | initialV1 | initialV2 =>
    intro starts
    rw [shaped, decoded, Option.any_some, hasInitialMagic, starts.2]
    decide
  | normal =>
    intro starts
    have long : 4 ≤ (buildInitialWire keys wire info).length := by omega
    rw [shaped, decoded, Option.any_some, hasNormalHeader, starts, decide_eq_true long]
    decide
  | grp1 | grp2 =>
    unfold SessionInfo.wireClass at kind
    split at kind <;> contradiction

/-- The receiver's code, with the sender's own values in place of what it cuts out of the wire. -/
def readBack (reader : OwnKeys P) (info : SessionInfo P) (identity : Block 32) (wire : Bytes)
    (peer : String) (fromDeviceId : Option Int) : Dart P String := do
  let slot ← sessionKeyFor peer fromDeviceId
  match info.x3dhResult with
  | none => decryptNormalMessage wire slot
  | some x3dh =>
    acceptInitial reader ⟨identity.toList, x3dh.ephemeralPublic.toList, info.otpKeyId, wire⟩ slot peer
      fromDeviceId

theorem direct_read (made : s.encrypt nonce plaintext = (.ok wire, after))
    (fits : ∀ otpKeyId, info.otpKeyId = some otpKeyId → -2 ^ 31 ≤ otpKeyId ∧ otpKeyId < 2 ^ 31)
    (reader : OwnKeys P) (peer : String) (fromDeviceId : Option Int) :
    decryptMessageImpl reader peer (base64Encode (buildInitialWire keys wire info)) fromDeviceId =
      readBack reader info (P.publicKey keys.identity) wire peer fromDeviceId := by
  obtain ⟨-, starts⟩ := buildInitialWire_cases keys info made
  have opened : base64Decoded (P := P) (base64Encode (buildInitialWire keys wire info)) =
      pure (buildInitialWire keys wire info) := by
    rw [base64Decoded, base64Decode_encode]
  unfold decryptMessageImpl readBack
  congr 1
  funext slot
  rw [opened]
  obtain ⟨session, x3dhResult, otpKeyId⟩ := info
  cases x3dhResult with
  | none =>
    have two := take_two_of_four starts
    have neither : (isV1 wire || isV2 wire) = false := by
      simp [isV1, isV2, show wire.take 2 = [40, 0] from two, initialMsgMagicV1, initialMsgMagicV2]
    change (if (isV1 wire || isV2 wire) = true then _ else _) = _
    rw [neither]
    rfl
  | some x3dh =>
    cases otpKeyId with
    | none =>
      obtain ⟨long, magic⟩ := starts
      have v1 : isV1 (buildInitialWire keys wire ⟨session, some x3dh, none⟩) = true := by
        rw [isV1, magic, decide_eq_true (by omega)]
        rfl
      change (if (isV1 _ || isV2 _) = true then _ else _) = _
      rw [v1, isV1_apart v1]
      change decryptInitialMessage reader _ false slot peer fromDeviceId = _
      rw [decryptInitialMessage_fields]
      exact congrArg (acceptInitial reader · slot peer fromDeviceId)
        (initialFields_v1 (P.publicKey keys.identity) x3dh.ephemeralPublic wire)
    | some otpKeyId =>
      obtain ⟨long, magic⟩ := starts
      have v2 : isV2 (buildInitialWire keys wire ⟨session, some x3dh, some otpKeyId⟩) = true := by
        rw [isV2, magic, decide_eq_true long]
        rfl
      change (if (isV1 _ || isV2 _) = true then _ else _) = _
      rw [v2, Bool.or_true]
      change decryptInitialMessage reader _ true slot peer fromDeviceId = _
      rw [decryptInitialMessage_fields]
      exact congrArg (acceptInitial reader · slot peer fromDeviceId)
        (initialFields_v2 (P.publicKey keys.identity) x3dh.ephemeralPublic wire (fits otpKeyId rfl))

end Direct

section Groups
variable (G : GroupPrimitives)

theorem encryptGroupMessage_wire {nonce : Block 12} {plaintext keyBase64 text : String}
    (made : encryptGroupMessage G nonce plaintext keyBase64 = .ok text) :
    ∃ body : Bytes, text = groupEncryptedPrefixV1 ++ base64Encode body ∧ 28 ≤ body.length := by
  unfold encryptGroupMessage at made
  simp only [bind, Except.bind, pure, Except.pure] at made
  split at made
  · cases made
  · split at made
    · cases made
    · refine ⟨_, (Except.ok.inj made).symm, ?_⟩
      simp only [List.length_append, List.Vector.toList_length]
      omega

theorem encryptGroupMessageV2_wire {nonce : Block 12} {plaintext keyBase64 text : String}
    {conversationIdBytes messageIdBytes : Bytes} {senderSigningKey : G.SigningKey}
    (made : encryptGroupMessageV2 G nonce plaintext keyBase64 conversationIdBytes messageIdBytes
      senderSigningKey = .ok text) :
    ∃ body : Bytes, text = groupEncryptedPrefixV2 ++ base64Encode body ∧ 28 ≤ body.length := by
  unfold encryptGroupMessageV2 at made
  simp only [bind, Except.bind, pure, Except.pure] at made
  split at made
  · cases made
  · split at made
    · cases made
    · split at made
      · cases made
      · split at made
        · cases made
        · split at made
          · cases made
          · refine ⟨_, (Except.ok.inj made).symm, ?_⟩
            simp only [List.length_cons, List.length_append, List.Vector.toList_length]
            omega

variable {body : Bytes}

theorem isGroupBody_encoded (room : 28 ≤ body.length) :
    isGroupBody (base64Chars body) = true := by
  rw [isGroupBody, base64Standard_chars]
  exact decide_eq_true room

theorem grp1_handled (room : 28 ≤ body.length) (isGroupConversation : Bool) :
    shaped (groupEncryptedPrefixV1 ++ base64Encode body) .grp1 = true ∧
      receivedClass isGroupConversation (groupEncryptedPrefixV1 ++ base64Encode body) = some .grp1 := by
  have chars : (groupEncryptedPrefixV1 ++ base64Encode body).toList =
      'G' :: 'R' :: 'P' :: '1' :: ':' :: base64Chars body := by
    rw [String.toList_append, base64Encode, String.toList_ofList]
    rfl
  constructor
  · rw [shaped, chars]
    exact isGroupBody_encoded room
  · simp only [receivedClass, startsWith, chars]
    rfl

theorem grp2_handled (room : 28 ≤ body.length) (isGroupConversation : Bool) :
    shaped (groupEncryptedPrefixV2 ++ base64Encode body) .grp2 = true ∧
      receivedClass isGroupConversation (groupEncryptedPrefixV2 ++ base64Encode body) = some .grp2 := by
  have chars : (groupEncryptedPrefixV2 ++ base64Encode body).toList =
      'G' :: 'R' :: 'P' :: '2' :: ':' :: base64Chars body := by
    rw [String.toList_append, base64Encode, String.toList_ofList]
    rfl
  constructor
  · rw [shaped, chars]
    exact isGroupBody_encoded room
  · simp only [receivedClass, startsWith, chars]
    rfl

end Groups

/-- A direct message is accepted and read back as the sender built it, whoever reads it. -/
def DirectHandled (keys : OwnKeys P) (info : SessionInfo P) (wire : Bytes) : Prop :=
  let text := base64Encode (buildInitialWire keys wire info)
  isValidCiphertextShape text = true ∧ shaped text info.wireClass = true ∧
    receivedClass false text = some info.wireClass ∧ info.wireClass.received text = true ∧
    ∀ (reader : OwnKeys P) (peer : String) (fromDeviceId : Option Int),
      decryptMessageImpl reader peer text fromDeviceId =
        readBack reader info (P.publicKey keys.identity) wire peer fromDeviceId

def GroupHandled (text : String) (c : WireClass) : Prop :=
  isValidCiphertextShape text = true ∧ shaped text c = true ∧ c.received text = true ∧
    ∀ isGroupConversation, receivedClass isGroupConversation text = some c

theorem wires_unambiguous (keys : OwnKeys P) (G : GroupPrimitives) :
    (∀ (s after : SignalSession P) (nonce : Block 12) (plaintext wire : Bytes) (info : SessionInfo P),
      s.encrypt nonce plaintext = (.ok wire, after) →
      (∀ otpKeyId, info.otpKeyId = some otpKeyId → -2 ^ 31 ≤ otpKeyId ∧ otpKeyId < 2 ^ 31) →
      DirectHandled keys info wire) ∧
    (∀ (nonce : Block 12) (plaintext keyBase64 text : String),
      encryptGroupMessage G nonce plaintext keyBase64 = .ok text → GroupHandled text .grp1) ∧
    (∀ (nonce : Block 12) (plaintext keyBase64 text : String) (conversationIdBytes messageIdBytes : Bytes)
      (senderSigningKey : G.SigningKey),
      encryptGroupMessageV2 G nonce plaintext keyBase64 conversationIdBytes messageIdBytes
        senderSigningKey = .ok text → GroupHandled text .grp2) ∧
    (∀ (text : String) (c d : WireClass), c.received text = true → d.received text = true → c = d) ∧
    (∀ (text : String) (c d : WireClass), shaped text c = true → shaped text d = true → c = d) := by
  refine ⟨?_, ?_, ?_, fun _ _ _ => received_unique, fun _ _ _ => shaped_unique⟩
  · intro s after nonce plaintext wire info made fits
    have shape := direct_shaped keys info made
    have received := wireClass_received keys info made
    have looks := wireClass_looksEncrypted keys info made
    refine ⟨isValidCiphertextShape_iff.mpr ⟨_, shape⟩, shape, ?_, received, direct_read keys info made fits⟩
    rw [receivedClass_eq_sorted looks, sorted_of_received received]
  · intro nonce plaintext keyBase64 text made
    obtain ⟨body, rfl, room⟩ := encryptGroupMessage_wire G made
    have shape := (grp1_handled room true).1
    exact ⟨isValidCiphertextShape_iff.mpr ⟨_, shape⟩, shape,
      startsWith_append _ _, fun isGroup => (grp1_handled room isGroup).2⟩
  · intro nonce plaintext keyBase64 text conversationIdBytes messageIdBytes senderSigningKey made
    obtain ⟨body, rfl, room⟩ := encryptGroupMessageV2_wire G made
    have shape := (grp2_handled room true).1
    exact ⟨isValidCiphertextShape_iff.mpr ⟨_, shape⟩, shape,
      startsWith_append _ _, fun isGroup => (grp2_handled room isGroup).2⟩

/-- No secrecy: the plaintext itself, a blank tag and a blank signature. -/
def blankGroup : GroupPrimitives where
  SigningKey := Unit
  VerifyKey := Unit
  encrypt keyBytes _ plaintext :=
    if keyBytes.length = 32 then some (plaintext, ⟨List.replicate 16 0, rfl⟩) else none
  decrypt keyBytes _ ciphertext _ := if keyBytes.length = 32 then some ciphertext else none
  sign _ _ := List.replicate 64 0
  verify _ _ _ := true

def sampleKeys : OwnKeys Primitives.counting := ⟨1, 5, 6, none⟩

def sampleSession : SignalSession Primitives.counting :=
  SignalSession.initAlice 7 8 (Primitives.counting.publicKey 9)

def sampleInfo : SessionInfo Primitives.counting :=
  ⟨0, some ⟨8, Primitives.counting.publicKey 11⟩, some (-3)⟩

def zeroNonce : Block 12 := ⟨List.replicate 12 0, zeros12_length⟩

theorem wires_unambiguous_sample :
    (∃ wire after, sampleSession.encrypt zeroNonce [104, 105] = (.ok wire, after) ∧
      DirectHandled sampleKeys sampleInfo wire) ∧
    (∃ text, encryptGroupMessage blankGroup zeroNonce "" (base64Encode (List.replicate 32 1)) = .ok text ∧
      GroupHandled text .grp1) := by
  have sealed := wires_unambiguous sampleKeys blankGroup
  constructor
  · refine ⟨_, _, rfl, sealed.1 sampleSession _ zeroNonce [104, 105] _ sampleInfo rfl ?_⟩
    intro otpKeyId named
    cases named
    decide
  · have made : ∃ text, encryptGroupMessage blankGroup zeroNonce ""
        (base64Encode (List.replicate 32 1)) = .ok text := by
      unfold encryptGroupMessage groupBase64
      rw [base64Decode_encode]
      exact ⟨_, rfl⟩
    obtain ⟨text, made⟩ := made
    exact ⟨text, made, sealed.2.1 _ _ _ _ made⟩

end Echo.EndToEnd
