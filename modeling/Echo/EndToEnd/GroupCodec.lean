import Echo.Client.GroupReading
import Echo.EndToEnd.GroupFrames

/-! GRP2 by the Rust core and by the Dart client: one string from both packers, and what either unpacker accepts. -/
namespace Echo.EndToEnd
open Echo.Lib Echo.Client
open Echo.Signal (CoreError)

/-- `utf8.decode` drops a leading byte order mark, which `groupUtf8` keeps. -/
def dropByteOrderMark (text : String) : String :=
  if startsWith text "\uFEFF" then substring text 1 else text

def unpackShown (G : GroupPrimitives) (text keyBase64 : String) (conversationId messageId : Bytes)
    (senderVerifyKey : G.VerifyKey) : Except GroupThrown String :=
  (verifyAndDecryptGroupMessageV2 G text keyBase64 conversationId messageId senderVerifyKey).map dropByteOrderMark

section Acceptance

structure Admits (G : GroupPrimitives) (key conversationId messageId : Bytes) (senderVerifyKey : G.VerifyKey)
    (f : Grp2Frame) (plaintext : Bytes) : Prop where
  conversation : conversationId.length = 16
  message : messageId.length = 16
  keyed : key.length = 32
  signed : G.verify (f.payload conversationId messageId) f.signature.toList senderVerifyKey = true
  opened : G.decrypt key f.nonce f.ciphertext f.tag = some plaintext

variable {f : Grp2Frame} {key conversationId messageId : Bytes}

theorem grpV2SignaturePayload_eq_ok {payload : Bytes} :
    grpV2SignaturePayload groupEncryptedV2Version conversationId messageId f.nonce f.ciphertext f.tag = .ok payload ↔
      conversationId.length = 16 ∧ messageId.length = 16 ∧ payload = f.payload conversationId messageId := by
  unfold grpV2SignaturePayload
  split
  case isTrue wrong => exact ⟨fun made => (by cases made), fun fits => absurd fits.1 wrong⟩
  case isFalse right =>
    split
    case isTrue wrong => exact ⟨fun made => (by cases made), fun fits => absurd fits.2.1 wrong⟩
    case isFalse right' =>
      constructor
      · intro made
        cases made
        exact ⟨Decidable.not_not.mp right, Decidable.not_not.mp right', rfl⟩
      · rintro ⟨-, -, rfl⟩
        rfl

theorem signaturePayload_eq_ok {payload : Bytes} :
    signaturePayload grp2Version conversationId messageId f.nonce.toList f.ciphertext f.tag.toList = .ok payload ↔
      conversationId.length = 16 ∧ messageId.length = 16 ∧ payload = f.payload conversationId messageId := by
  have nonce : f.nonce.toList.length = nonceLen := f.nonce.2
  have tag : f.tag.toList.length = tagLen := f.tag.2
  have joined : [grp2Version] ++ conversationId ++ messageId ++ f.nonce.toList ++ f.ciphertext ++ f.tag.toList =
      f.payload conversationId messageId := by
    simp [Grp2Frame.payload, sealedPayload, grp2Version, groupEncryptedV2Version]
  unfold signaturePayload
  rw [joined, if_neg (not_not.mpr nonce), if_neg (not_not.mpr tag)]
  split
  case isTrue wrong => exact ⟨fun made => (by cases made), fun fits => absurd fits.1 wrong⟩
  case isFalse right =>
    split
    case isTrue wrong => exact ⟨fun made => (by cases made), fun fits => absurd fits.2.1 wrong⟩
    case isFalse right' =>
      constructor
      · intro made
        cases made
        exact ⟨Decidable.not_not.mp right, Decidable.not_not.mp right', rfl⟩
      · rintro ⟨-, -, rfl⟩
        rfl

section Dart
variable {G : GroupPrimitives} {text keyBase64 : String} {senderVerifyKey : G.VerifyKey}

theorem groupBase64_eq_ok {data : Bytes} : groupBase64 text = .ok data ↔ base64Decode text = some data := by
  unfold groupBase64
  cases base64Decode text <;> simp

theorem groupDecrypt_eq_ok {plaintext : Bytes} :
    groupDecrypt G key f.nonce f.ciphertext f.tag = .ok plaintext ↔
      G.decrypt key f.nonce f.ciphertext f.tag = some plaintext := by
  unfold groupDecrypt
  cases G.decrypt key f.nonce f.ciphertext f.tag <;> simp

theorem groupUtf8_eq_ok {data : Bytes} : groupUtf8 data = .ok text ↔ ofUtf8 data = some text := by
  unfold groupUtf8
  cases ofUtf8 data <;> simp

theorem verifyAndDecrypt_frame (grp2 : startsWith text groupEncryptedPrefixV2 = true)
    (framed : base64Decode (substring text groupEncryptedPrefixV2.length) = some f.bytes) :
    verifyAndDecryptGroupMessageV2 G text keyBase64 conversationId messageId senderVerifyKey =
      (grpV2SignaturePayload groupEncryptedV2Version conversationId messageId f.nonce f.ciphertext f.tag).bind
        fun sigPayload =>
          if G.verify sigPayload f.signature.toList senderVerifyKey then
            (groupBase64 keyBase64).bind fun keyBytes =>
              if keyBytes.length ≠ groupKeyBytesLength then
                .error (.format ("GRP2 keyBase64 must decode to " ++ toString groupKeyBytesLength ++
                  " bytes, got " ++ toString keyBytes.length))
              else (groupDecrypt G keyBytes f.nonce f.ciphertext f.tag).bind groupUtf8
          else
            .error (.senderSignature ("Ed25519 sender signature did not verify against the expected " ++
              "sender public key")) := by
  have read : groupBase64 (substring text groupEncryptedPrefixV2.length) = .ok f.bytes := groupBase64_eq_ok.mpr framed
  rw [verifyAndDecryptGroupMessageV2, if_pos grp2, read]
  simp only [bind, Except.bind, f.bytes_length]
  rw [dif_neg (by omega)]
  simp only [f.bytes_version, ne_eq, not_true_eq_false, if_false, ed25519SignatureLength, f.bytes_nonce,
    f.bytes_ciphertext, f.bytes_tag, f.bytes_signature]
  rfl

theorem verifyAndDecrypt_eq_ok {shown : String} :
    verifyAndDecryptGroupMessageV2 G text keyBase64 conversationId messageId senderVerifyKey = .ok shown ↔
      startsWith text groupEncryptedPrefixV2 = true ∧ ∃ f : Grp2Frame,
        base64Decode (substring text groupEncryptedPrefixV2.length) = some f.bytes ∧
        ∃ key, base64Decode keyBase64 = some key ∧
          ∃ plaintext, Admits G key conversationId messageId senderVerifyKey f plaintext ∧ ofUtf8 plaintext =
              some shown := by
  constructor
  · intro accepted
    have grp2 : startsWith text groupEncryptedPrefixV2 = true := by
      by_contra other
      rw [verifyAndDecryptGroupMessageV2, if_neg other] at accepted
      cases accepted
    have framed : ∃ f : Grp2Frame, base64Decode (substring text groupEncryptedPrefixV2.length) = some f.bytes := by
      rw [verifyAndDecryptGroupMessageV2, if_pos grp2] at accepted
      simp only [bind, Except.bind] at accepted
      split at accepted
      · cases accepted
      rename_i wire read
      split at accepted
      · cases accepted
      rename_i long
      split at accepted
      · cases accepted
      rename_i version
      obtain ⟨f, rfl⟩ := Grp2Frame.of_bytes (by omega) (Decidable.not_not.mp version)
      exact ⟨f, groupBase64_eq_ok.mp read⟩
    obtain ⟨f, framed⟩ := framed
    rw [verifyAndDecrypt_frame grp2 framed] at accepted
    simp only [Except.bind] at accepted
    split at accepted
    · cases accepted
    rename_i payload made
    obtain ⟨conversation, message, rfl⟩ := grpV2SignaturePayload_eq_ok.mp made
    split at accepted
    case isFalse => cases accepted
    case isTrue signed =>
      split at accepted
      · cases accepted
      rename_i keyBytes spelled
      split at accepted
      case isTrue => cases accepted
      case isFalse keyed =>
        split at accepted
        · cases accepted
        rename_i plaintext decrypted
        refine ⟨grp2, f, framed, keyBytes, groupBase64_eq_ok.mp spelled, plaintext,
          ⟨conversation, message, Decidable.not_not.mp keyed, signed, groupDecrypt_eq_ok.mp decrypted⟩,
          groupUtf8_eq_ok.mp accepted⟩
  · rintro ⟨grp2, f, framed, key, spelled, plaintext, admits, shows⟩
    rw [verifyAndDecrypt_frame grp2 framed,
      grpV2SignaturePayload_eq_ok.mpr ⟨admits.conversation, admits.message, rfl⟩]
    simp only [Except.bind, if_pos admits.signed, groupBase64_eq_ok.mpr spelled]
    have keyed : ¬ key.length ≠ groupKeyBytesLength := not_not.mpr admits.keyed
    rw [if_neg keyed, groupDecrypt_eq_ok.mpr admits.opened]
    exact groupUtf8_eq_ok.mpr shows

end Dart

section Rust
variable {C : CorePrimitives} {input : Grp2UnpackInput}

theorem openJoined_frame (f : Grp2Frame) (key : Bytes) :
    openJoined C key f.nonce.toList (f.ciphertext ++ f.tag.toList) = C.decrypt key f.nonce f.ciphertext f.tag := by
  have length : (f.ciphertext ++ f.tag.toList).length - 16 = f.ciphertext.length := by simp
  rw [openJoined, length, List.drop_left, List.take_left, toBlock_eq_some.mpr rfl, toBlock_eq_some.mpr rfl]
  rfl

theorem unpackGrp2_frame (grp2 : startsWith input.wireWithPrefix grp2Prefix = true)
    (framed : base64Standard (substring input.wireWithPrefix grp2Prefix.length).toList = some f.bytes) :
    unpackGrp2 C input =
      match signaturePayload grp2Version input.expectedConversationId input.expectedMessageId f.nonce.toList
          f.ciphertext f.tag.toList with
      | .error e => .error e
      | .ok payload =>
        match toBlock 32 input.senderVerifyKey with
        | none => .error (.crypto "sender_verify_key must be 32 bytes")
        | some vkArr =>
          match C.verifyingKey vkArr with
          | none => .error (.crypto ("verify key parse: " ++ C.keyErrorText))
          | some verifyKey =>
            if C.verify payload f.signature.toList verifyKey then
              if input.groupKey.length ≠ groupKeyLen then .error (.crypto (lengthText "group_key" groupKeyLen))
              else
                match openJoined C input.groupKey f.nonce.toList (f.ciphertext ++ f.tag.toList) with
                | none => .error (.crypto ("AES-GCM decrypt: " ++ C.aeadErrorText))
                | some plaintext => .ok plaintext
            else .error (.crypto "Ed25519 sender signature did not verify") := by
  rw [unpackGrp2, if_pos grp2]
  simp only [framed, f.bytes_length, nonceLen, tagLen, sigLen]
  rw [if_neg (by omega)]
  have version : ¬ f.bytes.getD 0 0 ≠ grp2Version := not_not.mpr rfl
  rw [if_neg version]
  simp only [f.bytes_nonce, f.bytes_ciphertext, f.bytes_tag, f.bytes_signature]
  rfl

theorem unpackGrp2_eq_ok {plaintext : Bytes} :
    unpackGrp2 C input = .ok plaintext ↔
      startsWith input.wireWithPrefix grp2Prefix = true ∧ ∃ f : Grp2Frame,
        base64Standard (substring input.wireWithPrefix grp2Prefix.length).toList = some f.bytes ∧
        ∃ verifyKey, (toBlock 32 input.senderVerifyKey).bind C.verifyingKey = some verifyKey ∧
          Admits C.toGroupPrimitives input.groupKey input.expectedConversationId input.expectedMessageId verifyKey f
            plaintext := by
  constructor
  · intro accepted
    have grp2 : startsWith input.wireWithPrefix grp2Prefix = true := by
      by_contra other
      rw [unpackGrp2, if_neg other] at accepted
      cases accepted
    have framed : ∃ f : Grp2Frame,
        base64Standard (substring input.wireWithPrefix grp2Prefix.length).toList = some f.bytes := by
      rw [unpackGrp2, if_pos grp2] at accepted
      dsimp only at accepted
      split at accepted
      · cases accepted
      rename_i wire read
      split at accepted
      · cases accepted
      rename_i long
      split at accepted
      · cases accepted
      rename_i version
      obtain ⟨f, rfl⟩ := Grp2Frame.of_bytes (Nat.le_of_not_lt long) (Decidable.not_not.mp version)
      exact ⟨f, read⟩
    obtain ⟨f, framed⟩ := framed
    rw [unpackGrp2_frame grp2 framed] at accepted
    split at accepted
    · cases accepted
    rename_i payload made
    obtain ⟨conversation, message, rfl⟩ := signaturePayload_eq_ok.mp made
    split at accepted
    · cases accepted
    rename_i vkArr sized
    split at accepted
    · cases accepted
    rename_i verifyKey parsed
    split at accepted
    case isFalse => cases accepted
    case isTrue signed =>
      split at accepted
      case isTrue => cases accepted
      case isFalse keyed =>
        split at accepted
        · cases accepted
        rename_i opened decrypted
        cases accepted
        rw [openJoined_frame] at decrypted
        refine ⟨grp2, f, framed, verifyKey, ?_, conversation, message, Decidable.not_not.mp keyed, signed, decrypted⟩
        rw [sized]
        exact parsed
  · rintro ⟨grp2, f, framed, verifyKey, parsed, admits⟩
    obtain ⟨vkArr, sized, parsed⟩ := Option.bind_eq_some_iff.mp parsed
    rw [unpackGrp2_frame grp2 framed,
      signaturePayload_eq_ok.mpr ⟨admits.conversation, admits.message, rfl⟩]
    dsimp only
    rw [sized]
    dsimp only
    rw [parsed]
    dsimp only
    have keyed : ¬ input.groupKey.length ≠ groupKeyLen := not_not.mpr admits.keyed
    rw [if_pos admits.signed, if_neg keyed, openJoined_frame, admits.opened]

end Rust
end Acceptance

section Holders
variable {C : CorePrimitives}

/-- What a holder of a signing key packs: for the Dart client the plaintext is the bytes of a text. -/
structure Pack where
  key : Block 32
  conversationId : Block 16
  messageId : Block 16
  nonce : Block 12
  plaintext : Bytes

/-- A signing key, the verifying key that goes with it, and all that was packed with it. -/
structure Holder (C : CorePrimitives) where
  seed : Block 32
  verifyKeyBytes : Block 32
  verifyKey : C.VerifyKey
  parsed : C.verifyingKey verifyKeyBytes = some verifyKey
  paired : ∀ message, C.verify message (C.sign (C.signingKey seed) message) verifyKey = true
  packs : List Pack

structure CorePrimitives.Lawful (C : CorePrimitives) : Prop where
  opens : C.Opens
  sign_length : ∀ key message, (C.sign key message).length = 64

namespace Holder
variable (holder : Holder C) (p : Pack)

def packInput : Grp2PackInput where
  groupKey := p.key.toList
  conversationId := p.conversationId.toList
  messageId := p.messageId.toList
  nonce := p.nonce.toList
  plaintext := p.plaintext
  signingSeed := holder.seed.toList

def sign (ciphertext : Bytes) (tag : Block 16) : Bytes :=
  C.sign (C.signingKey holder.seed)
    (sealedPayload p.conversationId.toList p.messageId.toList p.nonce ciphertext tag)

def frame : Option Grp2Frame :=
  (C.encrypt p.key.toList p.nonce p.plaintext).bind fun box =>
    (toBlock 64 (holder.sign p box.1 box.2)).map fun signature => ⟨p.nonce, box.1, box.2, signature⟩

variable {holder p}

theorem frame_eq_some {f : Grp2Frame} (made : holder.frame p = some f) :
    C.encrypt p.key.toList p.nonce p.plaintext = some (f.ciphertext, f.tag) ∧ f.nonce = p.nonce ∧
      f.signature.toList =
        C.sign (C.signingKey holder.seed) (f.payload p.conversationId.toList p.messageId.toList) := by
  obtain ⟨box, isSealed, made⟩ := Option.bind_eq_some_iff.mp made
  obtain ⟨signature, sized, rfl⟩ := Option.map_eq_some_iff.mp made
  exact ⟨isSealed, rfl, (toBlock_eq_some.mp sized).symm⟩

variable (holder p) in
theorem frame_of_sealed (laws : C.Lawful) {ciphertext : Bytes} {tag : Block 16}
    (isSealed : C.encrypt p.key.toList p.nonce p.plaintext = some (ciphertext, tag)) :
    ∃ f : Grp2Frame, holder.frame p = some f ∧ f.nonce = p.nonce ∧ f.ciphertext = ciphertext ∧ f.tag = tag ∧
      f.signature.toList = holder.sign p ciphertext tag := by
  have sized : (holder.sign p ciphertext tag).length = 64 := laws.sign_length _ _
  have taken : toBlock 64 (holder.sign p ciphertext tag) = some ⟨_, sized⟩ := dif_pos sized
  refine ⟨⟨p.nonce, ciphertext, tag, ⟨_, sized⟩⟩, ?_, rfl, rfl, rfl, rfl⟩
  rw [frame, isSealed, Option.bind_some, taken]
  rfl

theorem packGrp2_frame (laws : C.Lawful) :
    packGrp2 C (holder.packInput p) = match holder.frame p with
      | none => .error (.crypto ("AES-GCM encrypt: " ++ C.aeadErrorText))
      | some f => .ok ⟨f.text, f.signature.toList, f.ciphertext, f.tag.toList⟩ := by
  simp only [packGrp2, packInput, List.Vector.toList_length, groupKeyLen, nonceLen, uuidLen, ne_eq, not_true_eq_false,
    if_false, sealJoined, toBlock_eq_some.mpr rfl, Option.bind_some]
  cases isSealed : C.encrypt p.key.toList p.nonce p.plaintext with
  | none =>
    rw [frame, isSealed]
    rfl
  | some box =>
    obtain ⟨ciphertext, tag⟩ := box
    obtain ⟨f, made, nonce, rfl, rfl, signature⟩ := frame_of_sealed holder p laws isSealed
    have length : (f.ciphertext ++ f.tag.toList).length - tagLen = f.ciphertext.length := by simp [tagLen]
    have room : ¬ (f.ciphertext ++ f.tag.toList).length < tagLen := by simp [tagLen]
    simp only [Option.map_some, if_neg room, length, List.take_left, List.drop_left, made]
    have payload : signaturePayload grp2Version p.conversationId.toList p.messageId.toList f.nonce.toList f.ciphertext
        f.tag.toList = .ok (f.payload p.conversationId.toList p.messageId.toList) :=
      signaturePayload_eq_ok.mpr ⟨p.conversationId.2, p.messageId.2, rfl⟩
    have signed : C.sign (C.signingKey holder.seed) (f.payload p.conversationId.toList p.messageId.toList) =
        f.signature.toList := by
      rw [signature, sign, ← nonce]
      rfl
    rw [← nonce, payload]
    dsimp only
    rw [signed]
    simp [Grp2Frame.text, Grp2Frame.bytes, grp2Prefix, groupEncryptedPrefixV2, grp2Version, groupEncryptedV2Version]

theorem encryptGroupMessageV2_frame (laws : C.Lawful) {keyBase64 plaintext : String}
    (spelled : base64Decode keyBase64 = some p.key.toList) (text : p.plaintext = utf8Bytes plaintext) :
    encryptGroupMessageV2 C.toGroupPrimitives p.nonce plaintext keyBase64 p.conversationId.toList p.messageId.toList
      (C.signingKey holder.seed) = match holder.frame p with
      | none => .error .aesGcm
      | some f => .ok f.text := by
  have keyed : ¬ p.key.toList.length ≠ groupKeyBytesLength := not_not.mpr p.key.2
  rw [encryptGroupMessageV2, groupBase64_eq_ok.mpr spelled]
  simp only [bind, Except.bind, if_neg keyed, groupEncrypt, ← text]
  cases isSealed : C.encrypt p.key.toList p.nonce p.plaintext with
  | none =>
    rw [frame, isSealed]
    rfl
  | some box =>
    obtain ⟨ciphertext, tag⟩ := box
    obtain ⟨f, made, nonce, rfl, rfl, signature⟩ := frame_of_sealed holder p laws isSealed
    have signed : C.sign (C.signingKey holder.seed) (f.payload p.conversationId.toList p.messageId.toList) =
        f.signature.toList := by
      rw [signature, sign, ← nonce]
      rfl
    have sized : ¬ f.signature.toList.length ≠ ed25519SignatureLength := not_not.mpr f.signature.2
    have payload : grpV2SignaturePayload groupEncryptedV2Version p.conversationId.toList p.messageId.toList f.nonce
        f.ciphertext f.tag = .ok (f.payload p.conversationId.toList p.messageId.toList) :=
      grpV2SignaturePayload_eq_ok.mpr ⟨p.conversationId.2, p.messageId.2, rfl⟩
    dsimp only
    rw [made, ← nonce, payload]
    simp only [signed, if_neg sized]
    rfl

theorem frame_admits (laws : C.Lawful) {f : Grp2Frame} (made : holder.frame p = some f) :
    Admits C.toGroupPrimitives p.key.toList p.conversationId.toList p.messageId.toList holder.verifyKey f
        p.plaintext := by
  obtain ⟨isSealed, nonce, signature⟩ := frame_eq_some made
  refine ⟨p.conversationId.2, p.messageId.2, p.key.2, ?_, ?_⟩
  · rw [signature]
    exact holder.paired _
  · rw [nonce]
    exact laws.opens isSealed

variable (holder p) in
def unpackInput (text : String) : Grp2UnpackInput where
  wireWithPrefix := text
  groupKey := p.key.toList
  expectedConversationId := p.conversationId.toList
  expectedMessageId := p.messageId.toList
  senderVerifyKey := holder.verifyKeyBytes.toList

/-- No forged signature is in the text: where one verifies for the ids, the holder made it on that payload. -/
def Unforged (holder : Holder C) (text : String) (conversationId messageId : Bytes) : Prop :=
  ∀ f : Grp2Frame, text = f.text → C.verify (f.payload conversationId messageId) f.signature.toList holder.verifyKey =
      true →
    ∃ p ∈ holder.packs, ∃ g, holder.frame p = some g ∧
      g.payload p.conversationId.toList p.messageId.toList = f.payload conversationId messageId ∧ g.signature =
          f.signature

end Holder

def StandardBase64 (text : String) : Prop := ∀ c ∈ text.toList, c ≠ '%' ∧ isUrlSafe c = false

theorem substring_text (f : Grp2Frame) : substring f.text grp2Prefix.length = base64Encode f.bytes :=
  substring_append _ _

theorem base64Standard_text (f : Grp2Frame) :
    base64Standard (substring f.text grp2Prefix.length).toList = some f.bytes := by
  rw [substring_text, base64Encode, String.toList_ofList, base64Standard_chars]

theorem eq_text {text : String} {f : Grp2Frame} (grp2 : startsWith text grp2Prefix = true)
    (framed : base64Standard (substring text grp2Prefix.length).toList = some f.bytes) : text = f.text := by
  obtain ⟨rest, joined⟩ := startsWith_iff.mp grp2
  have body : (substring text grp2Prefix.length).toList = rest := by
    rw [substring, String.toList_ofList, joined, List.drop_left' String.length_toList]
  rw [body, base64Standard_iff] at framed
  rw [← String.toList_inj, joined, framed, Grp2Frame.text, String.toList_append, base64Encode, String.toList_ofList]
  rfl

theorem StandardBase64.substring {text : String} (standard : StandardBase64 text) (start : Nat) :
    base64Decode (substring text start) = base64Standard (substring text start).toList := by
  refine base64Decode_standard fun c mem => standard c ?_
  rw [Client.substring, String.toList_ofList] at mem
  exact List.mem_of_mem_drop mem

theorem verifyAndDecrypt_iff {input : Grp2UnpackInput} {keyBase64 shown : String} {verifyKey : C.VerifyKey}
    (standard : StandardBase64 input.wireWithPrefix) (spelled : base64Decode keyBase64 = some input.groupKey)
    (parsed : (toBlock 32 input.senderVerifyKey).bind C.verifyingKey = some verifyKey) :
    verifyAndDecryptGroupMessageV2 C.toGroupPrimitives input.wireWithPrefix keyBase64 input.expectedConversationId
        input.expectedMessageId verifyKey = .ok shown ↔
      ∃ plaintext, unpackGrp2 C input = .ok plaintext ∧ ofUtf8 plaintext = some shown := by
  rw [verifyAndDecrypt_eq_ok]
  simp only [unpackGrp2_eq_ok, spelled, parsed]
  rw [standard.substring]
  constructor
  · rintro ⟨grp2, f, framed, key, same, plaintext, admits, shows⟩
    cases same
    exact ⟨plaintext, ⟨grp2, f, framed, verifyKey, rfl, admits⟩, shows⟩
  · rintro ⟨plaintext, ⟨grp2, f, framed, key, same, admits⟩, shows⟩
    cases same
    exact ⟨grp2, f, framed, input.groupKey, rfl, plaintext, admits, shows⟩

theorem map_eq_ok {α β ε : Type} {r : Except ε α} {f : α → β} {b : β} : r.map f = .ok b ↔ ∃ a, r = .ok a ∧ f a = b := by
  cases r with
  | error | ok => simp [Except.map]

namespace Holder
variable {holder : Holder C} {p : Pack} {f : Grp2Frame}

theorem parsed_bind : (toBlock 32 holder.verifyKeyBytes.toList).bind C.verifyingKey = some holder.verifyKey := by
  rw [toBlock_eq_some.mpr rfl]
  exact holder.parsed

theorem unpackGrp2_packed (laws : C.Lawful) (made : holder.frame p = some f) :
    unpackGrp2 C (holder.unpackInput p f.text) = .ok p.plaintext :=
  unpackGrp2_eq_ok.mpr ⟨startsWith_append _ _, f, base64Standard_text f, holder.verifyKey, parsed_bind,
    frame_admits laws made⟩

theorem verifyAndDecrypt_packed (laws : C.Lawful) (made : holder.frame p = some f) {keyBase64 plaintext : String}
    (spelled : base64Decode keyBase64 = some p.key.toList) (text : p.plaintext = utf8Bytes plaintext) :
    verifyAndDecryptGroupMessageV2 C.toGroupPrimitives f.text keyBase64 p.conversationId.toList p.messageId.toList
      holder.verifyKey = .ok plaintext := by
  have framed : base64Decode (substring f.text groupEncryptedPrefixV2.length) = some f.bytes :=
    (congrArg base64Decode (substring_text f)).trans (base64Decode_encode f.bytes)
  refine verifyAndDecrypt_eq_ok.mpr ⟨startsWith_append _ _, f, framed, _, spelled, _, frame_admits laws made, ?_⟩
  rw [text, ofUtf8_utf8Bytes]

theorem packed_of_unpackGrp2 (laws : C.Lawful) {input : Grp2UnpackInput} {plaintext : Bytes}
    (sender : input.senderVerifyKey = holder.verifyKeyBytes.toList)
    (unforged : holder.Unforged input.wireWithPrefix input.expectedConversationId input.expectedMessageId)
    (accepted : unpackGrp2 C input = .ok plaintext) :
    ∃ p ∈ holder.packs, p.conversationId.toList = input.expectedConversationId ∧
      p.messageId.toList = input.expectedMessageId ∧
      ∃ out, packGrp2 C (holder.packInput p) = .ok out ∧ out.wireWithPrefix = input.wireWithPrefix := by
  obtain ⟨grp2, f, framed, verifyKey, parsed, admits⟩ := unpackGrp2_eq_ok.mp accepted
  have named : verifyKey = holder.verifyKey := by
    rw [sender, parsed_bind] at parsed
    exact (Option.some.inj parsed).symm
  subst named
  have text := eq_text grp2 framed
  obtain ⟨p, mem, g, made, payload, signature⟩ := unforged f text admits.signed
  obtain ⟨conversation, message, same⟩ := Grp2Frame.payload_injective
    ⟨p.conversationId.2, p.messageId.2, admits.conversation, admits.message⟩ payload signature
  refine ⟨p, mem, conversation, message, ⟨g.text, g.signature.toList, g.ciphertext, g.tag.toList⟩, ?_, ?_⟩
  · rw [packGrp2_frame laws, made]
  · rw [text, same]

end Holder

theorem dropByteOrderMark_plain {text : String} (plain : startsWith text "\uFEFF" = false) :
    dropByteOrderMark text = text := by
  rw [dropByteOrderMark, plain]
  rfl

/-- Both packers make one string, either unpacker gives back what was packed, and on base64 as the encoder writes
it the client opens what the core opens to the bytes of a text. What is opened for a verifying key, its holder
packed for the same ids. -/
theorem grp2_codec (laws : C.Lawful) (holder : Holder C) :
    (∀ (p : Pack) (keyBase64 plaintext : String), base64Decode keyBase64 = some p.key.toList →
      p.plaintext = utf8Bytes plaintext →
        (packGrp2 C (holder.packInput p)).toOption.map Grp2PackOutput.wireWithPrefix =
          (encryptGroupMessageV2 C.toGroupPrimitives p.nonce plaintext keyBase64 p.conversationId.toList
            p.messageId.toList (C.signingKey holder.seed)).toOption ∧
        ∀ out, packGrp2 C (holder.packInput p) = .ok out →
          unpackGrp2 C (holder.unpackInput p out.wireWithPrefix) = .ok p.plaintext ∧
          (startsWith plaintext "\uFEFF" = false → unpackShown C.toGroupPrimitives out.wireWithPrefix keyBase64
            p.conversationId.toList p.messageId.toList holder.verifyKey = .ok plaintext)) ∧
    (∀ (input : Grp2UnpackInput) (keyBase64 : String) (verifyKey : C.VerifyKey), StandardBase64 input.wireWithPrefix →
      base64Decode keyBase64 = some input.groupKey →
      (toBlock 32 input.senderVerifyKey).bind C.verifyingKey = some verifyKey →
        ∀ shown, unpackShown C.toGroupPrimitives input.wireWithPrefix keyBase64 input.expectedConversationId
            input.expectedMessageId verifyKey = .ok shown ↔
          ∃ plaintext text, unpackGrp2 C input = .ok plaintext ∧ ofUtf8 plaintext = some text ∧
            shown = dropByteOrderMark text) ∧
    (∀ input : Grp2UnpackInput, input.senderVerifyKey = holder.verifyKeyBytes.toList →
      holder.Unforged input.wireWithPrefix input.expectedConversationId input.expectedMessageId →
      ∀ plaintext, unpackGrp2 C input = .ok plaintext →
        ∃ p ∈ holder.packs, p.conversationId.toList = input.expectedConversationId ∧
          p.messageId.toList = input.expectedMessageId ∧
          ∃ out, packGrp2 C (holder.packInput p) = .ok out ∧ out.wireWithPrefix = input.wireWithPrefix) := by
  refine ⟨?_, ?_, ?_⟩
  · intro p keyBase64 plaintext spelled text
    rw [Holder.packGrp2_frame laws, Holder.encryptGroupMessageV2_frame laws spelled text]
    cases made : holder.frame p with
    | none =>
      refine ⟨rfl, fun out packed => ?_⟩
      cases packed
    | some f =>
      refine ⟨rfl, fun out packed => ?_⟩
      cases packed
      refine ⟨Holder.unpackGrp2_packed laws made, fun plain => ?_⟩
      rw [unpackShown, Holder.verifyAndDecrypt_packed laws made spelled text, Except.map, dropByteOrderMark_plain plain]
  · intro input keyBase64 verifyKey standard spelled parsed shown
    rw [unpackShown, map_eq_ok]
    simp only [verifyAndDecrypt_iff standard spelled parsed]
    constructor
    · rintro ⟨text, ⟨plaintext, opened, shows⟩, rfl⟩
      exact ⟨plaintext, text, opened, shows, rfl⟩
    · rintro ⟨plaintext, text, opened, shows, rfl⟩
      exact ⟨text, ⟨plaintext, opened, shows⟩, rfl⟩
  · intro input sender unforged plaintext accepted
    exact Holder.packed_of_unpackGrp2 laws sender unforged accepted

end Holders

section Examples

abbrev CorePrimitives.plain : CorePrimitives where
  toGroupPrimitives := GroupKit.plain.toGroupPrimitives
  signingKey seed := seed
  verifyingKey key := some key
  decodeErrorText _ := "Invalid byte"
  aeadErrorText := "aead::Error"
  keyErrorText := "signature error"

theorem CorePrimitives.plain_lawful : CorePrimitives.plain.Lawful where
  opens := GroupKit.plain_lawful.decrypt_encrypt
  sign_length key message := by
    simp only [GroupKit.plainSignature, List.length_take, List.length_append, List.Vector.toList_length,
      List.length_replicate]
    omega

def packing (plaintext : Bytes) : Pack := ⟨zeros 32, zeros 16, zeros 16, zeros 12, plaintext⟩

/-- Who has packed a greeting, a byte that begins no character, and a greeting after a byte order mark. -/
def packer : Holder .plain where
  seed := zeros 32
  verifyKeyBytes := zeros 32
  verifyKey := zeros 32
  parsed := rfl
  paired := zeros_paired
  packs := [packing (utf8Bytes "hi"), packing [0xFF], packing (utf8Bytes "\uFEFFhi")]

theorem packer_frame (plaintext : Bytes) : ∃ f, packer.frame (packing plaintext) = some f := by
  have isSealed : CorePrimitives.plain.encrypt (zeros 32).toList (zeros 12) plaintext =
      some (plaintext, GroupKit.plainTag (zeros 32).toList) := by
    change (if (zeros 32).toList.length = 32 then _ else none) = _
    exact if_pos (zeros 32).2
  obtain ⟨f, made, -⟩ := Holder.frame_of_sealed packer (packing plaintext) CorePrimitives.plain_lawful isSealed
  exact ⟨f, made⟩

/-- The greeting, packed, read by both, and traced back to its pack. -/
theorem grp2_codec_greeting :
    ∃ out, packGrp2 .plain (packer.packInput (packing (utf8Bytes "hi"))) = .ok out ∧
      unpackShown CorePrimitives.plain.toGroupPrimitives out.wireWithPrefix (base64Encode (zeros 32).toList)
        (zeros 16).toList (zeros 16).toList (zeros 32) = .ok "hi" ∧
      ∃ p ∈ packer.packs, ∃ again, packGrp2 .plain (packer.packInput p) = .ok again ∧
        again.wireWithPrefix = out.wireWithPrefix := by
  obtain ⟨agree, -, traced⟩ := grp2_codec CorePrimitives.plain_lawful packer
  obtain ⟨f, made⟩ := packer_frame (utf8Bytes "hi")
  have packed : packGrp2 .plain (packer.packInput (packing (utf8Bytes "hi"))) =
      .ok ⟨f.text, f.signature.toList, f.ciphertext, f.tag.toList⟩ := by
    rw [Holder.packGrp2_frame CorePrimitives.plain_lawful, made]
  obtain ⟨opened, shown⟩ := (agree (packing (utf8Bytes "hi")) _ "hi" (base64Decode_encode _) rfl).2 _ packed
  have unforged : packer.Unforged f.text (zeros 16).toList (zeros 16).toList := by
    intro g same _
    cases Grp2Frame.text_injective same
    exact ⟨packing (utf8Bytes "hi"), List.mem_cons_self, f, made, rfl, rfl⟩
  obtain ⟨p, mem, -, -, again⟩ := traced (packer.unpackInput (packing (utf8Bytes "hi")) f.text) rfl unforged _ opened
  exact ⟨_, packed, shown (by decide), p, mem, again⟩

/-- The core opens a byte that is no text, which the client refuses, and the client drops a byte order mark. -/
theorem grp2_read_apart :
    (∃ text, unpackGrp2 .plain (packer.unpackInput (packing [0xFF]) text) = .ok [0xFF] ∧
      ∀ shown, unpackShown CorePrimitives.plain.toGroupPrimitives text (base64Encode (zeros 32).toList)
        (zeros 16).toList (zeros 16).toList (zeros 32) ≠ .ok shown) ∧
    ∃ out, packGrp2 .plain (packer.packInput (packing (utf8Bytes "\uFEFFhi"))) = .ok out ∧
      unpackShown CorePrimitives.plain.toGroupPrimitives out.wireWithPrefix (base64Encode (zeros 32).toList)
        (zeros 16).toList (zeros 16).toList (zeros 32) = .ok "hi" := by
  constructor
  · obtain ⟨f, made⟩ := packer_frame [0xFF]
    have opened := Holder.unpackGrp2_packed CorePrimitives.plain_lawful made
    refine ⟨f.text, opened, fun shown accepted => ?_⟩
    rw [unpackShown, map_eq_ok] at accepted
    obtain ⟨text, accepted, -⟩ := accepted
    obtain ⟨-, g, framed, key, spelled, plaintext, admits, shows⟩ := verifyAndDecrypt_eq_ok.mp accepted
    have same : f = g := by
      have read := (congrArg base64Decode (substring_text f)).trans (base64Decode_encode f.bytes)
      exact Grp2Frame.bytes_injective (Option.some.inj (read.symm.trans framed))
    subst same
    rw [base64Decode_encode] at spelled
    cases spelled
    have plain := (Holder.frame_admits CorePrimitives.plain_lawful made).opened.symm.trans admits.opened
    cases plain
    have binary : ofUtf8 [0xFF] = none := by decide +kernel
    have none_shown := binary.symm.trans shows
    cases none_shown
  · obtain ⟨f, made⟩ := packer_frame (utf8Bytes "\uFEFFhi")
    refine ⟨⟨f.text, f.signature.toList, f.ciphertext, f.tag.toList⟩, ?_, ?_⟩
    · rw [Holder.packGrp2_frame CorePrimitives.plain_lawful, made]
    · have shown := Holder.verifyAndDecrypt_packed CorePrimitives.plain_lawful made (base64Decode_encode _) rfl
      exact map_eq_ok.mpr ⟨_, shown, by decide +kernel⟩

end Examples
end Echo.EndToEnd
