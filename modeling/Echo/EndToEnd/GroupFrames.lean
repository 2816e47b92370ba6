import Echo.EndToEnd.Wires

/-! The GRP2 reference of the Rust core, `signal/grp2.rs`, and the frame that it and the Dart client lay out. -/
namespace Echo.EndToEnd
open Echo.Lib Echo.Client
open Echo.Signal (CoreError)

section Reference

def grp2Prefix : String := "GRP2:"
def grp2Version : UInt8 := 0x01
def groupKeyLen : Nat := 32
def nonceLen : Nat := 12
def tagLen : Nat := 16
def sigLen : Nat := 64
def uuidLen : Nat := 16

/-- AES-GCM and Ed25519 as the Rust crates hand them out, with the texts of their errors. -/
structure CorePrimitives extends GroupPrimitives where
  /-- `SigningKey::from_bytes` -/
  signingKey : Block 32 → SigningKey
  /-- `VerifyingKey::from_bytes` -/
  verifyingKey : Block 32 → Option VerifyKey
  decodeErrorText : String → String
  aeadErrorText : String
  keyErrorText : String

structure Grp2PackInput where
  groupKey : Bytes
  conversationId : Bytes
  messageId : Bytes
  nonce : Bytes
  plaintext : Bytes
  signingSeed : Bytes

structure Grp2PackOutput where
  wireWithPrefix : String
  signature : Bytes
  ciphertext : Bytes
  tag : Bytes

structure Grp2UnpackInput where
  wireWithPrefix : String
  groupKey : Bytes
  expectedConversationId : Bytes
  expectedMessageId : Bytes
  senderVerifyKey : Bytes

def lengthText (name : String) (length : Nat) : String := name ++ " must be " ++ toString length ++ " bytes"

def gotText (name : String) (length : Nat) (data : Bytes) : String :=
  lengthText name length ++ ", got " ++ toString data.length

def signaturePayload (version : UInt8) (conversationId messageId nonce ciphertext tag : Bytes) :
    Except CoreError Bytes :=
  if conversationId.length ≠ uuidLen then .error (.crypto (gotText "conversation_id" uuidLen conversationId))
  else if messageId.length ≠ uuidLen then .error (.crypto (gotText "message_id" uuidLen messageId))
  else if nonce.length ≠ nonceLen then .error (.crypto (gotText "nonce" nonceLen nonce))
  else if tag.length ≠ tagLen then .error (.crypto (gotText "tag" tagLen tag))
  else .ok ([version] ++ conversationId ++ messageId ++ nonce ++ ciphertext ++ tag)

variable (C : CorePrimitives)

/-- `Aes256Gcm::encrypt`: the tag after the ciphertext. -/
def sealJoined (key nonce plaintext : Bytes) : Option Bytes :=
  (toBlock 12 nonce).bind fun nonce => (C.encrypt key nonce plaintext).map fun box => box.1 ++ box.2.toList

/-- `Aes256Gcm::decrypt` -/
def openJoined (key nonce joined : Bytes) : Option Bytes :=
  (toBlock 12 nonce).bind fun nonce =>
    (toBlock 16 (joined.drop (joined.length - 16))).bind fun tag =>
      C.decrypt key nonce (joined.take (joined.length - 16)) tag

def packGrp2 (input : Grp2PackInput) : Except CoreError Grp2PackOutput :=
  if input.groupKey.length ≠ groupKeyLen then .error (.crypto (gotText "group_key" groupKeyLen input.groupKey))
  else if input.nonce.length ≠ nonceLen then .error (.crypto (gotText "nonce" nonceLen input.nonce))
  else if input.conversationId.length ≠ uuidLen then .error (.crypto (lengthText "conversation_id" uuidLen))
  else if input.messageId.length ≠ uuidLen then .error (.crypto (lengthText "message_id" uuidLen))
  else if input.signingSeed.length ≠ 32 then
    .error (.crypto ("signing_seed must be 32 bytes (Ed25519 seed), got " ++ toString input.signingSeed.length))
  else
    match sealJoined C input.groupKey input.nonce input.plaintext with
    | none => .error (.crypto ("AES-GCM encrypt: " ++ C.aeadErrorText))
    | some ctWithTag =>
      if ctWithTag.length < tagLen then .error (.crypto "AES-GCM output shorter than tag length (impossible)")
      else
        let ctLen := ctWithTag.length - tagLen
        let ciphertext := ctWithTag.take ctLen
        let tag := ctWithTag.drop ctLen
        match signaturePayload grp2Version input.conversationId input.messageId input.nonce ciphertext tag with
        | .error e => .error e
        | .ok payload =>
          match toBlock 32 input.signingSeed with
          | none => .error (.crypto "signing_seed not 32 bytes")
          | some seed =>
            let signature := C.sign (C.signingKey seed) payload
            let wire := [grp2Version] ++ input.nonce ++ ciphertext ++ tag ++ signature
            .ok ⟨grp2Prefix ++ base64Encode wire, signature, ciphertext, tag⟩

def unpackGrp2 (input : Grp2UnpackInput) : Except CoreError Bytes :=
  if startsWith input.wireWithPrefix grp2Prefix then
    let b64 := substring input.wireWithPrefix grp2Prefix.length
    match base64Standard b64.toList with
    | none => .error (.crypto ("base64 decode: " ++ C.decodeErrorText b64))
    | some wire =>
      let minLen := 1 + nonceLen + tagLen + sigLen
      if wire.length < minLen then
        .error (.crypto ("GRP2 wire too short: " ++ toString wire.length ++ " bytes (min " ++ toString minLen ++ ")"))
      else
        let version := wire.getD 0 0
        if version ≠ grp2Version then
          .error (.crypto ("unsupported GRP2 revision: 0x" ++ String.ofList (hexByte version)))
        else
          let nonce := (wire.take (1 + nonceLen)).drop 1
          let sigStart := wire.length - sigLen
          let tagStart := sigStart - tagLen
          let ciphertext := (wire.take tagStart).drop (1 + nonceLen)
          let tag := (wire.take sigStart).drop tagStart
          match signaturePayload version input.expectedConversationId input.expectedMessageId nonce ciphertext tag with
          | .error e => .error e
          | .ok payload =>
            match toBlock 32 input.senderVerifyKey with
            | none => .error (.crypto "sender_verify_key must be 32 bytes")
            | some vkArr =>
              match C.verifyingKey vkArr with
              | none => .error (.crypto ("verify key parse: " ++ C.keyErrorText))
              | some verifyKey =>
                if C.verify payload (wire.drop sigStart) verifyKey then
                  if input.groupKey.length ≠ groupKeyLen then .error (.crypto (lengthText "group_key" groupKeyLen))
                  else
                    match openJoined C input.groupKey nonce (ciphertext ++ tag) with
                    | none => .error (.crypto ("AES-GCM decrypt: " ++ C.aeadErrorText))
                    | some plaintext => .ok plaintext
                else .error (.crypto "Ed25519 sender signature did not verify")
  else .error (.crypto "missing GRP2: prefix")

end Reference

section Frames

def sealedPayload (conversationId messageId : Bytes) (nonce : Block 12) (ciphertext : Bytes) (tag : Block 16) : Bytes :=
  groupEncryptedV2Version :: (conversationId ++ (messageId ++ (nonce.toList ++ (ciphertext ++ tag.toList))))

structure Grp2Frame where
  nonce : Block 12
  ciphertext : Bytes
  tag : Block 16
  signature : Block 64

namespace Grp2Frame
variable (f : Grp2Frame)

def bytes : Bytes :=
  groupEncryptedV2Version :: (f.nonce.toList ++ (f.ciphertext ++ (f.tag.toList ++ f.signature.toList)))

def payload (conversationId messageId : Bytes) : Bytes :=
  sealedPayload conversationId messageId f.nonce f.ciphertext f.tag

def text : String := groupEncryptedPrefixV2 ++ base64Encode f.bytes

theorem bytes_length : f.bytes.length = 93 + f.ciphertext.length := by
  simp only [bytes, List.length_cons, List.length_append, List.Vector.toList_length]
  omega

theorem bytes_version : f.bytes.getD 0 0 = groupEncryptedV2Version := rfl

theorem bytes_nonce : (f.bytes.take 13).drop 1 = f.nonce.toList :=
  (congrArg (List.drop 1) (List.take_succ_cons)).trans (List.take_left' f.nonce.2)

theorem bytes_ciphertext : (f.bytes.take (93 + f.ciphertext.length - 64 - 16)).drop 13 = f.ciphertext := by
  have parts : f.bytes = (groupEncryptedV2Version :: f.nonce.toList)
      ++ (f.ciphertext ++ (f.tag.toList ++ f.signature.toList)) := rfl
  rw [parts, ← List.append_assoc, List.take_left' (by simp; omega), List.drop_left' (by simp)]

theorem bytes_tag : (f.bytes.take (93 + f.ciphertext.length - 64)).drop (93 + f.ciphertext.length - 64 - 16) =
    f.tag.toList := by
  have parts : f.bytes = (groupEncryptedV2Version :: (f.nonce.toList ++ f.ciphertext))
      ++ (f.tag.toList ++ f.signature.toList) := by
    simp [bytes]
  rw [parts, ← List.append_assoc, List.take_left' (by simp; omega), List.drop_left' (by simp; omega)]

theorem bytes_signature : f.bytes.drop (93 + f.ciphertext.length - 64) = f.signature.toList := by
  have parts : f.bytes = (groupEncryptedV2Version :: (f.nonce.toList ++ (f.ciphertext ++ f.tag.toList)))
      ++ f.signature.toList := by
    simp [bytes]
  rw [parts, List.drop_left' (by simp; omega)]

theorem of_bytes {wire : Bytes} (long : 93 ≤ wire.length) (version : wire.getD 0 0 = groupEncryptedV2Version) :
    ∃ f : Grp2Frame, wire = f.bytes := by
  cases wire with
  | nil => simp at long
  | cons first rest =>
    obtain rfl : first = groupEncryptedV2Version := version
    simp only [List.length_cons] at long
    refine ⟨⟨⟨rest.take 12, by simp; omega⟩, (rest.drop 12).take (rest.length - 92),
      ⟨((rest.drop 12).drop (rest.length - 92)).take 16, by simp; omega⟩,
      ⟨((rest.drop 12).drop (rest.length - 92)).drop 16, by simp; omega⟩⟩, ?_⟩
    simp only [bytes, List.Vector.toList_mk, List.take_append_drop]

theorem bytes_injective {f g : Grp2Frame} (same : f.bytes = g.bytes) : f = g := by
  obtain ⟨nonce, same⟩ := List.append_inj (List.cons.inj same).2 (f.nonce.2.trans g.nonce.2.symm)
  obtain ⟨same, signature⟩ := List.append_inj'
      ((List.append_assoc _ _ _).trans (same.trans (List.append_assoc _ _ _).symm))
    (f.signature.2.trans g.signature.2.symm)
  obtain ⟨ciphertext, tag⟩ := List.append_inj' same (f.tag.2.trans g.tag.2.symm)
  cases f
  cases g
  simp only [Grp2Frame.mk.injEq]
  exact ⟨Subtype.ext nonce, ciphertext, Subtype.ext tag, Subtype.ext signature⟩

theorem text_injective {f g : Grp2Frame} (same : f.text = g.text) : f = g := by
  have bodies := congrArg (fun text => base64Decode (substring text groupEncryptedPrefixV2.length)) same
  refine bytes_injective (Option.some.inj ?_)
  rw [← base64Decode_encode f.bytes, ← base64Decode_encode g.bytes]
  refine Eq.trans (congrArg base64Decode ?_) (bodies.trans (congrArg base64Decode ?_))
  · exact (substring_append _ _).symm
  · exact substring_append _ _

theorem payload_injective {f g : Grp2Frame} {conversationId messageId conversationId' messageId' : Bytes}
    (sizes : conversationId.length = 16 ∧ messageId.length = 16 ∧ conversationId'.length = 16 ∧ messageId'.length = 16)
    (same : f.payload conversationId messageId = g.payload conversationId' messageId')
        (signed : f.signature = g.signature) :
    conversationId = conversationId' ∧ messageId = messageId' ∧ f = g := by
  obtain ⟨first, second, first', second'⟩ := sizes
  obtain ⟨conversation, same⟩ := List.append_inj (List.cons.inj same).2 (first.trans first'.symm)
  obtain ⟨message, same⟩ := List.append_inj same (second.trans second'.symm)
  obtain ⟨nonce, same⟩ := List.append_inj same (f.nonce.2.trans g.nonce.2.symm)
  obtain ⟨ciphertext, tag⟩ := List.append_inj' same (f.tag.2.trans g.tag.2.symm)
  refine ⟨conversation, message, ?_⟩
  cases f
  cases g
  simp only [Grp2Frame.mk.injEq]
  exact ⟨Subtype.ext nonce, ciphertext, Subtype.ext tag, signed⟩

end Grp2Frame
end Frames
end Echo.EndToEnd
