import Echo.Client.CryptoService

/-! The group wires of `group_crypto_service.dart`, written and read, and how
`ws_message_handler.dart` tells incoming wires apart. -/
namespace Echo.Client
open Echo.Lib

/-- AES-256-GCM on raw keys and Ed25519, from the `cryptography` package. -/
structure GroupPrimitives where
  SigningKey : Type
  VerifyKey : Type
  /-- Key, nonce, plaintext to ciphertext and tag; none when the key does not fit. -/
  encrypt : Bytes → Block 12 → Bytes → Option (Bytes × Block 16)
  decrypt : Bytes → Block 12 → Bytes → Block 16 → Option Bytes
  sign : SigningKey → Bytes → Bytes
  /-- Message, signature, key. -/
  verify : Bytes → Bytes → VerifyKey → Bool

inductive GroupThrown where
  | format (text : String)
  | argument (text : String)
  | state (text : String)
  | aesGcm
  | senderSignature (text : String)
  deriving DecidableEq

def groupEncryptedPrefixV1 : String := "GRP1:"
def groupEncryptedPrefixV2 : String := "GRP2:"
def groupEncryptedV2Version : UInt8 := 0x01
def groupKeyBytesLength : Nat := 32
def ed25519SignatureLength : Nat := 64

/-- `String.startsWith` -/
def startsWith (text lead : String) : Bool := lead.toList.isPrefixOf text.toList

/-- `String.substring` -/
def substring (text : String) (start : Nat) : String := String.ofList (text.toList.drop start)

def groupBase64 (text : String) : Except GroupThrown Bytes :=
  match base64Decode text with
  | some bytes => .ok bytes
  | none => .error (.format "Invalid base64")

def groupUtf8 (data : Bytes) : Except GroupThrown String :=
  match ofUtf8 data with
  | some text => .ok text
  | none => .error (.format "Invalid UTF-8")

section
variable (G : GroupPrimitives)

def groupEncrypt (keyBytes : Bytes) (nonce : Block 12) (plaintext : Bytes) :
    Except GroupThrown (Bytes × Block 16) :=
  match G.encrypt keyBytes nonce plaintext with
  | some box => .ok box
  | none => .error .aesGcm

def groupDecrypt (keyBytes : Bytes) (nonce : Block 12) (ciphertext : Bytes) (mac : Block 16) :
    Except GroupThrown Bytes :=
  match G.decrypt keyBytes nonce ciphertext mac with
  | some plainBytes => .ok plainBytes
  | none => .error .aesGcm

def encryptGroupMessage (nonce : Block 12) (plaintext keyBase64 : String) : Except GroupThrown String := do
  let keyBytes ← groupBase64 keyBase64
  let (ciphertext, mac) ← groupEncrypt G keyBytes nonce (utf8Bytes plaintext)
  let wire := nonce.toList ++ (ciphertext ++ mac.toList)
  return groupEncryptedPrefixV1 ++ base64Encode wire

def decryptGroupMessage (ciphertextWithPrefix keyBase64 : String) : Except GroupThrown String := do
  if startsWith ciphertextWithPrefix groupEncryptedPrefixV1 then
    let wire ← groupBase64 (substring ciphertextWithPrefix groupEncryptedPrefixV1.length)
    if short : wire.length < 12 + 16 then
      .error (.format ("Group ciphertext too short: " ++ toString wire.length ++ " bytes"))
    else
      let nonce : Block 12 := ⟨wire.take 12, nonce_length short⟩
      let ciphertext := (wire.take (wire.length - 16)).drop 12
      let mac : Block 16 := ⟨wire.drop (wire.length - 16), mac_length short⟩
      let keyBytes ← groupBase64 keyBase64
      let plainBytes ← groupDecrypt G keyBytes nonce ciphertext mac
      groupUtf8 plainBytes
  else .error (.format "Not a group-encrypted message (missing prefix)")

def grpV2SignaturePayload (version : UInt8) (conversationIdBytes messageIdBytes : Bytes)
    (nonce : Block 12) (ciphertext : Bytes) (tag : Block 16) : Except GroupThrown Bytes :=
  if conversationIdBytes.length ≠ 16 then
    .error (.argument ("conversationIdBytes must be 16 bytes (raw UUID), got " ++
      toString conversationIdBytes.length))
  else if messageIdBytes.length ≠ 16 then
    .error (.argument ("messageIdBytes must be 16 bytes (raw UUID), got " ++
      toString messageIdBytes.length))
  else .ok (version :: (conversationIdBytes ++ (messageIdBytes ++ (nonce.toList ++ (ciphertext ++ tag.toList)))))

/-- `encryptGroupMessageV2`: the nonce is the one AES-GCM draws. -/
def encryptGroupMessageV2 (nonce : Block 12) (plaintext keyBase64 : String)
    (conversationIdBytes messageIdBytes : Bytes) (senderSigningKey : G.SigningKey) :
    Except GroupThrown String := do
  let keyBytes ← groupBase64 keyBase64
  if keyBytes.length ≠ groupKeyBytesLength then
    .error (.argument ("GRP2 keyBase64 must decode to " ++ toString groupKeyBytesLength ++ " bytes, got " ++
      toString keyBytes.length))
  else
    let (ciphertext, tag) ← groupEncrypt G keyBytes nonce (utf8Bytes plaintext)
    let sigPayload ← grpV2SignaturePayload groupEncryptedV2Version conversationIdBytes messageIdBytes
      nonce ciphertext tag
    let sigBytes := G.sign senderSigningKey sigPayload
    if sigBytes.length ≠ ed25519SignatureLength then
      .error (.state ("Ed25519 signature must be " ++ toString ed25519SignatureLength ++ " bytes, got " ++
        toString sigBytes.length))
    else
      let wire := groupEncryptedV2Version :: (nonce.toList ++ (ciphertext ++ (tag.toList ++ sigBytes)))
      return groupEncryptedPrefixV2 ++ base64Encode wire

def verifyAndDecryptGroupMessageV2 (ciphertextWithPrefix keyBase64 : String)
    (expectedConversationIdBytes expectedMessageIdBytes : Bytes) (senderVerifyKey : G.VerifyKey) :
    Except GroupThrown String := do
  if startsWith ciphertextWithPrefix groupEncryptedPrefixV2 then
    let wire ← groupBase64 (substring ciphertextWithPrefix groupEncryptedPrefixV2.length)
    if short : wire.length < 1 + 12 + 16 + 64 then
      .error (.format ("GRP2 wire too short: " ++ toString wire.length ++ " bytes"))
    else
      let version := wire.getD 0 0
      if version ≠ groupEncryptedV2Version then
        .error (.format ("Unsupported GRP2 revision: 0x" ++
          String.ofList (Nat.toDigits 16 version.toNat)))
      else
        let sigStart := wire.length - ed25519SignatureLength
        let tagStart := sigStart - 16
        let nonce : Block 12 := ⟨(wire.take 13).drop 1, by simp; omega⟩
        let ciphertext := (wire.take tagStart).drop 13
        let tag : Block 16 := ⟨(wire.take sigStart).drop tagStart, by
          simp [sigStart, tagStart, ed25519SignatureLength]; omega⟩
        let sigPayload ← grpV2SignaturePayload version expectedConversationIdBytes
          expectedMessageIdBytes nonce ciphertext tag
        if G.verify sigPayload (wire.drop sigStart) senderVerifyKey then
          let keyBytes ← groupBase64 keyBase64
          if keyBytes.length ≠ groupKeyBytesLength then
            .error (.format ("GRP2 keyBase64 must decode to " ++ toString groupKeyBytesLength ++
              " bytes, got " ++ toString keyBytes.length))
          else
            let plainBytes ← groupDecrypt G keyBytes nonce ciphertext tag
            groupUtf8 plainBytes
        else
          .error (.senderSignature ("Ed25519 sender signature did not verify against the expected " ++
            "sender public key"))
  else .error (.format "Not a GRP2 group-encrypted message (missing GRP2: prefix)")

end

section Dispatch

inductive WireClass where
  | initialV1
  | initialV2
  | normal
  | grp1
  | grp2
  deriving DecidableEq, Repr

def looksEncrypted (text : String) : Bool :=
  startsWith text groupEncryptedPrefixV1 || startsWith text groupEncryptedPrefixV2 ||
    (20 ≤ text.toList.length && text.toList.all isBase64)

/-- Which decoder `_decryptContent` and `_decryptMessageImpl` end in; none where the text is
shown as it is or is no base64. -/
def receivedClass (isGroupConversation : Bool) (rawContent : String) : Option WireClass :=
  let isGrp1 := startsWith rawContent groupEncryptedPrefixV1
  let isGrp2 := startsWith rawContent groupEncryptedPrefixV2
  if isGrp1 || isGrp2 then some (if isGrp2 then .grp2 else .grp1)
  else if !isGroupConversation && looksEncrypted rawContent then
    (base64Decode rawContent).map fun fullWire =>
      if isV1 fullWire || isV2 fullWire then (if isV2 fullWire then .initialV2 else .initialV1)
      else .normal
  else none

def WireClass.received (text : String) : WireClass → Bool
  | .initialV1 => (base64Decode text).any isV1
  | .initialV2 => (base64Decode text).any isV2
  | .normal => (base64Decode text).any fun fullWire => !(isV1 fullWire || isV2 fullWire)
  | .grp1 => startsWith text groupEncryptedPrefixV1
  | .grp2 => startsWith text groupEncryptedPrefixV2

end Dispatch

end Echo.Client
