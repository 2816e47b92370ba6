import Echo.Lib.Bytes
import Mathlib.Algebra.Ring.Nat

/-! The libraries under the Signal code: X25519, HKDF-SHA256, AES-256-GCM and
Ed25519. They are parameters. Symmetric keys stay abstract, so that one model serves both the 32-byte
arrays of the source and a symbolic reading in which keys are terms. -/
namespace Echo.Signal
open Echo.Lib

/-- What HKDF is fed besides its salt: one seed byte, or DH outputs laid end to end. -/
inductive Ikm (Key : Type) where
  | seed (byte : UInt8)
  | dh (outputs : List Key)

structure Primitives where
  /-- 32-byte symmetric keys and DH outputs. -/
  Key : Type
  /-- X25519 private keys. -/
  Secret : Type
  /-- The all-zero array. -/
  zeroKey : Key
  publicKey : Secret → Block 32
  diffieHellman : Secret → Block 32 → Key
  /-- Salt, keying material, info and the number of 32-byte blocks expanded. -/
  hkdf : Key → Ikm Key → Bytes → (blocks : Nat) → Fin blocks → Key
  /-- Key, nonce, message, associated data; the result carries the 16-byte tag. -/
  aesGcmEncrypt : Key → Block 12 → Bytes → Bytes → Option Bytes
  aesGcmDecrypt : Key → Block 12 → Bytes → Bytes → Option Bytes
  /-- Message, signature, public key. -/
  ed25519Verify : Bytes → Bytes → Bytes → Bool

structure Primitives.Lawful (P : Primitives) : Prop where
  dh_comm : ∀ a b, P.diffieHellman a (P.publicKey b) = P.diffieHellman b (P.publicKey a)
  decrypt_encrypt : ∀ {key nonce message aad ciphertext},
    P.aesGcmEncrypt key nonce message aad = some ciphertext →
      P.aesGcmDecrypt key nonce ciphertext aad = some message
  encrypt_length : ∀ {key nonce message aad ciphertext},
    P.aesGcmEncrypt key nonce message aad = some ciphertext →
      ciphertext.length = message.length + 16

namespace Primitives

/- A lawful instance with no secrecy at all: keys are numbers, a KDF adds, and the tag
spells out the key and the counters of the header. It shows the laws can be met. -/
def countingTag (key : Nat) (aad : Bytes) : Bytes :=
  leBytes 8 key ++ leBytes 8 (leValue (aad.drop 32))

abbrev counting : Primitives where
  Key := Nat
  Secret := Nat
  zeroKey := 0
  publicKey secret := ⟨leBytes 32 secret, leBytes32_length secret⟩
  diffieHellman secret peer := secret % 256 ^ 32 + leValue peer.toList
  hkdf salt ikm _ _ block :=
    match ikm with
    | .seed byte => salt + byte.toNat
    | .dh outputs => salt + outputs.sum + block.val
  aesGcmEncrypt key _ message aad := some (message ++ countingTag key aad)
  aesGcmDecrypt key _ ciphertext aad :=
    if ciphertext.drop (ciphertext.length - 16) = countingTag key aad then
      some (ciphertext.take (ciphertext.length - 16))
    else none
  ed25519Verify message signature publicKey := signature == publicKey ++ message

theorem countingTag_length (key : Nat) (aad : Bytes) : (countingTag key aad).length = 16 := by
  simp [countingTag]

theorem counting_lawful : counting.Lawful where
  dh_comm a b := by
    have ha : leValue (leBytes 32 a) = a % 256 ^ 32 := leValue_leBytes 32 a
    have hb : leValue (leBytes 32 b) = b % 256 ^ 32 := leValue_leBytes 32 b
    change a % 256 ^ 32 + leValue (leBytes 32 b) = b % 256 ^ 32 + leValue (leBytes 32 a)
    rw [ha, hb, Nat.add_comm]
  decrypt_encrypt := by
    intro key nonce message aad ciphertext sealed
    cases Option.some.inj sealed
    have len : (message ++ countingTag key aad).length - 16 = message.length := by
      rw [List.length_append, countingTag_length, Nat.add_sub_cancel]
    simp only [len, List.take_left, List.drop_left, if_true]
  encrypt_length := by
    intro key nonce message aad ciphertext sealed
    cases Option.some.inj sealed
    rw [List.length_append, countingTag_length]

end Primitives

inductive CoreError where
  | crypto (text : String)
  deriving DecidableEq, Repr

def ascii (text : String) : Bytes := text.toUTF8.toList

/-- Shared constants of `protocol.rs`. -/
def ratchetKdfInfo : Bytes := ascii "EchoDoubleRatchet"
def x3dhHkdfInfo : Bytes := ascii "EchoSignalX3DH"
def maxSkip : UInt32 := 1000
def maxSkippedKeys : Nat := 2000

@[ext] structure MessageHeader where
  ratchetPublicKey : Block 32
  prevChainLength : UInt32
  messageNumber : UInt32
  deriving DecidableEq

namespace MessageHeader

/-- ratchet_public_key (32) || prev_chain_length (4 LE) || message_number (4 LE) -/
def serialize (h : MessageHeader) : Bytes :=
  h.ratchetPublicKey.toList ++ (u32Bytes h.prevChainLength ++ u32Bytes h.messageNumber)

def deserialize (data : Bytes) : Except CoreError MessageHeader :=
  if short : data.length < 40 then
    .error (.crypto "MessageHeader data too short (need 40 bytes)")
  else
    .ok {
      ratchetPublicKey := ⟨data.take 32, key_length short⟩
      prevChainLength := u32OfBytes ((data.drop 32).take 4)
      messageNumber := u32OfBytes ((data.drop 36).take 4) }

@[simp] theorem serialize_length (h : MessageHeader) : h.serialize.length = 40 := by
  simp [serialize]

theorem deserialize_serialize (h : MessageHeader) (rest : Bytes) :
    deserialize (h.serialize ++ rest) = .ok h := by
  have long : ¬ (h.serialize ++ rest).length < 40 := by simp
  have len : h.ratchetPublicKey.toList.length = 32 := h.ratchetPublicKey.2
  rw [deserialize, dif_neg long]
  refine congrArg Except.ok ?_
  have front : (h.ratchetPublicKey.toList ++ u32Bytes h.prevChainLength).length = 36 := by simp
  ext1
  · refine Subtype.ext ?_
    simp only [serialize, List.append_assoc]
    exact List.take_left' len
  · simp only [serialize, List.append_assoc]
    rw [List.drop_left' len, List.take_left' (u32Bytes_length _), u32OfBytes_u32Bytes]
  · simp only [serialize]
    rw [← List.append_assoc, List.append_assoc, List.drop_left' front,
      List.take_left' (u32Bytes_length _), u32OfBytes_u32Bytes]

theorem serialize_injective {g h : MessageHeader} (same : g.serialize = h.serialize) : g = h := by
  have hg := deserialize_serialize g []
  rw [same, deserialize_serialize] at hg
  exact (Except.ok.inj hg).symm

end MessageHeader
end Echo.Signal
