import Echo.Lib.Outcome
import Echo.Signal.Primitives
import Mathlib.Data.Finmap
import Mathlib.Logic.Function.Iterate

/-! The Double Ratchet of `ratchet.rs`. Randomness is passed in: `encrypt` takes the
nonce it would draw, and a call that may step the DH ratchet takes the fresh private
key it would generate. Counters are `u32` and wrap as in a release build. -/
namespace Echo.Signal
open Echo.Lib

section Kdf
variable (P : Primitives)

def chainKeySeed : UInt8 := 0x02
def messageKeySeed : UInt8 := 0x01

/-- The X3DH output both ratchets start from, `kdf` of `x3dh.rs`. -/
def x3dhSecret (outputs : List P.Key) : P.Key := P.hkdf P.zeroKey (.dh outputs) x3dhHkdfInfo 1 0

/-- New (root key, chain key) from the root key as salt and a DH output. -/
def kdfRk (rootKey dhOutput : P.Key) : P.Key × P.Key :=
  let okm := P.hkdf rootKey (.dh [dhOutput]) ratchetKdfInfo 2
  (okm 0, okm 1)

def kdfCk (chainKey : P.Key) : P.Key × P.Key :=
  let messageKey := P.hkdf chainKey (.seed messageKeySeed) (ascii "EchoMessageKey") 1 0
  let nextChainKey := P.hkdf chainKey (.seed chainKeySeed) (ascii "EchoChainKey") 1 0
  (nextChainKey, messageKey)

/-- The chain key after `n` messages, and the key of message `n`. -/
def chainAt (chainKey : P.Key) (n : Nat) : P.Key := (fun k => (kdfCk P k).1)^[n] chainKey
def messageKeyAt (chainKey : P.Key) (n : Nat) : P.Key := (kdfCk P (chainAt P chainKey n)).2

theorem chainAt_succ (chainKey : P.Key) (n : Nat) :
    chainAt P chainKey (n + 1) = (kdfCk P (chainAt P chainKey n)).1 :=
  Function.iterate_succ_apply' _ n chainKey

theorem chainAt_add (chainKey : P.Key) (m n : Nat) :
    chainAt P (chainAt P chainKey m) n = chainAt P chainKey (m + n) := by
  rw [chainAt, chainAt, chainAt, ← Function.iterate_add_apply, Nat.add_comm]

def encryptWithAd (key : P.Key) (nonce : Block 12) (plaintext ad : Bytes) : Except CoreError Bytes :=
  match P.aesGcmEncrypt key nonce plaintext ad with
  | none => .error (.crypto "AES-GCM encrypt failed: aead::Error")
  | some ciphertext => .ok (nonce.toList ++ ciphertext)

def decryptWithAd (key : P.Key) (ciphertext ad : Bytes) : Except CoreError Bytes :=
  if short : ciphertext.length < 12 + 16 then
    .error (.crypto "Ciphertext too short for AES-GCM (need >= 28 bytes)")
  else
    let nonce : Block 12 := ⟨ciphertext.take 12, nonce_length short⟩
    match P.aesGcmDecrypt key nonce (ciphertext.drop 12) ad with
    | none => .error (.crypto "AES-GCM decrypt failed: aead::Error")
    | some plaintext => .ok plaintext

theorem decryptWithAd_short (key : P.Key) {ciphertext : Bytes} (ad : Bytes)
    (short : ciphertext.length < 12 + 16) :
    decryptWithAd P key ciphertext ad =
      .error (.crypto "Ciphertext too short for AES-GCM (need >= 28 bytes)") := by
  rw [decryptWithAd, dif_pos short]

theorem encryptWithAd_ok {key : P.Key} {nonce : Block 12} {plaintext ad ciphertext : Bytes}
    (sealed : encryptWithAd P key nonce plaintext ad = .ok ciphertext) :
    ∃ body, P.aesGcmEncrypt key nonce plaintext ad = some body ∧
      ciphertext = nonce.toList ++ body := by
  rw [encryptWithAd] at sealed
  split at sealed
  · cases sealed
  · rename_i body found
    exact ⟨body, found, (Except.ok.inj sealed).symm⟩

theorem decryptWithAd_append (key : P.Key) (nonce : Block 12) (body ad : Bytes)
    (long : 16 ≤ body.length) :
    decryptWithAd P key (nonce.toList ++ body) ad =
      match P.aesGcmDecrypt key nonce body ad with
      | none => .error (.crypto "AES-GCM decrypt failed: aead::Error")
      | some plaintext => .ok plaintext := by
  have len : nonce.toList.length = 12 := nonce.2
  have enough : ¬ (nonce.toList ++ body).length < 12 + 16 := by
    rw [List.length_append, len]
    omega
  have front : (⟨(nonce.toList ++ body).take 12, by simp [len]⟩ : Block 12) = nonce :=
    Subtype.ext (List.take_left' len)
  rw [decryptWithAd, dif_neg enough]
  simp only [front, List.drop_left' len]

theorem decrypt_encrypt_withAd (lawful : P.Lawful) {key : P.Key} {nonce : Block 12}
    {plaintext ad ciphertext : Bytes}
    (sealed : encryptWithAd P key nonce plaintext ad = .ok ciphertext) :
    decryptWithAd P key ciphertext ad = .ok plaintext := by
  obtain ⟨body, found, rfl⟩ := encryptWithAd_ok P sealed
  have long : 16 ≤ body.length := by
    rw [lawful.encrypt_length found]
    omega
  rw [decryptWithAd_append P key nonce body ad long, lawful.decrypt_encrypt found]

end Kdf

/-- `u32::saturating_add`. -/
def saturatingAdd (a b : UInt32) : UInt32 :=
  if a.toNat + b.toNat < 2 ^ 32 then a + b else 0xFFFFFFFF

theorem saturatingAdd_lt (a b c : UInt32) :
    saturatingAdd a b < c ↔ a.toNat + b.toNat < c.toNat := by
  have top : c.toNat < 2 ^ 32 := c.toNat_lt
  rw [UInt32.lt_iff_toNat_lt, saturatingAdd]
  split
  · rename_i fits
    rw [UInt32.toNat_add, Nat.mod_eq_of_lt fits]
  · have all : (0xFFFFFFFF : UInt32).toNat = 4294967295 := rfl
    rw [all]
    omega

abbrev SkippedKeys (P : Primitives) := Finmap (fun _ : Block 32 × UInt32 => P.Key)

@[ext] structure RatchetState (P : Primitives) where
  rootKey : P.Key
  sendingChainKey : P.Key
  receivingChainKey : Option P.Key
  sendingRatchetPrivate : P.Secret
  sendingRatchetPublic : Block 32
  receivingRatchetKey : Option (Block 32)
  sendCounter : UInt32
  recvCounter : UInt32
  prevSendCounter : UInt32
  skippedKeys : SkippedKeys P

namespace RatchetState
variable {P : Primitives}

/-- The map behind `HashMap::len`. -/
def skippedLen (s : RatchetState P) : Nat := s.skippedKeys.keys.card

def initAlice (fresh : P.Secret) (sharedSecret : P.Key) (bobRatchetPublic : Block 32) :
    RatchetState P :=
  let (rootKey, sendingChainKey) := kdfRk P sharedSecret (P.diffieHellman fresh bobRatchetPublic)
  { rootKey, sendingChainKey
    receivingChainKey := none
    sendingRatchetPrivate := fresh
    sendingRatchetPublic := P.publicKey fresh
    receivingRatchetKey := some bobRatchetPublic
    sendCounter := 0
    recvCounter := 0
    prevSendCounter := 0
    skippedKeys := ∅ }

def initBob (sharedSecret : P.Key) (bobRatchetPrivate : P.Secret) : RatchetState P where
  rootKey := sharedSecret
  sendingChainKey := P.zeroKey
  receivingChainKey := none
  sendingRatchetPrivate := bobRatchetPrivate
  sendingRatchetPublic := P.publicKey bobRatchetPrivate
  receivingRatchetKey := none
  sendCounter := 0
  recvCounter := 0
  prevSendCounter := 0
  skippedKeys := ∅

/-- The chain and the counter have advanced by the time AES-GCM may fail. -/
def encrypt (s : RatchetState P) (nonce : Block 12) (plaintext : Bytes) :
    Outcome CoreError (RatchetState P) (Bytes × MessageHeader) :=
  let (newChainKey, messageKey) := kdfCk P s.sendingChainKey
  let header : MessageHeader :=
    { ratchetPublicKey := s.sendingRatchetPublic
      prevChainLength := s.prevSendCounter
      messageNumber := s.sendCounter }
  let after := { s with sendingChainKey := newChainKey, sendCounter := s.sendCounter + 1 }
  match encryptWithAd P messageKey nonce plaintext header.serialize with
  | .ok ciphertext => (.ok (ciphertext, header), after)
  | .error e => (.error e, after)

def dhRatchetStep (s : RatchetState P) (fresh : P.Secret) (newPeerRatchetKey : Block 32) :
    RatchetState P :=
  let dhRecv := P.diffieHellman s.sendingRatchetPrivate newPeerRatchetKey
  let (rootKey, receivingChainKey) := kdfRk P s.rootKey dhRecv
  let dhSend := P.diffieHellman fresh newPeerRatchetKey
  let (rootKey, sendingChainKey) := kdfRk P rootKey dhSend
  { rootKey, sendingChainKey
    receivingChainKey := some receivingChainKey
    sendingRatchetPrivate := fresh
    sendingRatchetPublic := P.publicKey fresh
    receivingRatchetKey := some newPeerRatchetKey
    sendCounter := 0
    recvCounter := 0
    prevSendCounter := s.sendCounter
    skippedKeys := s.skippedKeys }

/-- The slot a key skipped now is stored under: `unwrap_or([0u8; 32])` on the peer's key. -/
def receivingSlot (s : RatchetState P) : Block 32 :=
  s.receivingRatchetKey.getD ⟨List.replicate 32 0, zeros32_length⟩

/-- One turn of the skip loop: store the key of message `recvCounter` and move past it. -/
def storeSkippedKey (s : RatchetState P) : RatchetState P :=
  match s.receivingChainKey with
  | none => s
  | some chainKey =>
    let (newCk, messageKey) := kdfCk P chainKey
    { s with
      skippedKeys := s.skippedKeys.insert (s.receivingSlot, s.recvCounter) messageKey
      receivingChainKey := some newCk
      recvCounter := s.recvCounter + 1 }

/-- The `while` loop; `fuel` is the number of turns left to reach the target. -/
def skipLoop (target : UInt32) : Nat → RatchetState P → Outcome CoreError (RatchetState P) Unit
  | 0, s => (.ok (), s)
  | fuel + 1, s =>
    if s.recvCounter < target then
      if s.skippedLen ≥ maxSkippedKeys then
        (.error (.crypto ("Skipped-keys map full (" ++ toString maxSkippedKeys ++
          "); refusing to grow")), s)
      else skipLoop target fuel s.storeSkippedKey
    else (.ok (), s)

def skipMessageKeys (s : RatchetState P) (target : UInt32) :
    Outcome CoreError (RatchetState P) Unit :=
  if saturatingAdd s.recvCounter maxSkip < target then
    (.error (.crypto ("Too many skipped messages (recv_counter=" ++ toString s.recvCounter ++
      ", target=" ++ toString target ++ ")")), s)
  else
    match s.receivingChainKey with
    | none => (.ok (), s)
    | some _ => skipLoop target (target.toNat - s.recvCounter.toNat) s

def needDhRatchet (s : RatchetState P) (header : MessageHeader) : Bool :=
  match s.receivingRatchetKey with
  | none => true
  | some current => current != header.ratchetPublicKey

/-- The DH part of `decrypt`: finish the current receiving chain, then step. -/
def turnRatchet (s : RatchetState P) (fresh : P.Secret) (header : MessageHeader) :
    Outcome CoreError (RatchetState P) Unit :=
  if s.needDhRatchet header then
    let finished :=
      if s.receivingChainKey.isSome then s.skipMessageKeys header.prevChainLength else (.ok (), s)
    Outcome.andThen finished fun _ s => (.ok (), s.dhRatchetStep fresh header.ratchetPublicKey)
  else (.ok (), s)

/-- The last part of `decrypt` before the AEAD: the key of message `recvCounter`. -/
def advanceReceiving (s : RatchetState P) : Outcome CoreError (RatchetState P) P.Key :=
  match s.receivingChainKey with
  | none => (.error (.crypto "No receiving chain key"), s)
  | some receivingChain =>
    let (newChainKey, messageKey) := kdfCk P receivingChain
    (.ok messageKey,
      { s with receivingChainKey := some newChainKey, recvCounter := s.recvCounter + 1 })

/-- All `decrypt` does to the state; the ciphertext has not been looked at. -/
def takeMessageKey (s : RatchetState P) (fresh : P.Secret) (header : MessageHeader) :
    Outcome CoreError (RatchetState P) P.Key :=
  let slot := (header.ratchetPublicKey, header.messageNumber)
  match s.skippedKeys.lookup slot with
  | some messageKey => (.ok messageKey, { s with skippedKeys := s.skippedKeys.erase slot })
  | none =>
    Outcome.andThen (s.turnRatchet fresh header) fun _ s =>
      Outcome.andThen (s.skipMessageKeys header.messageNumber) fun _ s => s.advanceReceiving

def decrypt (s : RatchetState P) (fresh : P.Secret) (header : MessageHeader) (ciphertext : Bytes) :
    Outcome CoreError (RatchetState P) Bytes :=
  Outcome.andThen (s.takeMessageKey fresh header) fun messageKey s =>
    (decryptWithAd P messageKey ciphertext header.serialize, s)

theorem encrypt_state (s : RatchetState P) (nonce : Block 12) (plaintext : Bytes) :
    (s.encrypt nonce plaintext).2 = { s with
      sendingChainKey := (kdfCk P s.sendingChainKey).1, sendCounter := s.sendCounter + 1 } := by
  simp only [encrypt]
  split <;> rfl

theorem encrypt_ok {s : RatchetState P} {nonce : Block 12} {plaintext ciphertext : Bytes}
    {header : MessageHeader} (sealed : (s.encrypt nonce plaintext).1 = .ok (ciphertext, header)) :
    header = ⟨s.sendingRatchetPublic, s.prevSendCounter, s.sendCounter⟩ ∧
      encryptWithAd P (kdfCk P s.sendingChainKey).2 nonce plaintext header.serialize = .ok ciphertext := by
  simp only [encrypt] at sealed
  split at sealed
  · rename_i body found
    obtain ⟨rfl, rfl⟩ := Prod.mk.inj (Except.ok.inj sealed)
    exact ⟨rfl, found⟩
  · cases sealed

theorem takeMessageKey_stored {s : RatchetState P} {header : MessageHeader} {messageKey : P.Key}
    (stored : s.skippedKeys.lookup (header.ratchetPublicKey, header.messageNumber) = some messageKey)
    (fresh : P.Secret) :
    s.takeMessageKey fresh header = (.ok messageKey, { s with
      skippedKeys := s.skippedKeys.erase (header.ratchetPublicKey, header.messageNumber) }) := by
  simp only [takeMessageKey, stored]

theorem takeMessageKey_unstored {s : RatchetState P} {header : MessageHeader}
    (unstored : s.skippedKeys.lookup (header.ratchetPublicKey, header.messageNumber) = none)
    (fresh : P.Secret) :
    s.takeMessageKey fresh header =
      Outcome.andThen (s.turnRatchet fresh header) fun _ s =>
        Outcome.andThen (s.skipMessageKeys header.messageNumber) fun _ s => s.advanceReceiving := by
  simp only [takeMessageKey, unstored]

theorem needDhRatchet_iff (s : RatchetState P) (header : MessageHeader) :
    s.needDhRatchet header = true ↔ s.receivingRatchetKey ≠ some header.ratchetPublicKey := by
  unfold needDhRatchet
  cases s.receivingRatchetKey <;> simp

theorem decrypt_state (s : RatchetState P) (fresh : P.Secret) (header : MessageHeader)
    (ciphertext : Bytes) :
    (s.decrypt fresh header ciphertext).2 = (s.takeMessageKey fresh header).2 := by
  rw [decrypt]
  rcases s.takeMessageKey fresh header with ⟨r, t⟩
  cases r <;> rfl

/- Calls on one ratchet, in any order, with their replies. -/
inductive Op (P : Primitives) where
  | encrypt (nonce : Block 12) (plaintext : Bytes)
  | decrypt (fresh : P.Secret) (header : MessageHeader) (ciphertext : Bytes)

inductive Reply where
  | wire (r : Except CoreError (Bytes × MessageHeader))
  | plaintext (r : Except CoreError Bytes)

def apply (s : RatchetState P) : Op P → Reply × RatchetState P
  | .encrypt nonce plaintext =>
    let (r, after) := s.encrypt nonce plaintext
    (.wire r, after)
  | .decrypt fresh header ciphertext =>
    let (r, after) := s.decrypt fresh header ciphertext
    (.plaintext r, after)

def afterOps (s : RatchetState P) (ops : List (Op P)) : RatchetState P :=
  ops.foldl (fun s op => (s.apply op).2) s

theorem afterOps_decrypt (s : RatchetState P) (fresh : P.Secret) (header : MessageHeader)
    (ciphertext : Bytes) (ops : List (Op P)) :
    s.afterOps (.decrypt fresh header ciphertext :: ops) =
      (s.takeMessageKey fresh header).2.afterOps ops := by
  rw [← decrypt_state s fresh header ciphertext]
  rfl

def replies : RatchetState P → List (Op P) → List Reply
  | _, [] => []
  | s, op :: ops => (s.apply op).1 :: replies (s.apply op).2 ops

end RatchetState
end Echo.Signal
