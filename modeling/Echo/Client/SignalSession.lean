import Echo.Signal.Session

/-! The Double Ratchet of the Flutter client, `signal_session.dart`. Counters are Dart
integers, which do not wrap; skipped keys are held under a printed id. -/
namespace Echo.Client
open Echo.Lib Echo.Signal

inductive Thrown where
  | exception (text : String)
  | secretBoxAuthentication
  /-- `FormatException` of a decoder. -/
  | format
  /-- A JSON field is not of the type it is cast to. -/
  | typeError
  /-- An X25519 key that is not 32 bytes. -/
  | argument
  /-- A failed write; a failed read is told apart. -/
  | platform
  | storageUnavailable
  | sessionStorageUnavailable (sessionKey : String)
  | identityKeyChanged (peerUserId oldIdentityKeyB64 newIdentityKeyB64 : String)
  | initialDecryptFailed (peerUserId : String)
  deriving DecidableEq

def maxSkip : Nat := 1000

section
variable (P : Primitives)

def encryptWithAd (key : P.Key) (nonce : Block 12) (plaintext ad : Bytes) : Except Thrown Bytes :=
  match P.aesGcmEncrypt key nonce plaintext ad with
  | none => .error (.exception "AES-GCM encrypt failed")
  | some ciphertext => .ok (nonce.toList ++ ciphertext)

def decryptWithAd (key : P.Key) (ciphertext ad : Bytes) : Except Thrown Bytes :=
  if short : ciphertext.length < 12 + 16 then
    .error (.exception ("Ciphertext too short for AES-GCM (need >= 28 bytes, got " ++
      toString ciphertext.length ++ ")"))
  else
    let nonce : Block 12 := ⟨ciphertext.take 12, nonce_length short⟩
    match P.aesGcmDecrypt key nonce (ciphertext.drop 12) ad with
    | none => .error .secretBoxAuthentication
    | some plaintext => .ok plaintext

end

structure MessageHeader where
  ratchetPublicKey : Block 32
  prevChainLength : Nat
  messageNumber : Nat

namespace MessageHeader

/-- `setUint32` keeps the low 32 bits. -/
def serialize (h : MessageHeader) : Bytes :=
  h.ratchetPublicKey.toList ++ (leBytes 4 h.prevChainLength ++ leBytes 4 h.messageNumber)

def deserialize (data : Bytes) : Except Thrown MessageHeader :=
  if short : data.length < 40 then
    .error (.exception ("MessageHeader data too short (need 40 bytes, got " ++
      toString data.length ++ ")"))
  else
    .ok {
      ratchetPublicKey := ⟨data.take 32, key_length short⟩
      prevChainLength := leValue ((data.drop 32).take 4)
      messageNumber := leValue ((data.drop 36).take 4) }

end MessageHeader

structure SignalSession (P : Primitives) where
  rootKey : P.Key
  sendChainKey : P.Key
  recvChainKey : Option P.Key
  sendRatchetKeyPair : P.Secret
  sendRatchetPublic : Block 32
  recvRatchetKey : Option (Block 32)
  sendCounter : Nat
  recvCounter : Nat
  prevSendCounter : Nat
  skippedKeys : Finmap (fun _ : String => P.Key)
  established : Bool

def skippedKeyId (ratchetPubKey : Block 32) (messageNumber : Nat) : String :=
  String.ofList (hexDigits ratchetPubKey.toList) ++ ":" ++ toString messageNumber

theorem skippedKeyId_injective {peer peer' : Block 32} {n n' : Nat}
    (same : skippedKeyId peer n = skippedKeyId peer' n') : peer = peer' ∧ n = n' := by
  have chars := congrArg String.toList same
  simp only [skippedKeyId, String.toList_append, String.toList_ofList, List.append_assoc] at chars
  have lengths : (hexDigits peer.toList).length = (hexDigits peer'.toList).length := by
    rw [hexDigits_length, hexDigits_length, List.Vector.toList_length, List.Vector.toList_length]
  obtain ⟨front, back⟩ := List.append_inj chars lengths
  have digits : Nat.toDigits 10 n = Nat.toDigits 10 n' := by
    rw [← Nat.toList_repr, ← Nat.toList_repr]
    exact List.append_cancel_left back
  have numbers := congrArg (fun digits => Nat.ofDigitChars 10 digits 0) digits
  simp only [Nat.ofDigitChars_toDigits (by decide : 1 < 10) (by decide : 10 ≤ 10)] at numbers
  exact ⟨Subtype.ext (hexDigits_injective front), numbers⟩

namespace SignalSession
variable {P : Primitives}

def initAlice (fresh : P.Secret) (sharedSecret : P.Key) (bobRatchetPublic : Block 32) :
    SignalSession P :=
  let (rootKey, sendChainKey) := kdfRk P sharedSecret (P.diffieHellman fresh bobRatchetPublic)
  { rootKey, sendChainKey
    recvChainKey := none
    sendRatchetKeyPair := fresh
    sendRatchetPublic := P.publicKey fresh
    recvRatchetKey := some bobRatchetPublic
    sendCounter := 0
    recvCounter := 0
    prevSendCounter := 0
    skippedKeys := ∅
    established := true }

def initBob (sharedSecret : P.Key) (bobRatchetKeyPair : P.Secret) : SignalSession P where
  rootKey := sharedSecret
  sendChainKey := P.zeroKey
  recvChainKey := none
  sendRatchetKeyPair := bobRatchetKeyPair
  sendRatchetPublic := P.publicKey bobRatchetKeyPair
  recvRatchetKey := none
  sendCounter := 0
  recvCounter := 0
  prevSendCounter := 0
  skippedKeys := ∅
  established := true

def encrypt (s : SignalSession P) (nonce : Block 12) (plaintext : Bytes) :
    Outcome Thrown (SignalSession P) Bytes :=
  if s.established then
    let (newChainKey, messageKey) := kdfCk P s.sendChainKey
    let header : MessageHeader := ⟨s.sendRatchetPublic, s.prevSendCounter, s.sendCounter⟩
    let after := { s with sendChainKey := newChainKey, sendCounter := s.sendCounter + 1 }
    match encryptWithAd P messageKey nonce plaintext header.serialize with
    | .ok ciphertext =>
      (.ok (leBytes 4 header.serialize.length ++ (header.serialize ++ ciphertext)), after)
    | .error e => (.error e, after)
  else (.error (.exception "Session not established"), s)

def dhRatchetStep (s : SignalSession P) (fresh : P.Secret) (newPeerRatchetKey : Block 32) :
    SignalSession P :=
  let dhRecv := P.diffieHellman s.sendRatchetKeyPair newPeerRatchetKey
  let (rootKey1, recvChainKey1) := kdfRk P s.rootKey dhRecv
  let dhSend := P.diffieHellman fresh newPeerRatchetKey
  let (rootKey2, sendChainKey1) := kdfRk P rootKey1 dhSend
  { s with
    prevSendCounter := s.sendCounter
    sendCounter := 0
    recvCounter := 0
    recvRatchetKey := some newPeerRatchetKey
    recvChainKey := some recvChainKey1
    sendRatchetKeyPair := fresh
    sendRatchetPublic := P.publicKey fresh
    rootKey := rootKey2
    sendChainKey := sendChainKey1 }

def recvSlot (s : SignalSession P) : Block 32 :=
  s.recvRatchetKey.getD ⟨List.replicate 32 0, zeros32_length⟩

def storeSkippedKey (s : SignalSession P) : SignalSession P :=
  match s.recvChainKey with
  | none => s
  | some chainKey =>
    let (newCk, messageKey) := kdfCk P chainKey
    { s with
      skippedKeys := s.skippedKeys.insert (skippedKeyId s.recvSlot s.recvCounter) messageKey
      recvChainKey := some newCk
      recvCounter := s.recvCounter + 1 }

/-- The `while` loop; nothing bounds the map. -/
def skipLoop (target : Nat) : Nat → SignalSession P → SignalSession P
  | 0, s => s
  | fuel + 1, s => if s.recvCounter < target then skipLoop target fuel s.storeSkippedKey else s

def skipMessageKeys (s : SignalSession P) (target : Nat) : Outcome Thrown (SignalSession P) Unit :=
  if s.recvCounter + maxSkip < target then
    (.error (.exception ("Too many skipped messages (recv_counter=" ++ toString s.recvCounter ++
      ", target=" ++ toString target ++ ")")), s)
  else
    match s.recvChainKey with
    | none => (.ok (), s)
    | some _ => (.ok (), skipLoop target (target - s.recvCounter) s)

def needDhRatchet (s : SignalSession P) (header : MessageHeader) : Bool :=
  match s.recvRatchetKey with
  | none => true
  | some current => !(current.toList == header.ratchetPublicKey.toList)

def turnRatchet (s : SignalSession P) (fresh : P.Secret) (header : MessageHeader) :
    Outcome Thrown (SignalSession P) Unit :=
  if s.needDhRatchet header then
    let finished :=
      if s.recvChainKey.isSome then s.skipMessageKeys header.prevChainLength else (.ok (), s)
    Outcome.andThen finished fun _ s => (.ok (), s.dhRatchetStep fresh header.ratchetPublicKey)
  else (.ok (), s)

def advanceReceiving (s : SignalSession P) : Outcome Thrown (SignalSession P) P.Key :=
  match s.recvChainKey with
  | none => (.error (.exception "No receiving chain key"), s)
  | some chainKey =>
    let (newChainKey, messageKey) := kdfCk P chainKey
    (.ok messageKey, { s with recvChainKey := some newChainKey, recvCounter := s.recvCounter + 1 })

def takeMessageKey (s : SignalSession P) (fresh : P.Secret) (header : MessageHeader) :
    Outcome Thrown (SignalSession P) P.Key :=
  let skipKey := skippedKeyId header.ratchetPublicKey header.messageNumber
  match s.skippedKeys.lookup skipKey with
  | some messageKey => (.ok messageKey, { s with skippedKeys := s.skippedKeys.erase skipKey })
  | none =>
    Outcome.andThen (s.turnRatchet fresh header) fun _ s =>
      Outcome.andThen (s.skipMessageKeys header.messageNumber) fun _ s => s.advanceReceiving

def unframe (data : Bytes) : Except Thrown (MessageHeader × Bytes) :=
  if data.length < 4 then .error (.exception "Encrypted message too short")
  else
    let headerLen := leValue (data.take 4)
    if data.length < 4 + headerLen then
      .error (.exception "Encrypted message shorter than declared header")
    else do
      let header ← MessageHeader.deserialize ((data.drop 4).take headerLen)
      .ok (header, data.drop (4 + headerLen))

def decrypt (s : SignalSession P) (fresh : P.Secret) (data : Bytes) :
    Outcome Thrown (SignalSession P) Bytes :=
  if s.established then
    match unframe data with
    | .error e => (.error e, s)
    | .ok (header, ciphertext) =>
      Outcome.andThen (s.takeMessageKey fresh header) fun messageKey s =>
        (decryptWithAd P messageKey ciphertext header.serialize, s)
  else (.error (.exception "Session not established"), s)

theorem storeSkippedKey_established (s : SignalSession P) :
    s.storeSkippedKey.established = s.established := by
  unfold storeSkippedKey
  split <;> rfl

theorem skipLoop_established (target fuel : Nat) (s : SignalSession P) :
    (skipLoop target fuel s).established = s.established := by
  induction fuel generalizing s with
  | zero => rfl
  | succ fuel ih =>
    unfold skipLoop
    split
    · rw [ih, storeSkippedKey_established]
    · rfl

theorem skipMessageKeys_established (s : SignalSession P) (target : Nat) :
    (s.skipMessageKeys target).2.established = s.established := by
  unfold skipMessageKeys
  split
  · rfl
  · split
    · rfl
    · exact skipLoop_established _ _ s

theorem turnRatchet_established (s : SignalSession P) (fresh : P.Secret) (header : MessageHeader) :
    (s.turnRatchet fresh header).2.established = s.established := by
  unfold turnRatchet
  split
  · refine Outcome.andThen_state _ _ (fun t : SignalSession P => t.established = s.established) ?_ ?_
    · split
      · exact skipMessageKeys_established s _
      · rfl
    · intro _ t same
      exact same
  · rfl

theorem advanceReceiving_established (s : SignalSession P) :
    s.advanceReceiving.2.established = s.established := by
  unfold advanceReceiving
  split <;> rfl

theorem takeMessageKey_established (s : SignalSession P) (fresh : P.Secret) (header : MessageHeader) :
    (s.takeMessageKey fresh header).2.established = s.established := by
  unfold takeMessageKey
  simp only
  split
  · rfl
  · refine Outcome.andThen_state _ _ (fun t : SignalSession P => t.established = s.established)
      (turnRatchet_established s fresh header) ?_
    intro _ t turned
    refine Outcome.andThen_state _ _ (fun t : SignalSession P => t.established = s.established) ?_ ?_
    · rw [skipMessageKeys_established, turned]
    · intro _ u same
      rw [advanceReceiving_established, same]

theorem skipLoop_chain (target fuel : Nat) (s : SignalSession P) (chain : s.recvChainKey.isSome = true) :
    (skipLoop target fuel s).recvChainKey.isSome = true := by
  induction fuel generalizing s with
  | zero => exact chain
  | succ fuel ih =>
    unfold skipLoop
    split
    · refine ih _ ?_
      obtain ⟨chainKey, found⟩ := Option.isSome_iff_exists.mp chain
      rw [storeSkippedKey, found]
      rfl
    · exact chain

theorem takeMessageKey_current (s : SignalSession P) (fresh : P.Secret) (header : MessageHeader)
    (unstored : s.skippedKeys.lookup (skippedKeyId header.ratchetPublicKey header.messageNumber) = none)
    (current : s.needDhRatchet header = false) (chain : s.recvChainKey.isSome = true)
    (near : ¬ s.recvCounter + maxSkip < header.messageNumber) :
    ∃ key, (s.takeMessageKey fresh header).1 = .ok key := by
  obtain ⟨chainKey, found⟩ := Option.isSome_iff_exists.mp chain
  have after := skipLoop_chain header.messageNumber (header.messageNumber - s.recvCounter) s chain
  obtain ⟨lastKey, last⟩ := Option.isSome_iff_exists.mp after
  have turned : s.turnRatchet fresh header = (.ok (), s) := by
    rw [turnRatchet, current]
    rfl
  have skipped : s.skipMessageKeys header.messageNumber =
      (.ok (), skipLoop header.messageNumber (header.messageNumber - s.recvCounter) s) := by
    rw [skipMessageKeys, if_neg near, found]
  unfold takeMessageKey
  simp only [unstored]
  rw [turned, Outcome.andThen_ok, skipped, Outcome.andThen_ok, advanceReceiving, last]
  exact ⟨_, rfl⟩

end SignalSession
end Echo.Client
