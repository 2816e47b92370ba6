import Echo.Client.Service

/-! The calls of `crypto_service.dart` and its extensions that create, use and drop sessions.
A `pause` stands where the Dart code awaits. The service is initialised: it holds its keys.
Telemetry, write-intent markers and the upload of new prekeys are left out. -/
namespace Echo.Client
open Echo.Lib Echo.Signal

variable {P : Primitives}

structure OwnKeys (P : Primitives) where
  deviceId : Int
  identity : P.Secret
  signedPrekey : P.Secret
  previousPrekey : Option P.Secret

section Requests

abbrev ask (r : Request P) : Dart P (Answer r) := Async.ask (M := machine P) r

abbrev throw {β : Type} (e : Thrown) : Dart P β := Async.throw e

abbrev pause : Dart P Unit := Async.pause

def need {β : Type} : Option β → Dart P β
  | some value => pure value
  | none => throw .typeError

def base64Decoded (text : String) : Dart P Bytes :=
  match base64Decode text with
  | some bytes => pure bytes
  | none => throw .format

def utf8Decoded (data : Bytes) : Dart P String :=
  match ofUtf8 data with
  | some text => pure text
  | none => throw .format

def returned {β : Type} : Except Thrown β → Dart P β
  | .ok value => pure value
  | .error e => throw e

def x25519Key (bytes : Bytes) : Dart P (Block 32) :=
  if exact : bytes.length = 32 then pure ⟨bytes, exact⟩ else throw .argument

def readSession (slot : Slot) : Dart P (Option (SignalSession P)) := do
  let value ← ask (.readSession slot)
  pause
  returned value

def deleteSession (slot : Slot) : Dart P Unit := do
  ask (.deleteSession slot)
  pause

def readIdentity (peer : String) : Dart P (Option String) := do
  let value ← ask (.readIdentity peer)
  pause
  returned value

def newKeyPair : Dart P P.Secret := do
  let fresh ← ask .newKeyPair
  pause
  pure fresh

end Requests

section Sessions

/-- `toJson` reads the private key before its await and the other fields after it. -/
def saveSession (slot : Slot) (session : Nat) : Dart P Unit := do
  let early ← ask (.load session)
  pause
  let late ← ask (.load session)
  pause
  let result ← ask (.writeSession slot { late with sendRatchetKeyPair := early.sendRatchetKeyPair })
  pause
  returned result

def reloadSession (slot : Slot) : Dart P (Option Nat) :=
  Async.catching
    (do
      match ← readSession slot with
      | none => pure none
      | some state =>
        let session ← ask (.new state)
        ask (.put slot session)
        pure (some session))
    fun e => if e = .storageUnavailable then throw e else pure none

/-- `SignalSession.encrypt` on a session that others may hold too. -/
def sessionEncrypt (session : Nat) (plaintext : Bytes) : Dart P Bytes := do
  let s ← ask (.load session)
  if s.established then
    let keys := kdfCk P s.sendChainKey
    pause
    let s ← ask (.load session)
    let header : MessageHeader := ⟨s.sendRatchetPublic, s.prevSendCounter, s.sendCounter⟩
    ask (.assign session { s with sendChainKey := keys.1, sendCounter := s.sendCounter + 1 })
    let result ← ask (.encryptWithAd keys.2 plaintext header.serialize)
    pause
    let ciphertext ← returned result
    pure (leBytes 4 header.serialize.length ++ (header.serialize ++ ciphertext))
  else throw (.exception "Session not established")

/-- `SignalSession.decrypt` in place. -/
def sessionDecrypt (session : Nat) (data : Bytes) : Dart P Bytes := do
  let fresh ← newKeyPair
  let s ← ask (.load session)
  let result := s.decrypt fresh data
  ask (.assign session result.2)
  pause
  returned result.1

/-- `_decryptNormalInIsolate`: the ratchet step is made on a copy. -/
def decryptNormalInIsolate (s : SignalSession P) (data : Bytes) : Dart P (Bytes × SignalSession P) := do
  let fresh ← newKeyPair
  let result := s.decrypt fresh data
  let plaintext ← returned result.1
  pure (plaintext, result.2)

end Sessions

section Handshake

structure X3dhInitResult (P : Primitives) where
  sharedSecret : P.Key
  ephemeralPublic : Block 32

structure SessionInfo (P : Primitives) where
  session : Nat
  x3dhResult : Option (X3dhInitResult P)
  otpKeyId : Option Int

namespace X3DH

def initiate (aliceIdentity ephemeral : P.Secret) (bobIdentityKey bobSignedPrekey : Block 32)
    (bobOneTimePrekey : Option (Block 32)) : X3dhInitResult P where
  sharedSecret := x3dhSecret P
    ([P.diffieHellman aliceIdentity bobSignedPrekey, P.diffieHellman ephemeral bobIdentityKey,
      P.diffieHellman ephemeral bobSignedPrekey] ++
      (bobOneTimePrekey.map (P.diffieHellman ephemeral)).toList)
  ephemeralPublic := P.publicKey ephemeral

def respond (bobIdentity bobSignedPrekey : P.Secret) (bobOneTimePrekey : Option P.Secret)
    (aliceIdentityKey aliceEphemeralKey : Block 32) : P.Key :=
  x3dhSecret P
    ([P.diffieHellman bobSignedPrekey aliceIdentityKey, P.diffieHellman bobIdentity aliceEphemeralKey,
      P.diffieHellman bobSignedPrekey aliceEphemeralKey] ++
      (bobOneTimePrekey.map fun otp => P.diffieHellman otp aliceEphemeralKey).toList)

end X3DH

def storePeerIdentityKeyTofu (peer newKeyB64 : String) : Dart P Unit := do
  match ← readIdentity peer with
  | none =>
    let result ← ask (.writeIdentity peer newKeyB64)
    pause
    returned result
  | some existing =>
    if existing = newKeyB64 then
      ask (.deletePending peer)
      pause
    else
      let result ← ask (.writePending peer newKeyB64)
      pause
      returned result
      let result ← ask (.writeChanged peer)
      pause
      returned result

/-- From the one-time prekey of the bundle to the saved session: the end of both ways to
create one. -/
def establish (keys : OwnKeys P) (slot : Slot) (bundle : Bundle) (identityKey signedPrekey : Bytes) :
    Dart P (SessionInfo P) := do
  let otp ← match bundle.oneTimePrekey.bind OneTimePrekey.publicKey with
    | none => pure none
    | some text => do
      let bytes ← base64Decoded text
      pure (some bytes)
  let ephemeral ← ask (.initiate slot.peer bundle)
  pause
  let signedPrekey ← x25519Key signedPrekey
  let identityKey ← x25519Key identityKey
  let otp ← match otp with
    | none => pure none
    | some bytes => do
      let key ← x25519Key bytes
      pure (some key)
  let x3dhResult := X3DH.initiate keys.identity ephemeral identityKey signedPrekey otp
  let fresh ← newKeyPair
  let session ← ask (.new (SignalSession.initAlice fresh x3dhResult.sharedSecret signedPrekey))
  ask (.put slot session)
  saveSession slot session
  pure ⟨session, some x3dhResult, bundle.oneTimePrekey.bind OneTimePrekey.keyId⟩

def verifySignedPrekey (signedPrekey : Bytes) (signingKeyB64 signatureB64 failed : String) : Dart P Unit := do
  let signingKey ← base64Decoded signingKeyB64
  let signature ← base64Decoded signatureB64
  pause
  if P.ed25519Verify signedPrekey signature signingKey then pure () else throw (.exception failed)

def getOrCreateSession (keys : OwnKeys P) (peer : String) : Dart P (SessionInfo P) := do
  let slot := Slot.legacy peer
  match ← ask (.get slot) with
  | some session => pure ⟨session, none, none⟩
  | none =>
  match ← reloadSession slot with
  | some session => pure ⟨session, none, none⟩
  | none =>
  let response ← ask (.fetchBundle peer)
  pause
  if response.statusCode = 401 then throw (.exception ("Auth expired fetching keys for " ++ peer)) else
  if response.statusCode ≠ 200 then throw (.exception ("Failed to fetch keys for " ++ peer)) else
  match response.body with
  | none => throw .format
  | some bundle =>
  let identityKeyB64 ← need bundle.identityKey
  let identityKey ← base64Decoded identityKeyB64
  let signedPrekeyB64 ← need bundle.signedPrekey
  let signedPrekey ← base64Decoded signedPrekeyB64
  match bundle.signingKey, bundle.signedPrekeySignature with
  | some signingKeyB64, some signatureB64 =>
    verifySignedPrekey signedPrekey signingKeyB64 signatureB64
      ("Signed prekey signature verification failed for " ++ peer ++ " -- possible MITM attack")
    match ← readIdentity peer with
    | some existing =>
      if existing ≠ identityKeyB64 then
        let result ← ask (.writeChanged peer)
        pause
        returned result
        throw (.identityKeyChanged peer existing identityKeyB64)
      else
        storePeerIdentityKeyTofu peer identityKeyB64
        establish keys slot bundle identityKey signedPrekey
    | none =>
      storePeerIdentityKeyTofu peer identityKeyB64
      establish keys slot bundle identityKey signedPrekey
  | _, _ =>
    throw (.exception ("Prekey bundle for " ++ peer ++ " is missing signing_key or " ++
      "signed_prekey_signature -- cannot verify prekey authenticity"))

/-- A missing signature is not checked here, and a changed identity does not stop the call. -/
def getOrCreateSessionForDevice (keys : OwnKeys P) (peer : String) (deviceId : Int) (bundle : Bundle) :
    Dart P (SessionInfo P) := do
  let slot : Slot := ⟨peer, some deviceId⟩
  match ← ask (.get slot) with
  | some session => pure ⟨session, none, none⟩
  | none =>
  match ← reloadSession slot with
  | some session => pure ⟨session, none, none⟩
  | none =>
  match ← ask (.get (.legacy peer)) with
  | some session => pure ⟨session, none, none⟩
  | none =>
  match ← reloadSession (.legacy peer) with
  | some session => pure ⟨session, none, none⟩
  | none =>
  let identityKeyB64 ← need bundle.identityKey
  let identityKey ← base64Decoded identityKeyB64
  let signedPrekeyB64 ← need bundle.signedPrekey
  let signedPrekey ← base64Decoded signedPrekeyB64
  storePeerIdentityKeyTofu peer identityKeyB64
  match bundle.signingKey, bundle.signedPrekeySignature with
  | some signingKeyB64, some signatureB64 =>
    verifySignedPrekey signedPrekey signingKeyB64 signatureB64
      ("Signed prekey signature verification failed for " ++ peer ++ " device " ++ toString deviceId ++
        " -- possible MITM attack")
  | _, _ => pure ()
  establish keys slot bundle identityKey signedPrekey

end Handshake

section Wires

def initialMsgMagicV1 : Bytes := [0xEC, 0x01]
def initialMsgMagicV2 : Bytes := [0xEC, 0x02]

/-- `setInt32` keeps the low 32 bits, `getInt32` reads them as a signed number. -/
def int32Bytes (n : Int) : Bytes := leBytes 4 (n % 2 ^ 32).toNat

def int32OfBytes (bytes : Bytes) : Int :=
  let n := leValue bytes
  if n < 2 ^ 31 then n else (n : Int) - 2 ^ 32

theorem int32OfBytes_int32Bytes {n : Int} (fits : -2 ^ 31 ≤ n ∧ n < 2 ^ 31) :
    int32OfBytes (int32Bytes n) = n := by
  obtain ⟨low, high⟩ := fits
  have word : leValue (int32Bytes n) = (n % 2 ^ 32).toNat := by
    rw [int32Bytes, leValue_leBytes]
    apply Nat.mod_eq_of_lt
    omega
  rw [int32OfBytes, word]
  split <;> omega

@[simp] theorem int32Bytes_length (n : Int) : (int32Bytes n).length = 4 := leBytes_length 4 _

def buildInitialWire (keys : OwnKeys P) (sessionWire : Bytes) (info : SessionInfo P) : Bytes :=
  match info.x3dhResult with
  | none => sessionWire
  | some x3dh =>
    let idPub := (P.publicKey keys.identity).toList
    match info.otpKeyId with
    | some otpKeyId =>
      initialMsgMagicV2 ++ (idPub ++ (x3dh.ephemeralPublic.toList ++ (int32Bytes otpKeyId ++ sessionWire)))
    | none => initialMsgMagicV1 ++ (idPub ++ (x3dh.ephemeralPublic.toList ++ sessionWire))

def isV1 (fullWire : Bytes) : Bool := 66 < fullWire.length && fullWire.take 2 == initialMsgMagicV1

def isV2 (fullWire : Bytes) : Bool := 70 < fullWire.length && fullWire.take 2 == initialMsgMagicV2

end Wires

section Calls
variable (keys : OwnKeys P)

/-- The key is taken in the segment that finds it free, and given back on every way out. -/
def withSessionLock {β : Type} (slot : Slot) (operation : Dart P β) : Dart P β := do
  ask (.lock slot)
  Async.ensuring operation
    (do
      pause
      ask (.unlock slot))

def encryptMessageImpl (peer plaintext : String) : Dart P String := do
  let slot := Slot.legacy peer
  let info ← getOrCreateSession keys peer
  let plaintextBytes := utf8Bytes plaintext
  let (wire, info) ← Async.catching
    (do
      if info.x3dhResult.isNone then saveSession slot info.session
      let wire ← sessionEncrypt info.session plaintextBytes
      pure (wire, info))
    fun _ => do
      ask (.remove slot)
      deleteSession slot
      let info ← getOrCreateSession keys peer
      let wire ← sessionEncrypt info.session plaintextBytes
      pure (wire, info)
  pause
  let finalWire := buildInitialWire keys wire info
  saveSession slot info.session
  ask (.put slot info.session)
  ask (.handOut slot plaintext finalWire)
  pure (base64Encode finalWire)

def encryptMessage (peer plaintext : String) : Dart P String :=
  withSessionLock (.legacy peer) (encryptMessageImpl keys peer plaintext)

def sessionKeyFor (peer : String) (deviceId : Option Int) : Dart P Slot := do
  match deviceId with
  | none => pure (.legacy peer)
  | some device =>
    let own : Bool ← ask (.isFresh ⟨peer, some device⟩)
    if own then pure ⟨peer, some device⟩
    else
      let legacy : Bool ← ask (.isFresh (.legacy peer))
      if legacy then pure (.legacy peer) else pure ⟨peer, some device⟩

def clearStaleSession (slot : Slot) (peer : String) (fromDeviceId : Option Int) : Dart P Unit := do
  let held : Bool ← ask (.containsKey slot)
  if held then
    ask (.remove slot)
    deleteSession slot
  if fromDeviceId.isSome then
    let legacy : Bool ← ask (.containsKey (.legacy peer))
    if legacy then
      ask (.remove (.legacy peer))
      deleteSession (.legacy peer)
  pause

def parseOtpAndSessionWire (fullWire : Bytes) (v2 : Bool) : Dart P (Option P.Secret × Bytes) := do
  if v2 then
    let otpKeyId := int32OfBytes ((fullWire.drop 66).take 4)
    let value ← ask (.readOtp otpKeyId)
    pause
    match ← returned value with
    | some bobOtp => pure (some bobOtp, fullWire.drop 70)
    | none =>
      throw (.exception ("OTP key_id=" ++ toString otpKeyId ++ " not found. " ++
        "Ask the sender to resend the message."))
  else pure (none, fullWire.drop 66)

/-- Deriving the secret does not fail on a wrong prekey, so the previous one is not tried. -/
def computeX3dhResponse (bobOtp : Option P.Secret) (aliceIdentityPub aliceEphemeralPub : Block 32) :
    Dart P (P.Key × P.Secret) :=
  Async.catching
    (do
      pause
      pure (X3DH.respond keys.identity keys.signedPrekey bobOtp aliceIdentityPub aliceEphemeralPub,
        keys.signedPrekey))
    fun e => match keys.previousPrekey with
      | none => throw e
      | some previous => do
        pause
        pure (X3DH.respond keys.identity previous bobOtp aliceIdentityPub aliceEphemeralPub, previous)

def decryptInitialMessage (fullWire : Bytes) (v2 : Bool) (slot : Slot) (peer : String)
    (fromDeviceId : Option Int) : Dart P String := do
  clearStaleSession slot peer fromDeviceId
  let aliceIdentityBytes := (fullWire.drop 2).take 32
  let (bobOtp, sessionWire) ← parseOtpAndSessionWire fullWire v2
  storePeerIdentityKeyTofu peer (base64Encode aliceIdentityBytes)
  let aliceIdentityPub ← x25519Key aliceIdentityBytes
  let aliceEphemeralPub ← x25519Key ((fullWire.drop 34).take 32)
  let (sharedSecret, prekeyToUse) ← computeX3dhResponse keys bobOtp aliceIdentityPub aliceEphemeralPub
  let session ← ask (.new (SignalSession.initBob sharedSecret prekeyToUse))
  pause
  let plainBytes ← Async.catching (sessionDecrypt session sessionWire) fun _ =>
    throw (.initialDecryptFailed peer)
  ask (.put slot session)
  saveSession slot session
  if bobOtp.isSome then
    ask (.deleteOtp (int32OfBytes ((fullWire.drop 66).take 4)))
    pause
  utf8Decoded plainBytes

def noSession (slot : Slot) : Thrown :=
  .exception ("No session for " ++ slot.text ++ " — cannot decrypt normal message. " ++
    "Awaiting new X3DH initial message from peer.")

def decryptNormalMessage (fullWire : Bytes) (slot : Slot) : Dart P String := do
  let found ← match ← ask (.get slot) with
    | some session => pure (some session)
    | none => Async.catching (reloadSession slot) fun e =>
        if e = .storageUnavailable then throw (.sessionStorageUnavailable slot.text) else throw e
  match found with
  | none => throw (noSession slot)
  | some session =>
  let early ← ask (.load session)
  pause
  let late ← ask (.load session)
  let before := { late with sendRatchetKeyPair := early.sendRatchetKeyPair }
  pause
  saveSession slot session
  Async.catching
    (do
      let (plaintext, updated) ← decryptNormalInIsolate before fullWire
      let updatedSession ← ask (.new updated)
      saveSession slot updatedSession
      pause
      ask (.put slot updatedSession)
      utf8Decoded plaintext)
    fun e =>
      if e = .storageUnavailable then throw (.sessionStorageUnavailable slot.text)
      else do
        ask (.remove slot)
        deleteSession slot
        throw e

def decryptMessageImpl (peer ciphertextB64 : String) (fromDeviceId : Option Int) : Dart P String := do
  let slot ← sessionKeyFor peer fromDeviceId
  let fullWire ← base64Decoded ciphertextB64
  if isV1 fullWire || isV2 fullWire then
    decryptInitialMessage keys fullWire (isV2 fullWire) slot peer fromDeviceId
  else decryptNormalMessage fullWire slot

def decryptMessage (peer ciphertextB64 : String) (fromDeviceId : Option Int) : Dart P String := do
  let slot ← sessionKeyFor peer fromDeviceId
  withSessionLock slot (decryptMessageImpl keys peer ciphertextB64 fromDeviceId)

def decryptHistoryMessage (peer ciphertextB64 : String) (fromDeviceId : Option Int) :
    Dart P (Option String) :=
  Async.catching
    (do
      let fullWire ← base64Decoded ciphertextB64
      if isV1 fullWire || isV2 fullWire then pure none
      else
        let preferred ← sessionKeyFor peer fromDeviceId
        let own ← match ← ask (.get preferred) with
          | some session => pure (some session)
          | none => reloadSession preferred
        let (loaded, found) ← match own with
          | some session => pure (preferred, some session)
          | none =>
            if preferred = .legacy peer then pure (preferred, none)
            else do
              match ← ask (.get (.legacy peer)) with
              | some session => pure (Slot.legacy peer, some session)
              | none =>
                let session ← reloadSession (.legacy peer)
                pure (Slot.legacy peer, session)
        match found with
        | none => pure none
        | some session =>
          let plainBytes ← sessionDecrypt session fullWire
          saveSession loaded session
          ask (.put loaded session)
          let text ← utf8Decoded plainBytes
          pure (some text))
    fun _ => pure none

def fetchAllBundles (userId : String) : Dart P (List Bundle) := do
  match ← ask (.cachedBundles userId) with
  | some bundles => pure bundles
  | none =>
    let response ← ask (.fetchBundles userId)
    pause
    if response.statusCode = 401 then throw (.exception ("Auth expired fetching bundles for " ++ userId))
    else if response.statusCode ≠ 200 then throw (.exception ("Failed to fetch bundles for " ++ userId))
    else match response.body with
      | none => throw .format
      | some bundles =>
        ask (.cacheBundles userId bundles)
        pure bundles

/-- A cached bundle list without any session for the user is taken for stale. -/
def healBundleCache (userId : String) : Dart P Unit := do
  let held : Bool ← ask (.hasBundles userId)
  if held then
    let any : Bool ← ask (.hasAnySession userId)
    if any then pure () else ask (.dropBundles userId)

/-- What `encryptForAllDevices` does under the lock of one device. -/
def encryptForDevice (peer : String) (deviceId : Int) (bundle : Bundle) (plaintext : String) :
    Dart P String := do
  let slot : Slot := ⟨peer, some deviceId⟩
  let info ← getOrCreateSessionForDevice keys peer deviceId bundle
  if info.x3dhResult.isNone then saveSession slot info.session
  let wire ← sessionEncrypt info.session (utf8Bytes plaintext)
  pause
  let finalWire := buildInitialWire keys wire info
  saveSession slot info.session
  ask (.put slot info.session)
  ask (.handOut slot plaintext finalWire)
  pure (base64Encode finalWire)

/-- `results[deviceId] = ct` -/
def setResult (results : List (Int × String)) (deviceId : Int) (ct : String) : List (Int × String) :=
  if results.any (·.1 = deviceId) then results.map fun r => if r.1 = deviceId then (deviceId, ct) else r
  else results ++ [(deviceId, ct)]

/-- The loop over the bundles; a device that fails is left out of the result. -/
def encryptForBundles (peer plaintext : String) (skips : Int → Bool) :
    List Bundle → List (Int × String) → Dart P (List (Int × String))
  | [], results => pure results
  | bundle :: bundles, results => do
    let deviceId ← need bundle.deviceId
    if skips deviceId then encryptForBundles peer plaintext skips bundles results
    else
      let ct ← Async.catching
        (do
          let ct ← withSessionLock ⟨peer, some deviceId⟩ (encryptForDevice keys peer deviceId bundle plaintext)
          pure (some ct))
        fun _ => pure none
      encryptForBundles peer plaintext skips bundles
        (match ct with
          | some ct => setResult results deviceId ct
          | none => results)

def encryptForAllDevices (peer plaintext : String) : Dart P (List (Int × String)) := do
  healBundleCache peer
  let bundles ← fetchAllBundles peer
  if bundles.isEmpty then
    let ct ← encryptMessage keys peer plaintext
    pure [(0, ct)]
  else encryptForBundles keys peer plaintext (fun _ => false) bundles []

def encryptForOwnDevices (myUserId plaintext : String) : Dart P (List (Int × String)) :=
  Async.catching
    (do
      healBundleCache myUserId
      let bundles ← fetchAllBundles myUserId
      encryptForBundles keys myUserId plaintext (fun deviceId => deviceId = keys.deviceId) bundles [])
    fun _ => pure []

def invalidateSessionKey (peer : String) : Dart P Unit := do
  ask (.remove (.legacy peer))
  deleteSession (.legacy peer)
  ask (.deleteIdentity peer)
  pause
  ask (.deleteChanged peer)
  pause
  ask (.deletePending peer)
  pause

def acceptIdentityKeyChange (peer : String) (newIdentityKeyB64 : Option String) : Dart P Unit := do
  let promote ← match newIdentityKeyB64 with
    | some key => pure (some key)
    | none => do
      let value ← ask (.readPending peer)
      pause
      returned value
  match promote with
  | none => pure ()
  | some key =>
    let result ← ask (.writeIdentity peer key)
    pause
    returned result
  ask (.deletePending peer)
  pause
  ask (.deleteChanged peer)
  pause
  ask (.remove (.legacy peer))
  deleteSession (.legacy peer)

end Calls

end Echo.Client
