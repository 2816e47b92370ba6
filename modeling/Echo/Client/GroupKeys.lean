import Echo.Client.KeyRing

/-! Group keys on a client: `group_crypto_service.dart`, and what `crypto_provider.dart`,
`crypto_handlers.dart`, `websocket_send.dart`, `ws_message_handler.dart` and `chat_history.dart`
do with them. -/
namespace Echo.Client
open Echo.Lib
open Echo.Server (Uuid)
open Echo.Groups (RotationRequest shouldAbortRotation)

namespace KeyTask
variable {K : GroupKit}

section Help

abbrev ask (r : KeyRequest) : KeyTask K (KeyAnswer K r) := Async.ask (M := keyMachine K) r

abbrev throw {α : Type} (e : KeyThrown) : KeyTask K α := Async.throw e

abbrev pause : KeyTask K Unit := Async.pause

def returned {α : Type} : Except KeyThrown α → KeyTask K α
  | .ok a => pure a
  | .error e => throw e

def need {α : Type} : Option α → KeyTask K α
  | some a => pure a
  | none => throw .typeError

def arrived {α : Type} : Option α → KeyTask K α
  | some a => pure a
  | none => throw .http

def each {α β : Type} (f : α → KeyTask K β) : List α → KeyTask K (List β)
  | [] => pure []
  | a :: rest => do
    let b ← f a
    let more ← each f rest
    return b :: more

end Help

section Service

def cacheKey (conversationId : Uuid) (version : Int) (keyBase64 : String) (minWireVersion : Int) :
    KeyTask K Unit := do
  let bytes ← returned (grouped (groupBase64 keyBase64))
  ask (.cache conversationId ⟨version, bytes, minWireVersion⟩)
  let wrote ← ask (.write conversationId version keyBase64)
  pause
  returned wrote

def deleteKeys (conversationId : Uuid) : List ((Uuid × Int) × String) → KeyTask K Unit
  | [] => pure ()
  | e :: rest => do
    if e.1.1 = conversationId then
      ask (.delete conversationId e.1.2)
      pause
    deleteKeys conversationId rest

def purgeKey (conversationId : Uuid) : KeyTask K Unit := do
  ask (.uncache conversationId)
  let allEntries ← ask .readAll
  pause
  deleteKeys conversationId allEntries

def decryptFromUser (ciphertextB64 : String) : KeyTask K Bytes := do
  let identity ← ask .identityKeyPair
  pause
  let identity ← returned identity
  returned (grouped (Client.decryptFromUser K identity ciphertextB64))

def assertGroupKeyShape (conversationId : Uuid) (keyVersion : Int) (rawKeyB64 : String) : KeyTask K Unit :=
  match base64Decode rawKeyB64 with
  | none => throw (.unwrap conversationId keyVersion "candidate key is not valid base64")
  | some bytes =>
    if bytes.length ≠ groupKeyBytesLength then
      throw (.unwrap conversationId keyVersion ("candidate key has wrong length: " ++ toString bytes.length ++
        " bytes (expected " ++ toString groupKeyBytesLength ++ "). Likely an envelope-ciphertext " ++
        "blob slipped through the unwrap-failure fallback."))
    else pure ()

def unwrapKey (encryptedKey : String) : KeyTask K String :=
  if encryptedKey ≠ "__envelope__" then
    Async.catching
      (do
        let rawKeyBytes ← decryptFromUser encryptedKey
        return base64Encode rawKeyBytes)
      (fun _ => pure encryptedKey)
  else pure encryptedKey

def fetchGroupKey (conversationId : Uuid) : KeyTask K (Option GroupKey) :=
  Async.catching
    (do
      let response ← ask (.getLatest conversationId)
      pause
      let response ← arrived response
      if response.statusCode ≠ 200 then return none
      let data ← need response.body
      let encryptedKey ← need data.encryptedKey
      let version ← need data.keyVersion
      let minWireVersion := data.minWireVersion.getD 1
      let rawKeyB64 ← unwrapKey encryptedKey
      assertGroupKeyShape conversationId version rawKeyB64
      cacheKey conversationId version rawKeyB64 minWireVersion
      return some (version, rawKeyB64))
    (fun _ => pure none)

def bestStored (conversationId : Uuid) (allEntries : List ((Uuid × Int) × String)) : Option GroupKey :=
  allEntries.foldl (fun best e =>
    if e.1.1 = conversationId ∧ ∀ b ∈ best, b.1 < e.1.2 then some (e.1.2, e.2) else best) none

def getGroupKey (conversationId : Uuid) : KeyTask K (Option GroupKey) := do
  if ← ask (.isUnencrypted conversationId) then return none
  match ← ask (.cached conversationId) with
  | some key => return some (key.version, base64Encode key.bytes)
  | none =>
    let allEntries ← ask .readAll
    pause
    match bestStored conversationId allEntries with
    | some (bestVersion, bestKey) =>
      let bytes ← returned (grouped (groupBase64 bestKey))
      ask (.cache conversationId ⟨bestVersion, bytes, 1⟩)
      return some (bestVersion, bestKey)
    | none => fetchGroupKey conversationId

/-- `await getGroupKey(…)` -/
def awaitGroupKey (conversationId : Uuid) : KeyTask K (Option GroupKey) := do
  let key ← getGroupKey conversationId
  pause
  return key

def uploadRotationEnvelopes (conversationId : Uuid) (keyVersion : Int) (newKeyB64 : String)
    (envelopes : List Envelope) : KeyTask K (Option Int) :=
  Async.catching
    (do
      let response ← ask (.postKeys conversationId keyVersion envelopes)
      pause
      let response ← arrived response
      if response.statusCode ≠ 201 then return none
      cacheKey conversationId keyVersion newKeyB64 1
      return some keyVersion)
    (fun _ => pure none)

def fetchMembers (conversationId : Uuid) : KeyTask K (List Uuid) := do
  let response ← ask (.getMembers conversationId)
  pause
  match response with
  | some ⟨200, some members⟩ => return members.filterMap id
  | _ => return []

def fetchIdentityKey (userId : Uuid) : KeyTask K (Option Bytes) := do
  let key ← ask (.identityKey userId)
  pause
  arrived key

def hasIdentityKeyChanged (myUserId userId : Uuid) : KeyTask K Bool :=
  if userId = myUserId then pure false
  else do
    let changed ← ask (.identityKeyChanged userId)
    pause
    arrived changed

def checkSelfKeyPresent (keys : List (Uuid × Option Bytes)) (selfUserId : Uuid) : Bool :=
  keys.all fun (userId, key) => !(userId = selfUserId && key.isNone)

def buildRotationEnvelopes (newKeyBytes : Bytes) : List (Uuid × Option Bytes) → KeyTask K (List Envelope) :=
  each fun (userId, identityKey) => do
    let identityKey ← need identityKey
    let wrapped ← ask (.encryptForUser newKeyBytes identityKey)
    pause
    let wrapped ← returned wrapped
    return ⟨userId, wrapped⟩

def performRotation (conversationId : Uuid) (keyVersion : Int) (selfUserId : Uuid) :
    KeyTask K (Option Int) := do
  -- the stale keys go before anything is known of the new one
  purgeKey conversationId
  let userIds ← fetchMembers conversationId
  let newKeyBytes ← ask .generateGroupKey
  let newKeyB64 := base64Encode newKeyBytes.toList
  let identityKeys ← each fetchIdentityKey userIds
  let keys := userIds.zip identityKeys
  if !checkSelfKeyPresent keys selfUserId then return none
  let changedFlags ← each (hasIdentityKeyChanged selfUserId) userIds
  if changedFlags.any id then return none
  if identityKeys.any Option.isNone then return none
  let envelopes ← buildRotationEnvelopes newKeyBytes.toList keys
  if envelopes.isEmpty then return none
  uploadRotationEnvelopes conversationId keyVersion newKeyB64 envelopes

/-- `rotateGroupKey`: members without an identity key are skipped. -/
def buildEnvelopes (newKeyBytes : Bytes) : List (Uuid × Option String) → KeyTask K (List Envelope)
  | [] => pure []
  | (_, none) :: members => buildEnvelopes newKeyBytes members
  | (userId, some identityKeyB64) :: members => do
    let identityKeyBytes ← returned (grouped (groupBase64 identityKeyB64))
    let wrapped ← ask (.encryptForUser newKeyBytes identityKeyBytes)
    pause
    let wrapped ← returned wrapped
    let more ← buildEnvelopes newKeyBytes members
    return ⟨userId, wrapped⟩ :: more

def rotateGroupKey (conversationId : Uuid) (members : List (Uuid × Option String)) :
    KeyTask K (Option Int) := do
  let current ← awaitGroupKey conversationId
  let nextVersion := match current with
    | some key => key.1 + 1
    | none => 1
  let newKeyBytes ← ask .generateGroupKey
  let envelopes ← buildEnvelopes newKeyBytes.toList members
  if envelopes.isEmpty then return none
  uploadRotationEnvelopes conversationId nextVersion (base64Encode newKeyBytes.toList) envelopes

def clearAll : KeyTask K Unit := do
  ask .clear
  let allEntries ← ask .readAll
  pause
  let _ ← each (fun e => do
    ask (.delete e.1.1 e.1.2)
    pause) allEntries
  return ()

end Service

section Providers

/-- The version after the server's; one when there is none or the probe fails. -/
def probeLatestKeyVersion (conversationId : Uuid) : KeyTask K (Option Int) := do
  let probe ← ask (.getLatest conversationId)
  pause
  match probe with
  | some ⟨200, some ⟨_, some existing, _⟩⟩ => return some (existing + 1)
  | some ⟨401, _⟩ => return none
  | some ⟨403, _⟩ => return none
  | _ => return some 1

def seedInitialGroupKey (conversationId : Uuid) (currentVersion : Option Int) (myUserId : Uuid) :
    KeyTask K (Option Int) := do
  if ← ask (.isRotating conversationId) then return none
  ask (.addRotating conversationId)
  Async.ensuring
    (do
      let nextVersion ← match currentVersion with
        | some version => pure (some (version + 1))
        | none => probeLatestKeyVersion conversationId
      match nextVersion with
      | none => return none
      | some version => performRotation conversationId version myUserId)
    (ask (.removeRotating conversationId))

def handleGroupKeyRotated (conversationId : Uuid) (keyVersion : Int) : KeyTask K Unit := do
  ask (.keyRotated conversationId keyVersion)
  let _ ← fetchGroupKey conversationId
  return ()

def handleGroupKeyRotationRequested (request : RotationRequest) (myUserId : Uuid) : KeyTask K Unit := do
  match request.delay myUserId with
  | none => return ()
  | some 0 =>
    let _ ← performRotation request.conversationId request.keyVersion myUserId
    return ()
  | some _ =>
    pause
    let current ← awaitGroupKey request.conversationId
    if shouldAbortRotation (current.map Prod.fst) request.keyVersion then return ()
    let _ ← performRotation request.conversationId request.keyVersion myUserId
    return ()

def refreshGroupKey (conversationId myUserId : Uuid) : KeyTask K Unit := do
  purgeKey conversationId
  match ← awaitGroupKey conversationId with
  | some _ => return ()
  | none =>
    Async.catching
      (do
        let _ ← seedInitialGroupKey conversationId none myUserId
        let _ ← awaitGroupKey conversationId
        return ())
      (fun _ => pure ())

end Providers

section Messages

def resolveGroupKeyWithSelfHeal (conversationId : Uuid) (isAdminOrOwner : Bool) (myUserId : Uuid) :
    KeyTask K (Option GroupKey) := do
  match ← awaitGroupKey conversationId with
  | some key => return some key
  | none =>
    if !isAdminOrOwner then return none
    let _ ← seedInitialGroupKey conversationId none myUserId
    match ← awaitGroupKey conversationId with
    | some key => return some key
    | none =>
      let key ← fetchGroupKey conversationId
      pause
      return key

def encryptForGroupSend (conversationId : Uuid) (content : String) (isAdminOrOwner : Bool) (myUserId : Uuid) :
    KeyTask K (Option GroupPayload) :=
  Async.catching
    (do
      match ← resolveGroupKeyWithSelfHeal conversationId isAdminOrOwner myUserId with
      | none => return none
      | some key =>
        let sealed ← ask (.encrypt conversationId key content)
        pause
        returned sealed)
    (fun _ => pure none)

def sendGroupMessage (conversationId : Uuid) (content : String) (isEncrypted isAdminOrOwner : Bool)
    (myUserId : Uuid) : KeyTask K Unit := do
  if isEncrypted then
    match ← encryptForGroupSend conversationId content isAdminOrOwner myUserId with
    | none => return ()
    | some message => ask (.emit conversationId message)
  else ask (.emit conversationId ⟨content, none⟩)

def couldNotVerifySender : String := "[Could not verify sender]"

/-- The signed path: `verifyAndDecryptGroupMessageV2` on the ids of the frame. -/
def openV2 (conversationId : Uuid) (key : GroupKey) (wire messageId : String) (senderVerifyKey : K.VerifyKey) :
    KeyTask K String := do
  match K.uuidStringToBytes (K.uuidText conversationId), K.uuidStringToBytes messageId with
  | some convIdBytes, some msgIdBytes =>
    pause
    match verifyAndDecryptGroupMessageV2 K.toGroupPrimitives wire key.2 convIdBytes msgIdBytes senderVerifyKey with
    | .ok text => return text
    | .error (.senderSignature _) => return couldNotVerifySender
    | .error e => throw (.group e)
  | _, _ => throw (.group (.format "Invalid UUID"))

/-- `_decryptGroupMessage`, but for its texts the same on the live path and in the history. -/
def decryptGroupMessage (noKey failed : String) (m : GroupWire) : KeyTask K String :=
  Async.catching
    (do
      match ← awaitGroupKey m.conversationId with
      | none => return noKey
      | some key =>
        if startsWith m.content groupEncryptedPrefixV2 then
          match m.messageId with
          | none => return couldNotVerifySender
          | some messageId =>
            let senderVerifyKey ← ask (.senderVerifyKey m.fromUserId m.fromDeviceId)
            pause
            match ← arrived senderVerifyKey with
            | none => return couldNotVerifySender
            | some senderVerifyKey => openV2 m.conversationId key m.content messageId senderVerifyKey
        else
          let opened ← ask (.openV1 m.conversationId key m.content)
          pause
          match ← returned opened with
          | none => return couldNotVerifySender
          | some text => return text)
    (fun _ => pure failed)

/-- Live and queued messages: a wire with a group prefix is shown decrypted. -/
def decryptAndDeliver (m : GroupWire) : KeyTask K Unit := do
  ask (.arrived m)
  let text ← decryptGroupMessage "[Could not decrypt - waiting for group key]"
    "[Could not decrypt group message]" m
  ask (.display m text)

/-- A group message loaded from history; there the message always has an id. -/
def decryptHistory (m : GroupWire) : KeyTask K Unit := do
  ask (.arrived m)
  let text ← decryptGroupMessage "[Encrypted group message - key unavailable]"
    "[Could not decrypt group message]" m
  ask (.display m text)

end Messages

end KeyTask

inductive KeyCall where
  | getGroupKey (conversationId : Uuid)
  | fetchGroupKey (conversationId : Uuid)
  | keyRotated (conversationId : Uuid) (keyVersion : Int)
  | rotationRequested (request : RotationRequest) (myUserId : Uuid)
  | seedInitialGroupKey (conversationId : Uuid) (currentVersion : Option Int) (myUserId : Uuid)
  | rotateGroupKey (conversationId : Uuid) (members : List (Uuid × Option String))
  | refreshGroupKey (conversationId myUserId : Uuid)
  | dropCachedKey (conversationId : Uuid)
  | invalidateCache (conversationId : Uuid)
  | setUnencrypted (conversationId : Uuid) (unencrypted : Bool)
  | clearAll
  | send (conversationId : Uuid) (content : String) (isEncrypted isAdminOrOwner : Bool) (myUserId : Uuid)
  | receive (m : GroupWire)
  | loadHistory (m : GroupWire)
  | setStorage (available : Bool)

namespace KeyTask

def ignoring {K : GroupKit} {α : Type} (t : KeyTask K α) : KeyTask K Unit := do
  let _ ← t
  return ()

end KeyTask

open KeyTask in
def keyProgram (K : GroupKit) : KeyCall → KeyTask K Unit
  | .getGroupKey conversationId => ignoring (getGroupKey conversationId)
  | .fetchGroupKey conversationId => ignoring (fetchGroupKey conversationId)
  | .keyRotated conversationId keyVersion => handleGroupKeyRotated conversationId keyVersion
  | .rotationRequested request myUserId => handleGroupKeyRotationRequested request myUserId
  | .seedInitialGroupKey conversationId currentVersion myUserId =>
    ignoring (seedInitialGroupKey conversationId currentVersion myUserId)
  | .rotateGroupKey conversationId members => ignoring (rotateGroupKey conversationId members)
  | .refreshGroupKey conversationId myUserId => refreshGroupKey conversationId myUserId
  | .dropCachedKey conversationId => purgeKey conversationId
  | .invalidateCache conversationId => KeyTask.ask (.uncache conversationId)
  | .setUnencrypted conversationId unencrypted => KeyTask.ask (.setUnencrypted conversationId unencrypted)
  | .clearAll => clearAll
  | .send conversationId content isEncrypted isAdminOrOwner myUserId =>
    sendGroupMessage conversationId content isEncrypted isAdminOrOwner myUserId
  | .receive m => decryptAndDeliver m
  | .loadHistory m => decryptHistory m
  | .setStorage available => KeyTask.ask (.setStorage available)

end Echo.Client
