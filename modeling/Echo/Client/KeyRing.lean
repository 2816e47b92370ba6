import Echo.Client.GroupCrypto
import Echo.Groups.Election

/-! The state behind `group_crypto_service.dart`: the key cache, the keys in secure storage and
the answers still to come. Each request is one action the Dart code takes without an await in the
middle. -/
namespace Echo.Client
open Echo.Lib
open Echo.Signal (ascii)
open Echo.Server (Uuid)

/-- The libraries under the group code: AES-GCM and Ed25519, X25519, HKDF-SHA256, UUIDs. -/
structure GroupKit extends GroupPrimitives where
  /-- X25519 private keys. -/
  Secret : Type
  publicKey : Secret → Block 32
  sharedSecret : Secret → Block 32 → Bytes
  /-- Keying material, salt, info. -/
  hkdf : Bytes → Bytes → Bytes → Bytes
  uuidText : Uuid → String
  /-- `uuidStringToBytes`; none where it throws. -/
  uuidStringToBytes : String → Option Bytes

namespace GroupKit

def plainTag (key : Bytes) : Block 16 := ⟨(key ++ List.replicate 16 0).take 16, by simp⟩

def plainSignature (key message : Bytes) : Bytes :=
  (key ++ (message ++ List.replicate 64 0)).take 64

/- No secrecy at all: a ciphertext is the plaintext, shared secrets are sums. It shows how the parts
fit together. -/
abbrev plain : GroupKit where
  SigningKey := Block 32
  VerifyKey := Block 32
  encrypt key _ plaintext := if key.length = 32 then some (plaintext, plainTag key) else none
  decrypt key _ ciphertext tag := if key.length = 32 ∧ tag = plainTag key then some ciphertext else none
  sign key message := plainSignature key.toList message
  verify message signature key := signature == plainSignature key.toList message
  Secret := Block 32
  publicKey secret := secret
  sharedSecret secret peer := List.zipWith (· + ·) secret.toList peer.toList
  hkdf keyingMaterial _ _ := keyingMaterial
  uuidText id := String.ofList (List.replicate id 'x')
  uuidStringToBytes text := some ((utf8Bytes text ++ List.replicate 16 0).take 16)

end GroupKit

inductive KeyThrown where
  | group (e : GroupThrown)
  /-- `GroupEnvelopeUnwrapException` -/
  | unwrap (conversationId : Uuid) (keyVersion : Int) (reason : String)
  | typeError
  | http
  | platform
  deriving DecidableEq

/-- `(key_version, raw key bytes, min_wire_version)` -/
structure CachedKey where
  version : Int
  bytes : Bytes
  minWireVersion : Int
  deriving DecidableEq

/-- `(version, keyBase64)` -/
abbrev GroupKey := Int × String

/-- The body of `GET /api/groups/:id/keys/latest`; a missing field is `none`. -/
structure KeysLatest where
  encryptedKey : Option String
  keyVersion : Option Int
  minWireVersion : Option Int
  deriving DecidableEq

structure Envelope where
  userId : Uuid
  encryptedKey : String
  deriving DecidableEq

/-- A payload for the wire, and the message id if the sender minted one. -/
structure GroupPayload where
  payload : String
  clientMessageId : Option String
  deriving DecidableEq

structure GroupWire where
  conversationId : Uuid
  content : String
  fromUserId : Uuid
  fromDeviceId : Option Int
  /-- Missing or empty is none. -/
  messageId : Option String
  deriving DecidableEq

structure KeyRing (K : GroupKit) where
  keyCache : Uuid → Option CachedKey
  unencryptedGroups : Uuid → Bool
  rotatingGroups : List Uuid
  /-- `group_key_{conversationId}_{version}` in secure storage. -/
  stored : LinkedMap (Uuid × Int) String
  storage : Bool
  identityKeyPair : Option K.Secret
  signingKeyPair : Option K.SigningKey
  /-- Keys, key pairs, nonces and message ids still to be drawn. -/
  groupKeys : Nat → Block 32
  ephemerals : Nat → K.Secret
  nonces : Nat → Block 12
  messageIds : Nat → String
  drawn : Nat
  /-- The answers still to come; none where the call throws. -/
  initReplies : Nat → Option (K.Secret × K.SigningKey)
  latestReplies : Nat → Option (Response KeysLatest)
  uploadReplies : Nat → Option (Response Unit)
  memberReplies : Nat → Option (Response (List (Option Uuid)))
  identityReplies : Nat → Option (Option Bytes)
  changedReplies : Nat → Option Bool
  verifyKeyReplies : Nat → Option (Option K.VerifyKey)
  asked : Nat

inductive KeyRequest where
  | isUnencrypted (conversationId : Uuid)
  | setUnencrypted (conversationId : Uuid) (unencrypted : Bool)
  | cached (conversationId : Uuid)
  | cache (conversationId : Uuid) (key : CachedKey)
  | uncache (conversationId : Uuid)
  /-- A `group_key_rotated` event of this version: the cached key is removed. -/
  | keyRotated (conversationId : Uuid) (keyVersion : Int)
  | clear
  | readAll
  | write (conversationId : Uuid) (version : Int) (key : String)
  | delete (conversationId : Uuid) (version : Int)
  | isRotating (conversationId : Uuid)
  | addRotating (conversationId : Uuid)
  | removeRotating (conversationId : Uuid)
  | identityKeyPair
  | getLatest (conversationId : Uuid)
  | postKeys (conversationId : Uuid) (keyVersion : Int) (envelopes : List Envelope)
  | getMembers (conversationId : Uuid)
  | identityKey (userId : Uuid)
  | identityKeyChanged (userId : Uuid)
  | senderVerifyKey (userId : Uuid) (deviceId : Option Int)
  | generateGroupKey
  | encryptForUser (plaintext recipientPublicKey : Bytes)
  /-- A look at the minimal wire version and an encryption under it. -/
  | encrypt (conversationId : Uuid) (key : GroupKey) (content : String)
  | emit (conversationId : Uuid) (message : GroupPayload)
  /-- A received wire is handed to the decoder, and what came of it is shown. -/
  | arrived (m : GroupWire)
  | openV1 (conversationId : Uuid) (key : GroupKey) (wire : String)
  | display (m : GroupWire) (text : String)
  | setStorage (available : Bool)

abbrev KeyAnswer (K : GroupKit) : KeyRequest → Type
  | .isUnencrypted _ | .isRotating _ => Bool
  | .cached _ => Option CachedKey
  | .readAll => List ((Uuid × Int) × String)
  | .write _ _ _ => Except KeyThrown Unit
  | .identityKeyPair => Except KeyThrown K.Secret
  | .getLatest _ => Option (Response KeysLatest)
  | .postKeys _ _ _ => Option (Response Unit)
  | .getMembers _ => Option (Response (List (Option Uuid)))
  | .identityKey _ => Option (Option Bytes)
  | .identityKeyChanged _ => Option Bool
  | .senderVerifyKey _ _ => Option (Option K.VerifyKey)
  | .generateGroupKey => Block 32
  | .encryptForUser _ _ => Except KeyThrown String
  | .encrypt _ _ _ => Except KeyThrown (Option GroupPayload)
  | .openV1 _ _ _ => Except KeyThrown (Option String)
  | _ => Unit

def grouped {α : Type} : Except GroupThrown α → Except KeyThrown α
  | .ok a => .ok a
  | .error e => .error (.group e)

section Wrapping
variable (K : GroupKit)

def wrapKey (secret : K.Secret) (peer : Block 32) : Bytes :=
  K.hkdf (K.sharedSecret secret peer) (List.replicate 32 0) (ascii "EchoGroupKeyWrap")

/-- `encryptForUser`: the key pair and the nonce are fresh ones. -/
def encryptForUser (ephemeral : K.Secret) (nonce : Block 12) (plaintext recipientPublicKey : Bytes) :
    Except GroupThrown String :=
  if exact : recipientPublicKey.length = 32 then do
    let aesKey := wrapKey K ephemeral ⟨recipientPublicKey, exact⟩
    let (ct, mac) ← groupEncrypt K.toGroupPrimitives aesKey nonce plaintext
    return base64Encode ((K.publicKey ephemeral).toList ++ (nonce.toList ++ (ct ++ mac.toList)))
  else .error (.argument "remotePublicKey")

/-- `decryptFromUser` once the base64 is off. -/
def openEnvelope (identity : K.Secret) (wire : Bytes) : Except GroupThrown Bytes :=
  if short : wire.length < 32 + 12 + 16 then
    .error (.format ("encryptForUser ciphertext too short: " ++ toString wire.length ++ " bytes"))
  else
    let ephPub : Block 32 := ⟨wire.take 32, by simp; omega⟩
    let nonce : Block 12 := ⟨(wire.take 44).drop 32, by simp; omega⟩
    let ct := (wire.take (wire.length - 16)).drop 44
    let mac : Block 16 := ⟨wire.drop (wire.length - 16), by simp; omega⟩
    groupDecrypt K.toGroupPrimitives (wrapKey K identity ephPub) nonce ct mac

def decryptFromUser (identity : K.Secret) (ciphertextB64 : String) : Except GroupThrown Bytes := do
  let wire ← groupBase64 ciphertextB64
  openEnvelope K identity wire

end Wrapping

namespace KeyRing
variable {K : GroupKit}

def cachedMinWireVersion (ring : KeyRing K) (conversationId : Uuid) : Option Int :=
  (ring.keyCache conversationId).map CachedKey.minWireVersion

def cacheKey (ring : KeyRing K) (conversationId : Uuid) (key : Option CachedKey) : KeyRing K :=
  { ring with keyCache := Function.update ring.keyCache conversationId key }

def store (ring : KeyRing K) (conversationId : Uuid) (version : Int) (key : String) : KeyRing K :=
  { ring with stored := ring.stored.insert (conversationId, version) key }

def unstore (ring : KeyRing K) (conversationId : Uuid) (version : Int) : KeyRing K :=
  { ring with stored := ring.stored.erase (conversationId, version) }

def next (ring : KeyRing K) : KeyRing K := { ring with asked := ring.asked + 1 }

def draw (ring : KeyRing K) : KeyRing K := { ring with drawn := ring.drawn + 1 }

/-- From `cachedMinWireVersion` on, `_encryptForGroupSend`; no answer without a signing key. -/
def encryptContent (ring : KeyRing K) (conversationId : Uuid) (key : GroupKey) (content : String) :
    Except KeyThrown (Option GroupPayload) :=
  let nonce := ring.nonces ring.drawn
  if 2 ≤ (ring.cachedMinWireVersion conversationId).getD 1 then
    match ring.signingKeyPair with
    | none => .ok none
    | some signingKey =>
      let clientMessageId := ring.messageIds ring.drawn
      match K.uuidStringToBytes (K.uuidText conversationId), K.uuidStringToBytes clientMessageId with
      | some convIdBytes, some msgIdBytes =>
        match encryptGroupMessageV2 K.toGroupPrimitives nonce content key.2 convIdBytes msgIdBytes signingKey with
        | .ok payload => .ok (some ⟨payload, some clientMessageId⟩)
        | .error e => .error (.group e)
      | _, _ => .error (.group (.format "Invalid UUID"))
  else
    match encryptGroupMessage K.toGroupPrimitives nonce content key.2 with
    | .ok payload => .ok (some ⟨payload, none⟩)
    | .error e => .error (.group e)

/-- The part of `_decryptGroupMessage` for wires that are not GRP2; no answer to one refused. -/
def openV1 (ring : KeyRing K) (conversationId : Uuid) (key : GroupKey) (wire : String) :
    Except KeyThrown (Option String) :=
  if 2 ≤ (ring.cachedMinWireVersion conversationId).getD 1 then .ok none
  else
    match decryptGroupMessage K.toGroupPrimitives wire key.2 with
    | .ok text => .ok (some text)
    | .error e => .error (.group e)

def perform : (r : KeyRequest) → KeyRing K → Option (KeyAnswer K r × KeyRing K)
  | .isUnencrypted conversationId, ring => some (ring.unencryptedGroups conversationId, ring)
  | .setUnencrypted conversationId unencrypted, ring =>
    some ((), { ring with
      unencryptedGroups := Function.update ring.unencryptedGroups conversationId unencrypted })
  | .cached conversationId, ring => some (ring.keyCache conversationId, ring)
  | .cache conversationId key, ring => some ((), ring.cacheKey conversationId (some key))
  | .uncache conversationId, ring => some ((), ring.cacheKey conversationId none)
  | .keyRotated conversationId _, ring => some ((), ring.cacheKey conversationId none)
  | .clear, ring => some ((), { ring with keyCache := fun _ => none, unencryptedGroups := fun _ => false })
  | .readAll, ring => some (if ring.storage then ring.stored.entries else [], ring)
  | .write conversationId version key, ring =>
    if ring.storage then some (.ok (), ring.store conversationId version key) else some (.error .platform, ring)
  | .delete conversationId version, ring =>
    some ((), if ring.storage then ring.unstore conversationId version else ring)
  | .isRotating conversationId, ring => some (conversationId ∈ ring.rotatingGroups, ring)
  | .addRotating conversationId, ring =>
    some ((), { ring with rotatingGroups := conversationId :: ring.rotatingGroups })
  | .removeRotating conversationId, ring =>
    some ((), { ring with rotatingGroups := ring.rotatingGroups.filter (· ≠ conversationId) })
  | .identityKeyPair, ring =>
    -- `init()` runs first where it has not succeeded yet
    match ring.identityKeyPair with
    | some identity => some (.ok identity, ring)
    | none =>
      match ring.initReplies ring.asked with
      | some (identity, signingKey) =>
        some (.ok identity,
          { ring.next with identityKeyPair := some identity, signingKeyPair := some signingKey })
      | none => some (.error .platform, ring.next)
  | .getLatest _, ring => some (ring.latestReplies ring.asked, ring.next)
  | .postKeys _ _ _, ring => some (ring.uploadReplies ring.asked, ring.next)
  | .getMembers _, ring => some (ring.memberReplies ring.asked, ring.next)
  | .identityKey _, ring => some (ring.identityReplies ring.asked, ring.next)
  | .identityKeyChanged _, ring => some (ring.changedReplies ring.asked, ring.next)
  | .senderVerifyKey _ _, ring => some (ring.verifyKeyReplies ring.asked, ring.next)
  | .generateGroupKey, ring => some (ring.groupKeys ring.drawn, ring.draw)
  | .encryptForUser plaintext recipientPublicKey, ring =>
    some (grouped (Client.encryptForUser K (ring.ephemerals ring.drawn) (ring.nonces ring.drawn) plaintext
      recipientPublicKey), ring.draw)
  | .encrypt conversationId key content, ring => some (ring.encryptContent conversationId key content, ring.draw)
  | .emit _ _, ring => some ((), ring)
  | .arrived _, ring => some ((), ring)
  | .openV1 conversationId key wire, ring => some (ring.openV1 conversationId key wire, ring)
  | .display _ _, ring => some ((), ring)
  | .setStorage available, ring => some ((), { ring with storage := available })

def restart (ring : KeyRing K) : KeyRing K :=
  { ring with
    keyCache := fun _ => none
    unencryptedGroups := fun _ => false
    rotatingGroups := []
    identityKeyPair := none
    signingKeyPair := none }

end KeyRing

abbrev keyMachine (K : GroupKit) : Machine where
  State := KeyRing K
  Req := KeyRequest
  Ans := KeyAnswer K
  perform := KeyRing.perform
  restart := KeyRing.restart

abbrev KeyTask (K : GroupKit) := Async (keyMachine K) KeyThrown

end Echo.Client
