import Echo.Client.SessionCache
import Echo.Client.SignalSession
import Echo.Lib.Base64
import Echo.Lib.Async

/-! What the calls of `crypto_service.dart` share: session objects, the session cache, secure
storage, locks, the bundle cache and the server. Each request is one action the Dart code
takes without an await in the middle. -/
namespace Echo.Client
open Echo.Lib Echo.Signal

/-- The session key `userId:deviceId`, or `userId` for a legacy session. -/
structure Slot where
  peer : String
  device : Option Int
  deriving DecidableEq

namespace Slot

def legacy (peer : String) : Slot := ⟨peer, none⟩

def text (slot : Slot) : String :=
  match slot.device with
  | none => slot.peer
  | some device => slot.peer ++ ":" ++ toString device

end Slot

structure OneTimePrekey where
  publicKey : Option String
  keyId : Option Int
  deriving DecidableEq

/-- A prekey bundle as JSON; a missing or null field is `none`. -/
structure Bundle where
  deviceId : Option Int
  identityKey : Option String
  signedPrekey : Option String
  signingKey : Option String
  signedPrekeySignature : Option String
  oneTimePrekey : Option OneTimePrekey
  deriving DecidableEq

/-- An HTTP response; the body is `none` when it cannot be parsed. -/
structure Response (β : Type) where
  statusCode : Nat
  body : Option β

structure Service (P : Primitives) where
  heap : Nat → SignalSession P
  allocated : Nat
  sessions : SessionCache Slot
  locks : List Slot
  /-- Secure storage: sessions, identity keys, pending keys, change flags, one-time prekeys. -/
  saved : LinkedMap Slot (SignalSession P)
  identities : String → Option String
  pendingIdentities : String → Option String
  changed : String → Bool
  otps : Int → Option P.Secret
  storage : Bool
  bundleCache : String → Option (List Bundle × Nat)
  now : Nat
  /-- Key pairs and nonces still to be drawn, and the server's answers still to come. -/
  secrets : Nat → P.Secret
  drawn : Nat
  nonces : Nat → Block 12
  sealed : Nat
  bundleReplies : Nat → Response Bundle
  bundlesReplies : Nat → Response (List Bundle)
  fetched : Nat
  /-- The wires given out so far and what they carry, last first. -/
  sent : List (Slot × String × Bytes)

inductive Request (P : Primitives) where
  | lock (slot : Slot)
  | unlock (slot : Slot)
  | get (slot : Slot)
  | put (slot : Slot) (session : Nat)
  | remove (slot : Slot)
  | containsKey (slot : Slot)
  | isFresh (slot : Slot)
  | hasAnySession (peer : String)
  | evictExpired
  | new (session : SignalSession P)
  | load (session : Nat)
  | assign (session : Nat) (state : SignalSession P)
  | readSession (slot : Slot)
  | writeSession (slot : Slot) (state : SignalSession P)
  | deleteSession (slot : Slot)
  | readIdentity (peer : String)
  | writeIdentity (peer key : String)
  | deleteIdentity (peer : String)
  | readPending (peer : String)
  | writePending (peer key : String)
  | deletePending (peer : String)
  | writeChanged (peer : String)
  | deleteChanged (peer : String)
  | readOtp (keyId : Int)
  | deleteOtp (keyId : Int)
  | newKeyPair
  | initiate (peer : String) (bundle : Bundle)
  | encryptWithAd (key : P.Key) (plaintext ad : Bytes)
  | fetchBundle (peer : String)
  | fetchBundles (peer : String)
  | cachedBundles (peer : String)
  | hasBundles (peer : String)
  | cacheBundles (peer : String) (bundles : List Bundle)
  | dropBundles (peer : String)
  | handOut (slot : Slot) (plaintext : String) (wire : Bytes)
  | clock (now : Nat)
  | setStorage (available : Bool)

def Answer {P : Primitives} : Request P → Type
  | .get _ => Option Nat
  | .containsKey _ | .isFresh _ | .hasAnySession _ | .hasBundles _ => Bool
  | .new _ => Nat
  | .load _ => SignalSession P
  | .readSession _ => Except Thrown (Option (SignalSession P))
  | .readIdentity _ | .readPending _ => Except Thrown (Option String)
  | .writeSession _ _ | .writeIdentity _ _ | .writePending _ _ | .writeChanged _ => Except Thrown Unit
  | .readOtp _ => Except Thrown (Option P.Secret)
  | .newKeyPair | .initiate _ _ => P.Secret
  | .encryptWithAd _ _ _ => Except Thrown Bytes
  | .fetchBundle _ => Response Bundle
  | .fetchBundles _ => Response (List Bundle)
  | .cachedBundles _ => Option (List Bundle)
  | _ => Unit

namespace SignalSession
variable {P : Primitives}

/-- `_zeroAndDrop`: every key buffer is filled with zeros, the skipped keys are cleared. -/
def zeroed (s : SignalSession P) : SignalSession P :=
  { s with
    rootKey := P.zeroKey
    sendChainKey := P.zeroKey
    recvChainKey := s.recvChainKey.map fun _ => P.zeroKey
    skippedKeys := ∅ }

end SignalSession

namespace Service
variable {P : Primitives}

def bundleCacheTtl : Nat := 5 * 60 * 1000

def zero (c : Service P) (dropped : List Nat) : Service P :=
  { c with heap := fun r => if r ∈ dropped then (c.heap r).zeroed else c.heap r }

/-- A read of secure storage: `StorageUnavailableException` while the backend is away. -/
def reading {β : Type} (c : Service P) (value : β) : Except Thrown β :=
  if c.storage then .ok value else .error .storageUnavailable

def writing (c : Service P) : Except Thrown Unit :=
  if c.storage then .ok () else .error .platform

def stored (c : Service P) (after : Service P) : Service P := if c.storage then after else c

def draw (c : Service P) : P.Secret × Service P := (c.secrets c.drawn, { c with drawn := c.drawn + 1 })

def hasAnySessionFor (c : Service P) (peer : String) : Bool :=
  SessionCache.isFresh c.sessions (.legacy peer) c.now ||
    c.sessions.entries.any fun e => e.1.peer = peer && e.1.device.isSome

def perform : (r : Request P) → Service P → Option (Answer r × Service P)
  | .lock slot, c => if slot ∈ c.locks then none else some ((), { c with locks := slot :: c.locks })
  | .unlock slot, c => some ((), { c with locks := c.locks.filter (· ≠ slot) })
  | .get slot, c =>
    let (found, sessions, dropped) := SessionCache.get c.sessions slot c.now
    some (found, { c with sessions }.zero dropped)
  | .put slot session, c =>
    let (sessions, dropped) := SessionCache.put c.sessions slot session c.now
    some ((), { c with sessions }.zero dropped)
  | .remove slot, c =>
    let (sessions, dropped) := SessionCache.remove c.sessions slot
    some ((), { c with sessions }.zero dropped)
  | .containsKey slot, c => some (SessionCache.containsKey c.sessions slot, c)
  | .isFresh slot, c => some (SessionCache.isFresh c.sessions slot c.now, c)
  | .hasAnySession peer, c => some (c.hasAnySessionFor peer, c)
  | .evictExpired, c =>
    let (sessions, dropped) := SessionCache.evictExpired c.sessions c.now
    some ((), { c with sessions }.zero dropped)
  | .new session, c =>
    some (c.allocated,
      { c with heap := Function.update c.heap c.allocated session, allocated := c.allocated + 1 })
  | .load session, c => some (c.heap session, c)
  | .assign session state, c => some ((), { c with heap := Function.update c.heap session state })
  | .readSession slot, c => some (c.reading (c.saved.find slot), c)
  | .writeSession slot state, c =>
    some (c.writing, c.stored { c with saved := c.saved.insert slot state })
  | .deleteSession slot, c =>
    some ((), c.stored { c with saved := c.saved.erase slot })
  | .readIdentity peer, c => some (c.reading (c.identities peer), c)
  | .writeIdentity peer key, c =>
    some (c.writing, c.stored { c with identities := Function.update c.identities peer (some key) })
  | .deleteIdentity peer, c =>
    some ((), c.stored { c with identities := Function.update c.identities peer none })
  | .readPending peer, c => some (c.reading (c.pendingIdentities peer), c)
  | .writePending peer key, c =>
    some (c.writing, c.stored { c with pendingIdentities := Function.update c.pendingIdentities peer (some key) })
  | .deletePending peer, c =>
    some ((), c.stored { c with pendingIdentities := Function.update c.pendingIdentities peer none })
  | .writeChanged peer, c =>
    some (c.writing, c.stored { c with changed := Function.update c.changed peer true })
  | .deleteChanged peer, c =>
    some ((), c.stored { c with changed := Function.update c.changed peer false })
  | .readOtp keyId, c => some (c.reading (c.otps keyId), c)
  | .deleteOtp keyId, c => some ((), c.stored { c with otps := Function.update c.otps keyId none })
  | .newKeyPair, c => some c.draw
  | .initiate _ _, c => some c.draw
  | .encryptWithAd key plaintext ad, c =>
    some (encryptWithAd P key (c.nonces c.sealed) plaintext ad, { c with sealed := c.sealed + 1 })
  | .fetchBundle _, c => some (c.bundleReplies c.fetched, { c with fetched := c.fetched + 1 })
  | .fetchBundles _, c => some (c.bundlesReplies c.fetched, { c with fetched := c.fetched + 1 })
  | .cachedBundles peer, c =>
    let fresh := (c.bundleCache peer).filter fun held => c.now - held.2 < bundleCacheTtl
    some (fresh.map Prod.fst, c)
  | .hasBundles peer, c => some ((c.bundleCache peer).isSome, c)
  | .cacheBundles peer bundles, c =>
    some ((), { c with bundleCache := Function.update c.bundleCache peer (some (bundles, c.now)) })
  | .dropBundles peer, c => some ((), { c with bundleCache := Function.update c.bundleCache peer none })
  | .handOut slot plaintext wire, c => some ((), { c with sent := (slot, plaintext, wire) :: c.sent })
  | .clock now, c => some ((), { c with now })
  | .setStorage available, c => some ((), { c with storage := available })

/-- `_loadSessions` for one stored session: a new object, put into the cache. -/
def loadSession (c : Service P) (stored : Slot × SignalSession P) : Service P :=
  let (sessions, dropped) := SessionCache.put c.sessions stored.1 c.allocated c.now
  { c with
    heap := Function.update c.heap c.allocated stored.2
    allocated := c.allocated + 1
    sessions }.zero dropped

/-- The process starts again: nothing in memory, then every stored session is loaded. -/
def restart (c : Service P) : Service P :=
  c.saved.entries.foldl loadSession
    { c with sessions := .empty, locks := [], bundleCache := fun _ => none }

end Service

abbrev machine (P : Primitives) : Machine where
  State := Service P
  Req := Request P
  Ans := Answer
  perform := Service.perform
  restart := Service.restart

abbrev Dart (P : Primitives) := Async (machine P) Thrown

end Echo.Client
