import Echo.Client.Parity
import Echo.Client.Renewal
import Echo.Signal.Authenticity

/-! The first message of a conversation: X3DH on both sides, against a recipient who rotates the
signed prekey and keeps the one before. -/
namespace Echo.Client
open Echo.Lib Echo.Signal
variable {P : Primitives} {α β : Type}

section Prekeys

/-- A stored time in milliseconds; `DateTime.tryParse` may fail on the text. -/
inductive Stamp where
  | parsed (time : Int)
  | unreadable

structure PrekeyStore (P : Primitives) where
  signedPrekey : P.Secret
  createdAt : Option Stamp
  previousPrekey : Option P.Secret
  previousCreatedAt : Option Stamp

namespace PrekeyStore

def signedPrekeyMaxAge : Int := 7 * 24 * 60 * 60 * 1000

def signedPrekeyGracePeriod : Int := 14 * 24 * 60 * 60 * 1000

def cleanupPreviousPrekey (now : Int) (s : PrekeyStore P) : PrekeyStore P :=
  match s.previousPrekey with
  | none => s
  | some _ =>
    match s.previousCreatedAt with
    | none => { s with previousPrekey := none }
    | some .unreadable => s
    | some (.parsed time) =>
      if signedPrekeyGracePeriod ≤ now - time then { s with previousPrekey := none, previousCreatedAt := none }
      else s

/-- The grace period is looked at first, then the age of the current prekey. -/
def rotateSignedPrekeyIfNeeded (now : Int) (fresh : P.Secret) (s : PrekeyStore P) : PrekeyStore P :=
  let s := s.cleanupPreviousPrekey now
  match s.createdAt with
  | none => { s with createdAt := some (.parsed now) }
  | some .unreadable => s
  | some (.parsed time) =>
    if now - time < signedPrekeyMaxAge then s
    else
      { signedPrekey := fresh
        createdAt := some (.parsed now)
        previousPrekey := some s.signedPrekey
        previousCreatedAt := some (.parsed time) }

/-- One launch after the other: when, and the key pair drawn if the prekey is rotated. -/
def after (s : PrekeyStore P) (launches : List (Int × P.Secret)) : PrekeyStore P :=
  launches.foldl (fun s launch => s.rotateSignedPrekeyIfNeeded launch.1 launch.2) s

def Retains (s : PrekeyStore P) (prekey : P.Secret) : Prop :=
  prekey = s.signedPrekey ∨ s.previousPrekey = some prekey

theorem rotateSignedPrekeyIfNeeded_retains (now : Int) (fresh : P.Secret) (s : PrekeyStore P) :
    (s.rotateSignedPrekeyIfNeeded now fresh).Retains s.signedPrekey := by
  have kept : (s.cleanupPreviousPrekey now).signedPrekey = s.signedPrekey := by
    unfold cleanupPreviousPrekey
    split
    · rfl
    · split
      · rfl
      · rfl
      · split <;> rfl
  unfold rotateSignedPrekeyIfNeeded
  simp only
  split
  · exact .inl kept.symm
  · exact .inl kept.symm
  · split
    · exact .inl kept.symm
    · exact .inr (congrArg some kept)

def ownKeys (s : PrekeyStore P) (deviceId : Int) (identity : P.Secret) : OwnKeys P :=
  ⟨deviceId, identity, s.signedPrekey, s.previousPrekey⟩

end PrekeyStore

/-- What a recipient uploads and the server hands out. Key ids are 32-bit. -/
structure Published (P : Primitives) where
  deviceId : Option Int
  identity : P.Secret
  signedPrekey : P.Secret
  signingKey : Bytes
  signature : Bytes
  oneTimePrekey : Option (Int × P.Secret)
  authentic : P.ed25519Verify (P.publicKey signedPrekey).toList signature signingKey = true
  small : ∀ otp ∈ oneTimePrekey, -2 ^ 31 ≤ otp.1 ∧ otp.1 < 2 ^ 31

def Published.bundle (b : Published P) : Bundle where
  deviceId := b.deviceId
  identityKey := some (base64Encode (P.publicKey b.identity).toList)
  signedPrekey := some (base64Encode (P.publicKey b.signedPrekey).toList)
  signingKey := some (base64Encode b.signingKey)
  signedPrekeySignature := some (base64Encode b.signature)
  oneTimePrekey := b.oneTimePrekey.map fun otp =>
    ⟨some (base64Encode (P.publicKey otp.2).toList), some otp.1⟩

end Prekeys

section Keys

/-- DH commutes and tells public keys apart, sealing succeeds and adds its tag, and only the
sealing key opens. -/
structure Handshake (P : Primitives) : Prop extends P.Symbolic where
  dh_comm : ∀ a b, P.diffieHellman a (P.publicKey b) = P.diffieHellman b (P.publicKey a)
  dh_separates : ∀ {a b e}, P.diffieHellman a (P.publicKey e) = P.diffieHellman b (P.publicKey e) →
    P.publicKey a = P.publicKey b
  seals : ∀ key nonce message aad, ∃ ciphertext,
    P.aesGcmEncrypt key nonce message aad = some ciphertext ∧ 16 ≤ ciphertext.length
  opens_only : ∀ {key key' nonce message message' aad ciphertext},
    P.aesGcmEncrypt key nonce message aad = some ciphertext →
      P.aesGcmDecrypt key' nonce ciphertext aad = some message' → key' = key

variable (b : Published P) (identity ephemeral ratchet : P.Secret)

def openingKey : P.Key :=
  let x3dhResult := X3DH.initiate identity ephemeral (P.publicKey b.identity) (P.publicKey b.signedPrekey)
    (b.oneTimePrekey.map fun otp => P.publicKey otp.2)
  (kdfCk P (kdfRk P x3dhResult.sharedSecret (P.diffieHellman ratchet (P.publicKey b.signedPrekey))).2).2

/-- What the recipient tries to open it with, having picked a signed prekey. -/
def answeringKey (prekey : P.Secret) : P.Key :=
  let sharedSecret := X3DH.respond b.identity prekey (b.oneTimePrekey.map Prod.snd) (P.publicKey identity)
    (P.publicKey ephemeral)
  (kdfCk P (kdfRk P sharedSecret (P.diffieHellman prekey (P.publicKey ratchet))).2).2

variable {b identity ephemeral ratchet} {prekey : P.Secret}

theorem secrets_agree (laws : Handshake P) (same : P.publicKey b.signedPrekey = P.publicKey prekey) :
    (X3DH.initiate identity ephemeral (P.publicKey b.identity) (P.publicKey b.signedPrekey)
      (b.oneTimePrekey.map fun otp => P.publicKey otp.2)).sharedSecret =
      X3DH.respond b.identity prekey (b.oneTimePrekey.map Prod.snd) (P.publicKey identity)
        (P.publicKey ephemeral) := by
  simp only [X3DH.initiate, X3DH.respond, Option.map_map, Function.comp_def]
  rw [same, laws.dh_comm identity prekey, laws.dh_comm ephemeral b.identity, laws.dh_comm ephemeral prekey]
  simp only [laws.dh_comm ephemeral]

theorem openingKey_eq_iff (laws : Handshake P) :
    openingKey b identity ephemeral ratchet = answeringKey b identity ephemeral ratchet prekey ↔
      P.publicKey b.signedPrekey = P.publicKey prekey := by
  constructor
  · intro same
    have chains := laws.message_injective same
    have outputs := (laws.hkdf_injective chains).2.1
    injection outputs with outputs
    obtain ⟨met, -⟩ := List.cons.inj outputs
    rw [laws.dh_comm ratchet] at met
    exact laws.dh_separates met
  · intro same
    simp only [openingKey, answeringKey]
    rw [secrets_agree laws same, same, laws.dh_comm ratchet prekey]

theorem opens_iff (laws : Handshake P) {key : P.Key} (key' : P.Key) {nonce : Block 12} {plaintext ad ciphertext : Bytes}
    (sealed : encryptWithAd P key nonce plaintext ad = .ok ciphertext) :
    (key = key' → decryptWithAd P key' ciphertext ad = .ok plaintext) ∧
      (key ≠ key' → decryptWithAd P key' ciphertext ad = .error .secretBoxAuthentication) := by
  obtain ⟨body, found, long⟩ := laws.seals key nonce plaintext ad
  simp only [encryptWithAd, found] at sealed
  cases sealed
  have len : nonce.toList.length = 12 := nonce.2
  have enough : ¬ (nonce.toList ++ body).length < 12 + 16 := by
    rw [List.length_append, len]
    omega
  have front : (⟨(nonce.toList ++ body).take 12, by simp⟩ : Block 12) = nonce :=
    Subtype.ext (List.take_left' len)
  have back : (nonce.toList ++ body).drop 12 = body := List.drop_left' len
  unfold decryptWithAd
  rw [dif_neg enough]
  simp only [front, back]
  constructor
  · rintro rfl
    rw [laws.decrypt_encrypt found]
  · intro apart
    cases opened : P.aesGcmDecrypt key' nonce body ad with
    | none => rfl
    | some message => exact absurd (laws.opens_only found opened).symm apart

def openingHeader (ratchet : P.Secret) : MessageHeader := ⟨P.publicKey ratchet, 0, 0⟩

/-- The frame `SignalSession.encrypt` puts around a first ciphertext. -/
def openingFrame (ratchet : P.Secret) (ciphertext : Bytes) : Bytes :=
  leBytes 4 (openingHeader ratchet).serialize.length ++ ((openingHeader ratchet).serialize ++ ciphertext)

theorem unframe_openingFrame (ratchet : P.Secret) (ciphertext : Bytes) :
    SignalSession.unframe (openingFrame ratchet ciphertext) = .ok (openingHeader ratchet, ciphertext) := by
  have framed : openingFrame ratchet ciphertext = Session.frame ⟨P.publicKey ratchet, 0, 0⟩ ciphertext :=
    (frame_eq ⟨P.publicKey ratchet, 0, 0⟩ ciphertext).symm
  have parts := unframe_ofCore (Session.frame ⟨P.publicKey ratchet, 0, 0⟩ ciphertext)
  rw [Session.unframe_frame] at parts
  rw [framed]
  cases found : SignalSession.unframe (Session.frame ⟨P.publicKey ratchet, 0, 0⟩ ciphertext) with
  | error e =>
    rw [found] at parts
    cases parts
  | ok both =>
    rw [found] at parts
    exact congrArg Except.ok (Option.some.inj parts)

theorem initBob_decrypt (sharedSecret : P.Key) (prekey fresh ratchet : P.Secret) (ciphertext : Bytes) :
    ((SignalSession.initBob sharedSecret prekey).decrypt fresh (openingFrame ratchet ciphertext)).1 =
      decryptWithAd P (kdfCk P (kdfRk P sharedSecret (P.diffieHellman prekey (P.publicKey ratchet))).2).2
        ciphertext (openingHeader ratchet).serialize := by
  have established : (SignalSession.initBob sharedSecret prekey).established = true := rfl
  rw [SignalSession.decrypt, if_pos established, unframe_openingFrame]
  rfl

end Keys

section Exec
variable {c c' : Service P}

theorem exec_ask {r : Request P} {a : Answer r} (answered : Service.perform r c = some (a, c'))
    (f : Answer r → Dart P β) : (ask r >>= f).exec c = (f a).exec c' :=
  Async.exec_call (M := machine P) answered _

theorem exec_pause (f : Unit → Dart P β) : (pause >>= f).exec c = (f ()).exec c := rfl

theorem exec_bind {t : Dart P α} {f : α → Dart P β} {a : α} (ran : t.exec c = (.done (.ok a), c')) :
    (t >>= f).exec c = (f a).exec c' :=
  Async.exec_bind_ok ran

theorem exec_bind_error {t : Dart P α} {f : α → Dart P β} {e : Thrown} (ran : t.exec c = (.done (.error e), c')) :
    (t >>= f).exec c = (.done (.error e), c') :=
  Async.exec_bind_error ran

theorem saveSession_exec (available : c.storage = true) (slot : Slot) (session : Nat) :
    (saveSession slot session : Dart P Unit).exec c =
      (.done (.ok ()), { c with saved := c.saved.insert slot (c.heap session) }) := by
  refine (exec_ask rfl _).trans ((exec_pause _).trans ?_)
  refine (exec_ask rfl _).trans ((exec_pause _).trans ?_)
  refine (exec_ask rfl _).trans ((exec_pause _).trans ?_)
  rw [Service.writing, if_pos available, Service.stored, if_pos available]
  rfl

theorem readIdentity_exec (available : c.storage = true) (peer : String) :
    (readIdentity peer : Dart P (Option String)).exec c = (.done (.ok (c.identities peer)), c) := by
  refine (exec_ask rfl _).trans ((exec_pause _).trans ?_)
  rw [Service.reading, if_pos available]
  rfl

/-- A new key is stored, the trusted one confirmed, a different one put aside and flagged. -/
def Service.meet (c : Service P) (peer newKeyB64 : String) : Service P :=
  match c.identities peer with
  | none => { c with identities := Function.update c.identities peer (some newKeyB64) }
  | some existing =>
    if existing = newKeyB64 then { c with pendingIdentities := Function.update c.pendingIdentities peer none }
    else
      { c with
        pendingIdentities := Function.update c.pendingIdentities peer (some newKeyB64)
        changed := Function.update c.changed peer true }

theorem Service.meet_eq (c : Service P) (peer newKeyB64 : String) :
    ∃ identities pending changed, c.meet peer newKeyB64 =
      { c with identities := identities, pendingIdentities := pending, changed := changed } := by
  unfold meet
  split
  · exact ⟨_, _, _, rfl⟩
  · split <;> exact ⟨_, _, _, rfl⟩

theorem storePeerIdentityKeyTofu_exec (available : c.storage = true) (peer newKeyB64 : String) :
    (storePeerIdentityKeyTofu peer newKeyB64 : Dart P Unit).exec c =
      (.done (.ok ()), c.meet peer newKeyB64) := by
  have wrote : ∀ c' : Service P, c.stored c' = c' := fun c' => if_pos available
  have fine : c.writing = .ok () := if_pos available
  refine (exec_bind (readIdentity_exec available peer)).trans ?_
  unfold Service.meet
  cases held : c.identities peer with
  | none =>
    refine (exec_ask rfl _).trans ((exec_pause _).trans ?_)
    rw [fine, wrote]
    rfl
  | some existing =>
    simp only
    split
    · refine (exec_ask rfl _).trans ?_
      rw [wrote]
      rfl
    · refine (exec_ask rfl _).trans ((exec_pause _).trans ?_)
      rw [fine, wrote]
      refine (exec_ask rfl _).trans ((exec_pause _).trans ?_)
      have fine' : ∀ pending, ({ c with pendingIdentities := pending } : Service P).writing = .ok () :=
        fun pending => if_pos available
      have wrote' : ∀ pending (c' : Service P),
          ({ c with pendingIdentities := pending } : Service P).stored c' = c' := fun pending c' => if_pos available
      rw [fine', wrote']
      rfl

def Service.drop (c : Service P) (slot : Slot) : Service P :=
  let removed := { c with sessions := (SessionCache.remove c.sessions slot).1 }.zero
    (SessionCache.remove c.sessions slot).2
  removed.stored { removed with saved := removed.saved.erase slot }

def Service.forget (c : Service P) (slot : Slot) : Service P :=
  if SessionCache.containsKey c.sessions slot then c.drop slot else c

def Service.clear (c : Service P) (slot : Slot) (peer : String) (fromDeviceId : Option Int) : Service P :=
  if fromDeviceId.isSome then (c.forget slot).forget (.legacy peer) else c.forget slot

theorem clearStaleSession_exec (slot : Slot) (peer : String) (fromDeviceId : Option Int) :
    (clearStaleSession slot peer fromDeviceId : Dart P Unit).exec c =
      (.done (.ok ()), c.clear slot peer fromDeviceId) := by
  have first : ∀ (c : Service P) (slot : Slot) (f : Unit → Dart P Unit),
      (ask (.containsKey slot) >>= fun held : Bool => do
        if held then
          ask (.remove slot)
          deleteSession slot
        f ()).exec c = (f ()).exec (c.forget slot) := by
    intro c slot f
    refine (exec_ask rfl _).trans ?_
    unfold Service.forget
    cases SessionCache.containsKey c.sessions slot <;> rfl
  unfold Service.clear
  cases fromDeviceId with
  | none => exact first c slot fun _ => pause
  | some device =>
    have second := first (c.forget slot) (.legacy peer) fun _ => pause
    refine (first c slot fun _ => do
      let legacy : Bool ← ask (.containsKey (.legacy peer))
      if legacy then
        ask (.remove (.legacy peer))
        deleteSession (.legacy peer)
      pause).trans second

theorem Service.forget_eq (c : Service P) (slot : Slot) : ∃ heap sessions saved,
    c.forget slot = { c with heap := heap, sessions := sessions, saved := saved } := by
  unfold forget
  split
  · simp only [drop, stored]
    split <;> exact ⟨_, _, _, rfl⟩
  · exact ⟨_, _, _, rfl⟩

theorem Service.clear_eq (c : Service P) (slot : Slot) (peer : String) (fromDeviceId : Option Int) :
    ∃ heap sessions saved,
      c.clear slot peer fromDeviceId = { c with heap := heap, sessions := sessions, saved := saved } := by
  obtain ⟨heap, sessions, saved, first⟩ := c.forget_eq slot
  unfold clear
  split
  · obtain ⟨heap', sessions', saved', second⟩ := (c.forget slot).forget_eq (.legacy peer)
    rw [second, first]
    exact ⟨_, _, _, rfl⟩
  · exact ⟨_, _, _, first⟩

@[simp] theorem Service.clear_storage (c : Service P) (slot : Slot) (peer : String) (fromDeviceId : Option Int) :
    (c.clear slot peer fromDeviceId).storage = c.storage := by
  obtain ⟨heap, sessions, saved, cleared⟩ := c.clear_eq slot peer fromDeviceId
  rw [cleared]

/-- The one-time prekey a wire names: none named, or the one stored under its id. -/
def Service.wireOtp (c : Service P) (fullWire : Bytes) (v2 : Bool) : Option (Option P.Secret) :=
  if v2 then (c.otps (int32OfBytes ((fullWire.drop 66).take 4))).map some else some none

def wireBody (fullWire : Bytes) (v2 : Bool) : Bytes := if v2 then fullWire.drop 70 else fullWire.drop 66

@[simp] theorem Service.clear_wireOtp (c : Service P) (slot : Slot) (peer : String) (fromDeviceId : Option Int)
    (fullWire : Bytes) (v2 : Bool) :
    (c.clear slot peer fromDeviceId).wireOtp fullWire v2 = c.wireOtp fullWire v2 := by
  obtain ⟨heap, sessions, saved, cleared⟩ := c.clear_eq slot peer fromDeviceId
  rw [cleared]
  rfl

theorem parseOtpAndSessionWire_exec (available : c.storage = true) {fullWire : Bytes} {v2 : Bool}
    {otp : Option P.Secret} (named : c.wireOtp fullWire v2 = some otp) :
    (parseOtpAndSessionWire fullWire v2 : Dart P _).exec c = (.done (.ok (otp, wireBody fullWire v2)), c) := by
  cases v2 with
  | false =>
    cases Option.some.inj named
    rfl
  | true =>
    refine (exec_ask rfl _).trans ((exec_pause _).trans ?_)
    rw [Service.reading, if_pos available]
    simp only [Service.wireOtp, if_true] at named
    cases held : c.otps (int32OfBytes ((fullWire.drop 66).take 4)) with
    | none =>
      rw [held] at named
      cases named
    | some key =>
      rw [held] at named
      cases Option.some.inj named
      rfl

def unknownOtp (fullWire : Bytes) : Thrown :=
  .exception ("OTP key_id=" ++ toString (int32OfBytes ((fullWire.drop 66).take 4)) ++ " not found. " ++
    "Ask the sender to resend the message.")

theorem parseOtpAndSessionWire_unknown (available : c.storage = true) {fullWire : Bytes} {v2 : Bool}
    (unknown : c.wireOtp fullWire v2 = none) :
    (parseOtpAndSessionWire fullWire v2 : Dart P _).exec c = (.done (.error (unknownOtp fullWire)), c) := by
  cases v2 with
  | false => cases unknown
  | true =>
    refine (exec_ask rfl _).trans ((exec_pause _).trans ?_)
    rw [Service.reading, if_pos available]
    simp only [Service.wireOtp, if_true] at unknown
    cases held : c.otps (int32OfBytes ((fullWire.drop 66).take 4)) with
    | none => rfl
    | some key =>
      rw [held] at unknown
      cases unknown

theorem x25519Key_exec {bytes : Bytes} {key : Block 32} (same : key.toList = bytes) :
    (x25519Key bytes : Dart P (Block 32)).exec c = (.done (.ok key), c) := by
  subst same
  unfold x25519Key
  split
  · rfl
  · rename_i other
    exact absurd key.2 other

variable (keys : OwnKeys P) {fullWire : Bytes} {v2 : Bool} (slot : Slot) (peer : String) (fromDeviceId : Option Int)
  {otp : Option P.Secret} {identityPub ephemeralPub : Block 32}

/-- The session a wire sets up, before anything has been opened with it. -/
def answeringSession (keys : OwnKeys P) (otp : Option P.Secret) (identityPub ephemeralPub : Block 32) :
    SignalSession P :=
  .initBob (X3DH.respond keys.identity keys.signedPrekey otp identityPub ephemeralPub) keys.signedPrekey

def Service.answering (c : Service P) (slot : Slot) (peer : String) (fromDeviceId : Option Int)
    (identityPub : Block 32) : Service P :=
  (c.clear slot peer fromDeviceId).meet peer (base64Encode identityPub.toList)

theorem Service.answering_eq (c : Service P) (slot : Slot) (peer : String) (fromDeviceId : Option Int)
    (identityPub : Block 32) : ∃ heap saved identities pending changed,
      c.answering slot peer fromDeviceId identityPub =
        { c with
          heap := heap, saved := saved, identities := identities, pendingIdentities := pending, changed := changed
          sessions := (c.clear slot peer fromDeviceId).sessions } := by
  obtain ⟨heap, sessions, saved, cleared⟩ := c.clear_eq slot peer fromDeviceId
  obtain ⟨identities, pending, changed, met⟩ :=
    (c.clear slot peer fromDeviceId).meet_eq peer (base64Encode identityPub.toList)
  rw [answering, met, cleared]
  exact ⟨_, _, _, _, _, rfl⟩

theorem newKeyPair_exec :
    (newKeyPair : Dart P P.Secret).exec c = (.done (.ok (c.secrets c.drawn)), { c with drawn := c.drawn + 1 }) := rfl

theorem sessionDecrypt_exec (session : Nat) (data : Bytes) :
    (sessionDecrypt session data : Dart P Bytes).exec c =
      (.done (((c.heap session).decrypt (c.secrets c.drawn) data).1),
        { c with
          drawn := c.drawn + 1
          heap := Function.update c.heap session ((c.heap session).decrypt (c.secrets c.drawn) data).2 }) := by
  refine (exec_bind newKeyPair_exec).trans ?_
  refine (exec_ask rfl _).trans ?_
  refine (exec_ask rfl _).trans ((exec_pause _).trans ?_)
  change (returned ((c.heap session).decrypt (c.secrets c.drawn) data).1 : Dart P Bytes).exec _ = _
  cases ((c.heap session).decrypt (c.secrets c.drawn) data).1 <;> rfl

section Initial
variable (available : c.storage = true) (identityBytes : identityPub.toList = (fullWire.drop 2).take 32)
  (ephemeralBytes : ephemeralPub.toList = (fullWire.drop 34).take 32)
include available

theorem decryptInitialMessage_unknown (unknown : c.wireOtp fullWire v2 = none) :
    (decryptInitialMessage keys fullWire v2 slot peer fromDeviceId).exec c =
      (.done (.error (unknownOtp fullWire)), c.clear slot peer fromDeviceId) := by
  refine (exec_bind (clearStaleSession_exec slot peer fromDeviceId)).trans ?_
  refine exec_bind_error (parseOtpAndSessionWire_unknown ?_ ?_)
  · rw [c.clear_storage, available]
  · rw [c.clear_wireOtp, unknown]

/-- After the choice of the prekey: one attempt on the ciphertext, then the session is put and saved. -/
def openInitial (fullWire : Bytes) (v2 : Bool) (slot : Slot) (peer : String) (otp : Option P.Secret)
    (session : Nat) : Dart P String := do
  let plainBytes ← Async.catching (sessionDecrypt session (wireBody fullWire v2)) fun _ =>
    throw (.initialDecryptFailed peer)
  ask (.put slot session)
  saveSession slot session
  if otp.isSome then
    ask (.deleteOtp (int32OfBytes ((fullWire.drop 66).take 4)))
    pause
  utf8Decoded plainBytes

include identityBytes ephemeralBytes

theorem decryptInitialMessage_exec (named : c.wireOtp fullWire v2 = some otp) :
    (decryptInitialMessage keys fullWire v2 slot peer fromDeviceId).exec c =
      (openInitial fullWire v2 slot peer otp c.allocated).exec
        { c.answering slot peer fromDeviceId identityPub with
          heap := Function.update (c.answering slot peer fromDeviceId identityPub).heap c.allocated
            (answeringSession keys otp identityPub ephemeralPub)
          allocated := c.allocated + 1 } := by
  have stored : (c.clear slot peer fromDeviceId).storage = true := (c.clear_storage ..).trans available
  have kept : (c.clear slot peer fromDeviceId).wireOtp fullWire v2 = some otp := (c.clear_wireOtp ..).trans named
  obtain ⟨heap, saved, identities, pending, changed, ready⟩ := c.answering_eq slot peer fromDeviceId identityPub
  refine (exec_bind (clearStaleSession_exec slot peer fromDeviceId)).trans ?_
  refine (exec_bind (parseOtpAndSessionWire_exec stored kept)).trans ?_
  refine (exec_bind (storePeerIdentityKeyTofu_exec stored peer _)).trans ?_
  refine (exec_bind (x25519Key_exec identityBytes)).trans ((exec_bind (x25519Key_exec ephemeralBytes)).trans ?_)
  have count : (c.answering slot peer fromDeviceId identityPub).allocated = c.allocated := by rw [ready]
  rw [← identityBytes]
  change (openInitial fullWire v2 slot peer otp (c.answering slot peer fromDeviceId identityPub).allocated).exec
    { c.answering slot peer fromDeviceId identityPub with
      heap := Function.update (c.answering slot peer fromDeviceId identityPub).heap
        (c.answering slot peer fromDeviceId identityPub).allocated
        (answeringSession keys otp identityPub ephemeralPub)
      allocated := (c.answering slot peer fromDeviceId identityPub).allocated + 1 } = _
  rw [count]

variable {s : SignalSession P}

omit identityBytes ephemeralBytes available in
theorem openInitial_refused (otp : Option P.Secret) {session : Nat} {e : Thrown}
    (refused : (c.heap session).decrypt (c.secrets c.drawn) (wireBody fullWire v2) = (.error e, s)) :
    (openInitial fullWire v2 slot peer otp session).exec c =
      (.done (.error (.initialDecryptFailed peer)),
        { c with drawn := c.drawn + 1, heap := Function.update c.heap session s }) := by
  refine exec_bind_error ?_
  rw [Async.exec_catching, sessionDecrypt_exec, refused]
  rfl

def Service.hold (c : Service P) (slot : Slot) (session : Nat) : Service P :=
  { c with sessions := (SessionCache.put c.sessions slot session c.now).1 }.zero
    (SessionCache.put c.sessions slot session c.now).2

/-- The ciphertext has opened: the session is put and saved before the text is decoded. -/
def Service.opened (c : Service P) (slot : Slot) (session : Nat) (s : SignalSession P) : Service P :=
  let c := { c with drawn := c.drawn + 1, heap := Function.update c.heap session s }.hold slot session
  { c with saved := c.saved.insert slot (c.heap session) }

def decoded (bytes : Bytes) : Except Thrown String :=
  match ofUtf8 bytes with
  | some text => .ok text
  | none => .error .format

omit identityBytes ephemeralBytes in
theorem openInitial_opened (otp : Option P.Secret) {session : Nat} {bytes : Bytes}
    (opened : (c.heap session).decrypt (c.secrets c.drawn) (wireBody fullWire v2) = (.ok bytes, s)) :
    ∃ otps, (openInitial fullWire v2 slot peer otp session).exec c =
      (.done (decoded bytes), { c.opened slot session s with otps := otps }) := by
  have ran : (Async.catching (sessionDecrypt session (wireBody fullWire v2)) fun _ =>
      throw (.initialDecryptFailed peer) : Dart P Bytes).exec c =
      (.done (.ok bytes), { c with drawn := c.drawn + 1, heap := Function.update c.heap session s }) := by
    rw [Async.exec_catching, sessionDecrypt_exec, opened]
    rfl
  have text : ∀ c : Service P, (utf8Decoded bytes : Dart P String).exec c = (.done (decoded bytes), c) := by
    intro c
    unfold utf8Decoded decoded
    cases ofUtf8 bytes <;> rfl
  refine ⟨if otp.isSome then Function.update c.otps (int32OfBytes ((fullWire.drop 66).take 4)) none else c.otps, ?_⟩
  refine (exec_bind ran).trans ((exec_ask rfl _).trans ?_)
  refine (exec_bind (saveSession_exec ?_ slot session)).trans ?_
  · exact available
  cases otp with
  | none => exact text _
  | some key =>
    refine (exec_ask rfl _).trans ((exec_pause _).trans ?_)
    rw [Service.stored, if_pos ?_]
    · exact text _
    · exact available

theorem decryptInitialMessage_refused (named : c.wireOtp fullWire v2 = some otp) {e : Thrown}
    (refused : (answeringSession keys otp identityPub ephemeralPub).decrypt (c.secrets c.drawn)
      (wireBody fullWire v2) = (.error e, s)) :
    ∃ c', (decryptInitialMessage keys fullWire v2 slot peer fromDeviceId).exec c =
        (.done (.error (.initialDecryptFailed peer)), c') ∧
      c'.sessions = (c.clear slot peer fromDeviceId).sessions := by
  obtain ⟨heap, saved, identities, pending, changed, ready⟩ := c.answering_eq slot peer fromDeviceId identityPub
  have here := Function.update_self c.allocated (answeringSession keys otp identityPub ephemeralPub) heap
  rw [← here] at refused
  rw [decryptInitialMessage_exec keys slot peer fromDeviceId available identityBytes ephemeralBytes named, ready]
  generalize Function.update heap c.allocated (answeringSession keys otp identityPub ephemeralPub) = heap' at refused
  exact ⟨_, openInitial_refused slot peer otp refused, rfl⟩

theorem decryptInitialMessage_opened (named : c.wireOtp fullWire v2 = some otp) {bytes : Bytes}
    (opened : (answeringSession keys otp identityPub ephemeralPub).decrypt (c.secrets c.drawn)
      (wireBody fullWire v2) = (.ok bytes, s)) :
    ∃ (d : Service P) (otps : Int → Option P.Secret), d.sessions = (c.clear slot peer fromDeviceId).sessions ∧
      (decryptInitialMessage keys fullWire v2 slot peer fromDeviceId).exec c =
        (.done (decoded bytes), { d.opened slot c.allocated s with otps := otps }) := by
  obtain ⟨heap, saved, identities, pending, changed, ready⟩ := c.answering_eq slot peer fromDeviceId identityPub
  have here := Function.update_self c.allocated (answeringSession keys otp identityPub ephemeralPub) heap
  rw [← here] at opened
  rw [decryptInitialMessage_exec keys slot peer fromDeviceId available identityBytes ephemeralBytes named, ready]
  generalize Function.update heap c.allocated (answeringSession keys otp identityPub ephemeralPub) = heap' at opened
  obtain ⟨otps, ran⟩ := openInitial_opened (c := { c with
    heap := heap', saved := saved, identities := identities, pendingIdentities := pending, changed := changed
    sessions := (c.clear slot peer fromDeviceId).sessions, allocated := c.allocated + 1 }) slot peer available otp
    opened
  refine ⟨_, otps, ?_, ran⟩
  rfl

theorem decryptInitialMessage_result (named : c.wireOtp fullWire v2 = some otp) :
    ((decryptInitialMessage keys fullWire v2 slot peer fromDeviceId).exec c).1 =
      .done (match ((answeringSession keys otp identityPub ephemeralPub).decrypt (c.secrets c.drawn)
          (wireBody fullWire v2)).1 with
        | .ok bytes => decoded bytes
        | .error _ => .error (.initialDecryptFailed peer)) := by
  generalize tried : (answeringSession keys otp identityPub ephemeralPub).decrypt (c.secrets c.drawn)
    (wireBody fullWire v2) = outcome
  obtain ⟨result, s⟩ := outcome
  cases result with
  | error e =>
    obtain ⟨c', ran, -⟩ := decryptInitialMessage_refused keys slot peer fromDeviceId available identityBytes
      ephemeralBytes named tried
    rw [ran]
  | ok bytes =>
    obtain ⟨d, otps, -, ran⟩ := decryptInitialMessage_opened keys slot peer fromDeviceId available identityBytes
      ephemeralBytes named tried
    rw [ran]

end Initial

/-- The slot `_sessionKeyFor` picks. -/
def Service.keyFor (c : Service P) (peer : String) : Option Int → Slot
  | none => .legacy peer
  | some device =>
    if SessionCache.isFresh c.sessions ⟨peer, some device⟩ c.now then ⟨peer, some device⟩
    else if SessionCache.isFresh c.sessions (.legacy peer) c.now then .legacy peer
    else ⟨peer, some device⟩

theorem sessionKeyFor_exec (peer : String) (fromDeviceId : Option Int) :
    (sessionKeyFor peer fromDeviceId : Dart P Slot).exec c = (.done (.ok (c.keyFor peer fromDeviceId)), c) := by
  cases fromDeviceId with
  | none => rfl
  | some device =>
    refine (exec_ask rfl _).trans ?_
    unfold Service.keyFor
    simp only
    split
    · rfl
    · refine (exec_ask rfl _).trans ?_
      split <;> rfl

theorem withSessionLock_exec {slot : Slot} (free : slot ∉ c.locks) {operation : Dart P β} {r : Except Thrown β}
    (ran : operation.exec { c with locks := slot :: c.locks } = (.done r, c')) :
    (withSessionLock slot operation).exec c = (.done r, { c' with locks := c'.locks.filter (· ≠ slot) }) := by
  have taken : Service.perform (.lock slot) c = some ((), { c with locks := slot :: c.locks }) := if_neg free
  refine (exec_ask taken _).trans ?_
  refine (Async.exec_ensuring operation _ _).trans ?_
  rw [ran]
  rfl

variable {text : String}

theorem decryptMessageImpl_exec (decodes : base64Decode text = some fullWire) :
    (decryptMessageImpl keys peer text fromDeviceId).exec c =
      (if isV1 fullWire || isV2 fullWire then
        decryptInitialMessage keys fullWire (isV2 fullWire) (c.keyFor peer fromDeviceId) peer fromDeviceId
      else decryptNormalMessage fullWire (c.keyFor peer fromDeviceId)).exec c := by
  have bytes : (base64Decoded text : Dart P Bytes).exec c = (.done (.ok fullWire), c) := by
    rw [base64Decoded, decodes]
    rfl
  exact (exec_bind (sessionKeyFor_exec peer fromDeviceId)).trans (exec_bind bytes)

theorem decryptMessage_exec {r : Except Thrown String} (free : c.keyFor peer fromDeviceId ∉ c.locks)
    (ran : (decryptMessageImpl keys peer text fromDeviceId).exec
      { c with locks := c.keyFor peer fromDeviceId :: c.locks } = (.done r, c')) :
    (decryptMessage keys peer text fromDeviceId).exec c =
      (.done r, { c' with locks := c'.locks.filter (· ≠ c.keyFor peer fromDeviceId) }) :=
  (exec_bind (sessionKeyFor_exec peer fromDeviceId)).trans (withSessionLock_exec free ran)

theorem decryptMessage_initial {r : Except Thrown String}
    (free : c.keyFor peer fromDeviceId ∉ c.locks) (decodes : base64Decode text = some fullWire)
    (initial : (isV1 fullWire || isV2 fullWire) = true)
    (opens : ((decryptInitialMessage keys fullWire (isV2 fullWire) (c.keyFor peer fromDeviceId) peer fromDeviceId).exec
      { c with locks := c.keyFor peer fromDeviceId :: c.locks }).1 = .done r) :
    ((decryptMessage keys peer text fromDeviceId).exec c).1 = .done r := by
  have impl := decryptMessageImpl_exec keys peer fromDeviceId (c := { c with
    locks := c.keyFor peer fromDeviceId :: c.locks }) decodes
  rw [if_pos initial] at impl
  exact congrArg Prod.fst (decryptMessage_exec keys peer fromDeviceId free (impl.trans (Prod.ext opens rfl)))

end Exec

section Sender
variable {c : Service P}

def Service.Allocated (c : Service P) : Prop :=
  ∀ slot entry, c.sessions.find slot = some entry → entry.session < c.allocated

def Service.Sole (c : Service P) (slot : Slot) (session : Nat) : Prop :=
  ∀ other entry, other ≠ slot → c.sessions.find other = some entry → entry.session ≠ session

variable {slot : Slot}

theorem Service.Sole.hold {session : Nat} (sole : c.Sole slot session) :
    (c.hold slot session).heap session = c.heap session := by
  refine if_neg fun zeroed => ?_
  rw [SessionCache.put_zeroed, List.mem_append] at zeroed
  rcases zeroed with old | out
  · unfold SessionCache.replaced at old
    split at old
    · cases old
    · split at old
      · cases old
      · rename_i apart
        exact apart (List.mem_singleton.mp old).symm
  · obtain ⟨⟨key, entry⟩, front, rfl⟩ := List.mem_map.mp out
    have apart : key ≠ slot := by
      rintro rfl
      exact SessionCache.not_mem_overflow c.sessions key _ (List.mem_map.mpr ⟨_, front, rfl⟩)
    have found : (c.sessions.insert slot ⟨entry.session, c.now⟩).find key = some entry :=
      LinkedMap.find_eq_some.mpr (SessionCache.mem_of_overflow front)
    rw [LinkedMap.find_insert apart] at found
    exact sole key entry apart found rfl

theorem sessionEncrypt_exec {session : Nat} {plaintext ciphertext : Bytes}
    (established : (c.heap session).established = true) :
    let header : MessageHeader := ⟨(c.heap session).sendRatchetPublic, (c.heap session).prevSendCounter,
      (c.heap session).sendCounter⟩
    encryptWithAd P (kdfCk P (c.heap session).sendChainKey).2 (c.nonces c.sealed) plaintext header.serialize =
        .ok ciphertext →
      ∃ heap, (sessionEncrypt session plaintext : Dart P Bytes).exec c =
        (.done (.ok (leBytes 4 header.serialize.length ++ (header.serialize ++ ciphertext))),
          { c with heap := heap, sealed := c.sealed + 1 }) := by
  intro header encrypted
  refine ⟨Function.update c.heap session { c.heap session with
    sendChainKey := (kdfCk P (c.heap session).sendChainKey).1, sendCounter := (c.heap session).sendCounter + 1 }, ?_⟩
  refine (exec_ask rfl _).trans ?_
  rw [if_pos established]
  refine (exec_pause _).trans ((exec_ask rfl _).trans ?_)
  refine (exec_ask rfl _).trans ?_
  refine (exec_ask rfl _).trans ((exec_pause _).trans ?_)
  rw [encrypted]
  rfl

def Service.missed (c : Service P) (slot : Slot) : Service P :=
  { c with sessions := (SessionCache.get c.sessions slot c.now).2.1 }.zero (SessionCache.get c.sessions slot c.now).2.2

theorem Service.missed_sole (allocated : c.Allocated) : (c.missed slot).Sole slot c.allocated := by
  intro other entry apart found
  have before : c.sessions.find other = some entry := by
    change ((SessionCache.get c.sessions slot c.now).2.1).find other = some entry at found
    unfold SessionCache.get at found
    split at found
    · exact found
    · split at found
      · rwa [LinkedMap.find_erase apart] at found
      · rwa [LinkedMap.find_insert apart] at found
  exact Nat.ne_of_lt (allocated other entry before)

theorem reloadSession_none (available : c.storage = true) (unsaved : c.saved.find slot = none) :
    (reloadSession slot : Dart P (Option Nat)).exec c = (.done (.ok none), c) := by
  unfold reloadSession
  refine (Async.exec_catching _ _ _).trans ?_
  have read : (readSession slot : Dart P _).exec c = (.done (.ok none), c) := by
    refine (exec_ask rfl _).trans ((exec_pause _).trans ?_)
    rw [Service.reading, if_pos available, unsaved]
    rfl
  rw [exec_bind read]
  rfl

theorem base64Decoded_exec (bytes : Bytes) :
    (base64Decoded (base64Encode bytes) : Dart P Bytes).exec c = (.done (.ok bytes), c) := by
  rw [base64Decoded, base64Decode_encode]
  rfl

variable (keys : OwnKeys P) (b : Published P) {peer : String}

def Published.initiate (ephemeral : P.Secret) : X3dhInitResult P :=
  X3DH.initiate keys.identity ephemeral (P.publicKey b.identity) (P.publicKey b.signedPrekey)
    (b.oneTimePrekey.map fun otp => P.publicKey otp.2)

def Service.started (c : Service P) (slot : Slot) (s : SignalSession P) : Service P :=
  let put := { c with
    drawn := c.drawn + 1, heap := Function.update c.heap c.allocated s, allocated := c.allocated + 1 }.hold slot c.allocated
  { put with saved := put.saved.insert slot (put.heap c.allocated) }

theorem Service.started_heap {s : SignalSession P} (sole : c.Sole slot c.allocated) :
    (c.started slot s).heap c.allocated = s := by
  have held : ({ c with
      drawn := c.drawn + 1, heap := Function.update c.heap c.allocated s
      allocated := c.allocated + 1 } : Service P).Sole slot c.allocated := sole
  exact held.hold.trans (Function.update_self ..)

theorem exec_started (available : c.storage = true) (slot : Slot) (x3dhResult : X3dhInitResult P)
    (signedPrekey : Block 32) (otpKeyId : Option Int) :
    (do
      let fresh ← newKeyPair
      let session ← ask (.new (SignalSession.initAlice fresh x3dhResult.sharedSecret signedPrekey))
      ask (.put slot session)
      saveSession slot session
      pure ⟨session, some x3dhResult, otpKeyId⟩ : Dart P (SessionInfo P)).exec c =
      (.done (.ok ⟨c.allocated, some x3dhResult, otpKeyId⟩),
        c.started slot (.initAlice (c.secrets c.drawn) x3dhResult.sharedSecret signedPrekey)) := by
  refine (exec_bind newKeyPair_exec).trans ((exec_ask rfl _).trans ?_)
  refine (exec_ask rfl _).trans ((exec_bind (saveSession_exec ?_ slot _)).trans rfl)
  exact available

theorem establish_exec (available : c.storage = true) :
    (establish keys slot b.bundle (P.publicKey b.identity).toList (P.publicKey b.signedPrekey).toList).exec c =
      (.done (.ok ⟨c.allocated, some (b.initiate keys (c.secrets c.drawn)), b.oneTimePrekey.map Prod.fst⟩),
        { c with drawn := c.drawn + 1 }.started slot (.initAlice (c.secrets (c.drawn + 1))
          (b.initiate keys (c.secrets c.drawn)).sharedSecret (P.publicKey b.signedPrekey))) := by
  have later : ({ c with drawn := c.drawn + 1 } : Service P).storage = true := available
  unfold establish Published.initiate
  cases named : b.oneTimePrekey with
  | none =>
    simp only [Published.bundle, named, Option.map_none, Option.bind_none]
    refine (exec_ask rfl _).trans ((exec_pause _).trans ?_)
    refine (exec_bind (x25519Key_exec rfl)).trans ((exec_bind (x25519Key_exec rfl)).trans ?_)
    exact exec_started later ..
  | some otp =>
    simp only [Published.bundle, named, Option.map_some, Option.bind_some]
    refine (exec_bind (base64Decoded_exec _)).trans ?_
    refine (exec_ask rfl _).trans ((exec_pause _).trans ?_)
    refine (exec_bind (x25519Key_exec rfl)).trans ((exec_bind (x25519Key_exec rfl)).trans ?_)
    refine (exec_bind (x25519Key_exec rfl)).trans ?_
    exact exec_started later ..

/-- The sender has no session with the peer, and the server hands out the bundle. -/
structure FirstContact (c : Service P) (peer : String) (b : Published P) : Prop where
  available : c.storage = true
  unusable : c.Unusable (.legacy peer)
  allocated : c.Allocated
  trusted : ∀ key, c.identities peer = some key → key = base64Encode (P.publicKey b.identity).toList
  reply : c.bundleReplies c.fetched = ⟨200, some b.bundle⟩

def Service.acquainted (c : Service P) (peer : String) (b : Published P) : Service P :=
  { c.missed (.legacy peer) with fetched := c.fetched + 1 }.meet peer (base64Encode (P.publicKey b.identity).toList)

theorem verifySignedPrekey_exec (failed : String) :
    (verifySignedPrekey (P.publicKey b.signedPrekey).toList (base64Encode b.signingKey) (base64Encode b.signature)
      failed : Dart P Unit).exec c = (.done (.ok ()), c) := by
  refine (exec_bind (base64Decoded_exec _)).trans ((exec_bind (base64Decoded_exec _)).trans ((exec_pause _).trans ?_))
  rw [if_pos b.authentic]
  rfl

theorem getOrCreateSession_exec (first : FirstContact c peer b) :
    (getOrCreateSession keys peer).exec c =
      (establish keys (.legacy peer) b.bundle (P.publicKey b.identity).toList
        (P.publicKey b.signedPrekey).toList).exec (c.acquainted peer b) := by
  have missed : Service.perform (.get (.legacy peer)) c = some (none, c.missed (.legacy peer)) :=
    congrArg (fun found => some (found, c.missed (.legacy peer))) (SessionCache.get_stale first.unusable.memory)
  refine (exec_ask missed _).trans ?_
  refine (exec_bind (reloadSession_none ?_ ?_)).trans ?_
  · exact first.available
  · exact first.unusable.store
  refine (exec_ask rfl _).trans ((exec_pause _).trans ?_)
  rw [show (c.missed (.legacy peer)).bundleReplies (c.missed (.legacy peer)).fetched = ⟨200, some b.bundle⟩ from
    first.reply]
  rw [if_neg (by decide : ¬ 200 = 401), if_neg (by decide : ¬ 200 ≠ 200)]
  refine (exec_bind (base64Decoded_exec _)).trans ((exec_bind (base64Decoded_exec _)).trans ?_)
  refine (exec_bind (verifySignedPrekey_exec b _)).trans ?_
  refine (exec_bind (readIdentity_exec ?_ peer)).trans ?_
  · exact first.available
  have identity : ∀ fetched, ({ c.missed (.legacy peer) with fetched := fetched } : Service P).identities peer =
      c.identities peer := fun _ => rfl
  have trusts : (storePeerIdentityKeyTofu peer (base64Encode (P.publicKey b.identity).toList) : Dart P Unit).exec
      { c.missed (.legacy peer) with fetched := c.fetched + 1 } = (.done (.ok ()), c.acquainted peer b) :=
    storePeerIdentityKeyTofu_exec (c := { c.missed (.legacy peer) with fetched := c.fetched + 1 }) first.available peer _
  rw [identity]
  cases known : c.identities peer with
  | none => exact exec_bind trusts
  | some key =>
    simp only [first.trusted key known, ne_eq, not_true_eq_false, if_false]
    exact exec_bind trusts

theorem Service.acquainted_eq (c : Service P) (peer : String) (b : Published P) :
    ∃ identities pending changed, c.acquainted peer b =
      { c.missed (.legacy peer) with
        fetched := c.fetched + 1, identities := identities, pendingIdentities := pending, changed := changed } :=
  Service.meet_eq _ peer _

theorem getOrCreateSession_creates (first : FirstContact c peer b) :
    ∃ session ephemeral ratchet c', (getOrCreateSession keys peer).exec c =
        (.done (.ok ⟨session, some (b.initiate keys ephemeral), b.oneTimePrekey.map Prod.fst⟩), c') ∧
      c'.storage = true ∧
      c'.heap session =
        .initAlice ratchet (b.initiate keys ephemeral).sharedSecret (P.publicKey b.signedPrekey) := by
  obtain ⟨identities, pending, changed, met⟩ := c.acquainted_eq peer b
  have available : (c.acquainted peer b).storage = true := by
    rw [met]
    exact first.available
  have sole : (c.acquainted peer b).Sole (.legacy peer) (c.acquainted peer b).allocated := by
    rw [met]
    exact Service.missed_sole first.allocated
  have drawn : ({ c.acquainted peer b with drawn := (c.acquainted peer b).drawn + 1 } : Service P).Sole (.legacy peer)
      (c.acquainted peer b).allocated := sole
  refine ⟨_, _, (c.acquainted peer b).secrets ((c.acquainted peer b).drawn + 1), _,
    (getOrCreateSession_exec keys b first).trans (establish_exec keys b available), ?_, ?_⟩
  · exact available
  · exact Service.started_heap drawn

def Published.wire (ephemeral ratchet : P.Secret) (ciphertext : Bytes) : Bytes :=
  buildInitialWire keys (openingFrame ratchet ciphertext)
    ⟨0, some (b.initiate keys ephemeral), b.oneTimePrekey.map Prod.fst⟩

theorem encryptWithAd_seals (laws : Handshake P) (key : P.Key) (nonce : Block 12) (plaintext ad : Bytes) :
    ∃ ciphertext, encryptWithAd P key nonce plaintext ad = .ok ciphertext := by
  obtain ⟨body, found, -⟩ := laws.seals key nonce plaintext ad
  exact ⟨nonce.toList ++ body, by rw [encryptWithAd, found]⟩

theorem encryptMessageImpl_exec (laws : Handshake P) (first : FirstContact c peer b) (plaintext : String) :
    ∃ ephemeral ratchet nonce ciphertext,
      encryptWithAd P (openingKey b keys.identity ephemeral ratchet) nonce (utf8Bytes plaintext)
        (openingHeader ratchet).serialize = .ok ciphertext ∧
      ((encryptMessageImpl keys peer plaintext).exec c).1 =
        .done (.ok (base64Encode (b.wire keys ephemeral ratchet ciphertext))) := by
  obtain ⟨session, ephemeral, ratchet, d, created, available, heap⟩ := getOrCreateSession_creates keys b first
  obtain ⟨ciphertext, sealed⟩ := encryptWithAd_seals laws (openingKey b keys.identity ephemeral ratchet)
    (d.nonces d.sealed) (utf8Bytes plaintext) (openingHeader ratchet).serialize
  have established : (d.heap session).established = true := by
    rw [heap]
    rfl
  have encrypts := @sessionEncrypt_exec P d session (utf8Bytes plaintext) ciphertext established
  simp only [heap] at encrypts
  obtain ⟨after, wired⟩ := encrypts sealed
  refine ⟨ephemeral, ratchet, d.nonces d.sealed, ciphertext, sealed, ?_⟩
  have framed : ∀ handler : Thrown → Dart P (Bytes × SessionInfo P), (Async.catching
      (do
        let wire ← sessionEncrypt session (utf8Bytes plaintext)
        pure (wire, ⟨session, some (b.initiate keys ephemeral), b.oneTimePrekey.map Prod.fst⟩)) handler).exec d =
      (.done (.ok (openingFrame ratchet ciphertext,
        ⟨session, some (b.initiate keys ephemeral), b.oneTimePrekey.map Prod.fst⟩)),
        { d with heap := after, sealed := d.sealed + 1 }) := by
    intro handler
    refine (Async.exec_catching _ _ _).trans ?_
    rw [exec_bind wired]
    rfl
  refine (congrArg Prod.fst ((exec_bind created).trans (exec_bind (framed _)))).trans ?_
  refine (congrArg Prod.fst ((exec_pause _).trans (exec_bind (saveSession_exec ?_ _ session)))).trans ?_
  · exact available
  · rfl

theorem encryptMessage_exec (laws : Handshake P) (first : FirstContact c peer b) (free : Slot.legacy peer ∉ c.locks)
    (plaintext : String) :
    ∃ ephemeral ratchet nonce ciphertext,
      encryptWithAd P (openingKey b keys.identity ephemeral ratchet) nonce (utf8Bytes plaintext)
        (openingHeader ratchet).serialize = .ok ciphertext ∧
      ((encryptMessage keys peer plaintext).exec c).1 =
        .done (.ok (base64Encode (b.wire keys ephemeral ratchet ciphertext))) := by
  have locked : FirstContact { c with locks := .legacy peer :: c.locks } peer b :=
    ⟨first.available, ⟨first.unusable.memory, first.unusable.store⟩, first.allocated, first.trusted, first.reply⟩
  obtain ⟨ephemeral, ratchet, nonce, ciphertext, sealed, ran⟩ := encryptMessageImpl_exec keys b laws locked plaintext
  refine ⟨ephemeral, ratchet, nonce, ciphertext, sealed, ?_⟩
  exact congrArg Prod.fst (withSessionLock_exec free (Prod.ext ran rfl))

end Sender

section Recipient
variable {keys : OwnKeys P} {b : Published P} {ephemeral ratchet : P.Secret} {ciphertext : Bytes}

structure Laid (fullWire : Bytes) (identityPub ephemeralPub : Block 32) (id : Option Int) (body : Bytes) : Prop where
  initial : (isV1 fullWire || isV2 fullWire) = true
  version : isV2 fullWire = id.isSome
  identity : identityPub.toList = (fullWire.drop 2).take 32
  ephemeral : ephemeralPub.toList = (fullWire.drop 34).take 32
  body : wireBody fullWire id.isSome = body
  otp : ∀ n ∈ id, (fullWire.drop 66).take 4 = int32Bytes n

theorem initial_parts {magic first second : Bytes} (two : magic.length = 2) (len : first.length = 32)
    (len' : second.length = 32) (rest : Bytes) :
    (magic ++ (first ++ (second ++ rest))).take 2 = magic ∧
      first = ((magic ++ (first ++ (second ++ rest))).drop 2).take 32 ∧
      second = ((magic ++ (first ++ (second ++ rest))).drop 34).take 32 ∧
      (magic ++ (first ++ (second ++ rest))).drop 66 = rest := by
  have after : (magic ++ (first ++ (second ++ rest))).drop 2 = first ++ (second ++ rest) := List.drop_left' two
  have later : (magic ++ (first ++ (second ++ rest))).drop 34 = second ++ rest := by
    rw [show 34 = 2 + 32 from rfl, ← List.drop_drop, after, List.drop_left' len]
  refine ⟨List.take_left' two, ?_, ?_, ?_⟩
  · rw [after, List.take_left' len]
  · rw [later, List.take_left' len']
  · rw [show 66 = 34 + 32 from rfl, ← List.drop_drop, later, List.drop_left' len']

theorem Published.wire_laid (b : Published P) : Laid (b.wire keys ephemeral ratchet ciphertext) (P.publicKey keys.identity)
    (P.publicKey ephemeral) (b.oneTimePrekey.map Prod.fst) (openingFrame ratchet ciphertext) := by
  have len : (P.publicKey keys.identity).toList.length = 32 := (P.publicKey keys.identity).2
  have len' : (P.publicKey ephemeral).toList.length = 32 := (P.publicKey ephemeral).2
  have long : 4 ≤ (openingFrame ratchet ciphertext).length := by
    simp only [openingFrame, List.length_append, leBytes_length]
    omega
  cases named : b.oneTimePrekey with
  | none =>
    have made : b.wire keys ephemeral ratchet ciphertext = initialMsgMagicV1 ++
        ((P.publicKey keys.identity).toList ++ ((P.publicKey ephemeral).toList ++ openingFrame ratchet ciphertext)) := by
      rw [Published.wire, named]
      rfl
    obtain ⟨front, first, second, rest⟩ := initial_parts (rfl : initialMsgMagicV1.length = 2) len len'
      (openingFrame ratchet ciphertext)
    rw [made]
    refine ⟨?_, ?_, first, second, rest, nofun⟩
    · have enough : 66 < (initialMsgMagicV1 ++ ((P.publicKey keys.identity).toList ++
          ((P.publicKey ephemeral).toList ++ openingFrame ratchet ciphertext))).length := by
        simp only [List.length_append, len, len', initialMsgMagicV1, List.length_cons, List.length_nil]
        omega
      simp only [isV1, front, enough, decide_true, beq_self_eq_true, Bool.and_self, Bool.true_or]
    · have other : (initialMsgMagicV1 == initialMsgMagicV2) = false := rfl
      simp only [isV2, front, other, Bool.and_false]
      rfl
  | some otp =>
    have made : b.wire keys ephemeral ratchet ciphertext = initialMsgMagicV2 ++
        ((P.publicKey keys.identity).toList ++ ((P.publicKey ephemeral).toList ++
          (int32Bytes otp.1 ++ openingFrame ratchet ciphertext))) := by
      rw [Published.wire, named]
      rfl
    have four := int32Bytes_length otp.1
    obtain ⟨front, first, second, rest⟩ := initial_parts (rfl : initialMsgMagicV2.length = 2) len len'
      (int32Bytes otp.1 ++ openingFrame ratchet ciphertext)
    rw [made]
    have enough : 70 < (initialMsgMagicV2 ++ ((P.publicKey keys.identity).toList ++
        ((P.publicKey ephemeral).toList ++ (int32Bytes otp.1 ++ openingFrame ratchet ciphertext)))).length := by
      simp only [List.length_append, len, len', four, initialMsgMagicV2, List.length_cons, List.length_nil]
      omega
    refine ⟨?_, ?_, first, second, ?_, ?_⟩
    · simp only [isV2, front, enough, decide_true, beq_self_eq_true, Bool.and_self, Bool.or_true]
    · simp only [isV2, front, enough, decide_true, beq_self_eq_true, Bool.and_self]
      rfl
    · change (initialMsgMagicV2 ++ _).drop 70 = _
      rw [show 70 = 66 + 4 from rfl, ← List.drop_drop, rest, List.drop_left' four]
    · rintro n ⟨⟩
      rw [rest, List.take_left' four]

/-- The recipient is free to take the message, and the one-time prekey of the bundle is unused. -/
structure Receives (c : Service P) (peer : String) (fromDeviceId : Option Int) (b : Published P) : Prop where
  free : c.keyFor peer fromDeviceId ∉ c.locks
  available : c.storage = true
  unused : ∀ otp ∈ b.oneTimePrekey, c.otps otp.1 = some otp.2

variable {c : Service P} {peer : String} {fromDeviceId : Option Int}

theorem Receives.wireOtp (receives : Receives c peer fromDeviceId b) :
    c.wireOtp (b.wire keys ephemeral ratchet ciphertext) (b.oneTimePrekey.map Prod.fst).isSome =
      some (b.oneTimePrekey.map Prod.snd) := by
  have laid : Laid (b.wire keys ephemeral ratchet ciphertext) _ _ _ _ := b.wire_laid
  cases named : b.oneTimePrekey with
  | none => rfl
  | some otp =>
    have id := laid.otp otp.1 (by rw [named]; rfl)
    simp only [Service.wireOtp, Option.map_some, Option.isSome_some, if_true]
    rw [id, int32OfBytes_int32Bytes (b.small otp named), receives.unused otp named]
    rfl

theorem decryptMessage_first (receives : Receives c peer fromDeviceId b) (s : PrekeyStore P) (deviceId : Int) :
    ((decryptMessage (s.ownKeys deviceId b.identity) peer (base64Encode (b.wire keys ephemeral ratchet ciphertext))
      fromDeviceId).exec c).1 =
      .done (match decryptWithAd P (answeringKey b keys.identity ephemeral ratchet s.signedPrekey) ciphertext
          (openingHeader ratchet).serialize with
        | .ok bytes => decoded bytes
        | .error _ => .error (.initialDecryptFailed peer)) := by
  have laid : Laid (b.wire keys ephemeral ratchet ciphertext) _ _ _ _ := b.wire_laid
  have named : ({ c with locks := c.keyFor peer fromDeviceId :: c.locks } : Service P).wireOtp
      (b.wire keys ephemeral ratchet ciphertext) (b.oneTimePrekey.map Prod.fst).isSome = some _ := receives.wireOtp
  have available : ({ c with locks := c.keyFor peer fromDeviceId :: c.locks } : Service P).storage = true :=
    receives.available
  have opens := decryptInitialMessage_result (s.ownKeys deviceId b.identity) (c.keyFor peer fromDeviceId) peer
    fromDeviceId available laid.identity laid.ephemeral named
  rw [laid.body, answeringSession, initBob_decrypt] at opens
  rw [← laid.version] at opens
  exact decryptMessage_initial _ peer fromDeviceId receives.free (base64Decode_encode _) laid.initial opens

end Recipient

section Meeting

/-- A first message, from the sender's call to the recipient's: it opens under the current prekey
and under no other. -/
theorem first_message (laws : Handshake P) (keys : OwnKeys P) {b : Published P} {c d : Service P}
    {sender recipient : String} {fromDeviceId : Option Int} (first : FirstContact c recipient b)
    (free : Slot.legacy recipient ∉ c.locks) (receives : Receives d sender fromDeviceId b) (s : PrekeyStore P)
    (deviceId : Int) (plaintext : String) :
    ∃ text, ((encryptMessage keys recipient plaintext).exec c).1 = .done (.ok text) ∧
      ((decryptMessage (s.ownKeys deviceId b.identity) sender text fromDeviceId).exec d).1 =
        .done (if P.publicKey b.signedPrekey = P.publicKey s.signedPrekey then .ok plaintext
          else .error (.initialDecryptFailed sender)) := by
  obtain ⟨ephemeral, ratchet, nonce, ciphertext, sealed, sent⟩ := encryptMessage_exec keys b laws first free plaintext
  refine ⟨_, sent, (decryptMessage_first receives s deviceId).trans (congrArg Async.done ?_)⟩
  obtain ⟨opens, refuses⟩ := opens_iff laws (answeringKey b keys.identity ephemeral ratchet s.signedPrekey) sealed
  by_cases same : P.publicKey b.signedPrekey = P.publicKey s.signedPrekey
  · rw [if_pos same, opens ((openingKey_eq_iff laws).mpr same)]
    simp only [decoded, ofUtf8_utf8Bytes]
  · rw [if_neg same, refuses fun met => same ((openingKey_eq_iff laws).mp met)]

/- The symbolic instance with a 16-byte tag in front. -/
abbrev tagged : Primitives :=
  { Primitives.terms with
    aesGcmEncrypt := fun key nonce message aad =>
      (Primitives.terms.aesGcmEncrypt key nonce message aad).map (List.replicate 16 0 ++ ·)
    aesGcmDecrypt := fun key nonce ciphertext aad =>
      Primitives.terms.aesGcmDecrypt key nonce (ciphertext.drop 16) aad }

theorem tagged_handshake : Handshake tagged where
  hkdf_injective := Primitives.terms_symbolic.hkdf_injective
  zero_underived := Primitives.terms_symbolic.zero_underived
  decrypt_encrypt := by
    intro key nonce message aad ciphertext sealed
    cases Option.some.inj sealed
    have inner : Primitives.terms.aesGcmEncrypt key nonce message aad = some (pack key ++ (pack aad ++ message)) := rfl
    exact Primitives.terms_symbolic.decrypt_encrypt inner
  sealed_once := by
    intro key key' nonce message message' aad ciphertext sealed sealed'
    have same := (Option.some.inj sealed).trans (Option.some.inj sealed').symm
    exact (pack_append_injective (List.append_cancel_left same)).1
  dh_comm := by
    intro a b
    change leBytes 33 (leValue a.toList + leValue b.toList) = leBytes 33 (leValue b.toList + leValue a.toList)
    rw [Nat.add_comm]
  dh_separates := by
    intro a b e same
    have values := congrArg leValue same
    have la := leValue_bound a.toList
    have lb := leValue_bound b.toList
    have le := leValue_bound e.toList
    have lengths : ∀ k : Block 32, k.toList.length = 32 := fun k => k.2
    rw [lengths] at la lb le
    change leValue (leBytes 33 (leValue a.toList + leValue e.toList)) =
      leValue (leBytes 33 (leValue b.toList + leValue e.toList)) at values
    rw [leValue_leBytes, leValue_leBytes, Nat.mod_eq_of_lt (by omega), Nat.mod_eq_of_lt (by omega)] at values
    have numbers : leValue a.toList = leValue b.toList := by omega
    have bytes := congrArg (leBytes 32) numbers
    have back : ∀ k : Block 32, leBytes 32 (leValue k.toList) = k.toList := by
      intro k
      have round := leBytes_leValue k.toList
      rwa [lengths] at round
    rw [back, back] at bytes
    exact Subtype.ext bytes
  seals := by
    intro key nonce message aad
    refine ⟨_, rfl, ?_⟩
    rw [List.length_append, List.length_replicate]
    omega
  opens_only := by
    intro key key' nonce message message' aad ciphertext sealed opened
    cases Option.some.inj sealed
    change (if (pack key ++ (pack aad ++ message)).take (pack key' ++ pack aad).length = pack key' ++ pack aad then
      some ((pack key ++ (pack aad ++ message)).drop (pack key' ++ pack aad).length) else none) = some message' at opened
    split at opened
    · rename_i front
      have whole := List.take_append_drop (pack key' ++ pack aad).length (pack key ++ (pack aad ++ message))
      rw [front, List.append_assoc] at whole
      exact (pack_append_injective whole).1
    · cases opened

def keyBlock (n : Nat) : Block 32 := ⟨leBytes 32 n, leBytes32_length n⟩

def bobPublished (otp : Option (Int × Block 32)) (small : ∀ o ∈ otp, -2 ^ 31 ≤ o.1 ∧ o.1 < 2 ^ 31) :
    Published tagged where
  deviceId := none
  identity := keyBlock 1
  signedPrekey := keyBlock 2
  signingKey := []
  signature := (keyBlock 2).toList
  oneTimePrekey := otp
  authentic := by decide
  small := small

def newcomer (bundle : Bundle) (otps : Int → Option (Block 32)) : Service tagged where
  heap _ := .initBob (P := tagged) [] (keyBlock 0)
  allocated := 0
  sessions := .empty
  locks := []
  saved := .empty
  identities _ := none
  pendingIdentities _ := none
  changed _ := false
  otps := otps
  storage := true
  bundleCache _ := none
  now := 0
  secrets i := keyBlock (10 + i)
  drawn := 0
  nonces _ := ⟨List.replicate 12 0, zeros12_length⟩
  sealed := 0
  bundleReplies _ := ⟨200, some bundle⟩
  bundlesReplies _ := ⟨200, some []⟩
  fetched := 0
  sent := []

theorem newcomer_firstContact (b : Published tagged) (otps : Int → Option (Block 32)) (peer : String) :
    FirstContact (newcomer b.bundle otps) peer b where
  available := rfl
  unusable := ⟨nofun, rfl⟩
  allocated := nofun
  trusted := nofun
  reply := rfl

def weekLater : List (Int × Block 32) := [(7 * 24 * 60 * 60 * 1000, keyBlock 3)]

def bobPrekeys : PrekeyStore tagged := ⟨keyBlock 2, some (.parsed 0), none, none⟩

def aliceKeys : OwnKeys tagged := ⟨1, keyBlock 4, keyBlock 5, none⟩

end Meeting

end Echo.Client
