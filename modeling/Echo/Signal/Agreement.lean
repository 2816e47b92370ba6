import Echo.Signal.Primitives

/-! X3DH in its three renderings: `signal::x3dh` and the deprecated pair of `crypto::session` in the
crate, the `X3DH` class of the client. Here the DH outputs are bytes, since how they are laid end
to end is the point; what HKDF expands to stays abstract. -/
namespace Echo.Signal.X3DH
open Echo.Lib

structure Suite where
  /-- `StaticSecret`, and the private half of a `SimpleKeyPair`. -/
  Secret : Type
  /-- Keying material of a given number of bytes. -/
  Okm : Nat → Type
  publicKey : Secret → Block 32
  diffieHellman : Secret → Block 32 → Block 32
  /-- `Hkdf::<Sha256>::new(Some(salt), ikm).expand(info, okm)`. -/
  expand : (salt ikm info : Bytes) → (length : Nat) → Except String (Okm length)
  /-- `Hkdf(hmac: Hmac.sha256(), outputLength: length).deriveKey(..)`. -/
  deriveKey : (ikm salt info : Bytes) → (length : Nat) → Okm length
  /-- Message, signature, verifying key. -/
  verify : Bytes → Block 64 → Block 32 → Except String Unit

structure Suite.Lawful (S : Suite) : Prop where
  dh_comm : ∀ a b, S.diffieHellman a (S.publicKey b) = S.diffieHellman b (S.publicKey a)
  /-- HKDF-SHA256 gives at most 255 blocks, and the two languages the same ones. -/
  expand_eq : ∀ salt ikm info length, length ≤ 255 * 32 →
    S.expand salt ikm info length = .ok (S.deriveKey ikm salt info length)

def Suite.Collisionless (S : Suite) : Prop :=
  ∀ salt info a b, S.deriveKey a salt info 32 = S.deriveKey b salt info 32 → a = b

variable {S : Suite}

/-- An X25519 key pair: `IdentityKeyPair`, `EphemeralKeyPair`, `SimpleKeyPair`. -/
structure KeyPair (S : Suite) where
  privateKey : S.Secret
  publicKey : Block 32
  matching : publicKey = S.publicKey privateKey

structure PreKeyBundle where
  identityKey : Block 32
  signedPrekey : Block 32
  signedPrekeySignature : Block 64
  oneTimePrekey : Option (Block 32)

def PreKeyBundle.verifySignature (S : Suite) (bundle : PreKeyBundle) (verifyingKey : Block 32) :
    Except CoreError Unit :=
  (S.verify bundle.signedPrekey.toList bundle.signedPrekeySignature verifyingKey).mapError
    fun e => .crypto ("Signed prekey signature invalid: " ++ e)

structure X3dhInitResult (S : Suite) where
  sharedSecret : S.Okm 32
  ephemeralPublic : Block 32
  identityPublic : Block 32

/- `signal::x3dh` -/

def kdf (S : Suite) (dhConcat : Bytes) : Except CoreError (S.Okm 32) :=
  (S.expand (List.replicate 32 0) dhConcat x3dhHkdfInfo 32).mapError
    fun e => .crypto ("X3DH HKDF expand failed: " ++ e)

/-- The ephemeral pair is the one `EphemeralKeyPair::generate` draws. -/
def initiate (ephemeral aliceIdentity : KeyPair S) (bobBundle : PreKeyBundle)
    (bobVerifyingKey : Block 32) : Except CoreError (X3dhInitResult S) := do
  bobBundle.verifySignature S bobVerifyingKey
  let dh1 := S.diffieHellman aliceIdentity.privateKey bobBundle.signedPrekey
  let dh2 := S.diffieHellman ephemeral.privateKey bobBundle.identityKey
  let dh3 := S.diffieHellman ephemeral.privateKey bobBundle.signedPrekey
  let dhConcat := dh1.toList ++ dh2.toList ++ dh3.toList
  let dhConcat := match bobBundle.oneTimePrekey with
    | some otp => dhConcat ++ (S.diffieHellman ephemeral.privateKey otp).toList
    | none => dhConcat
  let sharedSecret ← kdf S dhConcat
  return { sharedSecret, ephemeralPublic := ephemeral.publicKey, identityPublic := aliceIdentity.publicKey }

def respond (bobIdentity : KeyPair S) (bobSignedPrekeyPrivate : S.Secret)
    (bobOneTimePrekeyPrivate : Option S.Secret) (aliceIdentityPublic aliceEphemeralPublic : Block 32) :
    Except CoreError (S.Okm 32) :=
  let dh1 := S.diffieHellman bobSignedPrekeyPrivate aliceIdentityPublic
  let dh2 := S.diffieHellman bobIdentity.privateKey aliceEphemeralPublic
  let dh3 := S.diffieHellman bobSignedPrekeyPrivate aliceEphemeralPublic
  let dhConcat := dh1.toList ++ dh2.toList ++ dh3.toList
  let dhConcat := match bobOneTimePrekeyPrivate with
    | some otpPrivate => dhConcat ++ (S.diffieHellman otpPrivate aliceEphemeralPublic).toList
    | none => dhConcat
  kdf S dhConcat

/- `crypto::session` -/
namespace Session

def hkdfInfo : Bytes := ascii "EchoSignalX3DH"

def kdf (S : Suite) (dhOutputs : Bytes) : Except CoreError (S.Okm 32) :=
  (S.expand (List.replicate 32 0) dhOutputs hkdfInfo 32).mapError
    fun e => .crypto ("HKDF expand failed: " ++ e)

structure X3dhResult (S : Suite) where
  sharedSecret : S.Okm 32
  ephemeralPublic : Bytes

def x3dhInitiate (ephemeralSecret ourIdentity : S.Secret) (theirIdentity theirSignedPrekey : Block 32)
    (theirOneTimePrekey : Option (Block 32)) : Except CoreError (X3dhResult S) := do
  let dh1 := S.diffieHellman ourIdentity theirSignedPrekey
  let dh2 := S.diffieHellman ephemeralSecret theirIdentity
  let dh3 := S.diffieHellman ephemeralSecret theirSignedPrekey
  let dhConcat := dh1.toList ++ dh2.toList ++ dh3.toList
  let dhConcat := match theirOneTimePrekey with
    | some otk => dhConcat ++ (S.diffieHellman ephemeralSecret otk).toList
    | none => dhConcat
  let sharedSecret ← kdf S dhConcat
  return { sharedSecret, ephemeralPublic := (S.publicKey ephemeralSecret).toList }

def x3dhRespond (ourIdentity ourSignedPrekey : S.Secret) (ourOneTimePrekey : Option S.Secret)
    (theirIdentity theirEphemeral : Block 32) : Except CoreError (S.Okm 32) :=
  let dh1 := S.diffieHellman ourSignedPrekey theirIdentity
  let dh2 := S.diffieHellman ourIdentity theirEphemeral
  let dh3 := S.diffieHellman ourSignedPrekey theirEphemeral
  let dhConcat := dh1.toList ++ dh2.toList ++ dh3.toList
  let dhConcat := match ourOneTimePrekey with
    | some otk => dhConcat ++ (S.diffieHellman otk theirEphemeral).toList
    | none => dhConcat
  kdf S dhConcat

end Session

/- `signal_x3dh.dart`: a buffer of the final size is filled piece by piece. -/
namespace Dart

/-- `setRange(start, stop, source)`; nothing where Dart throws. -/
def setRange (buffer : Bytes) (start stop : Nat) (source : Bytes) : Option Bytes :=
  if start ≤ stop ∧ stop ≤ buffer.length ∧ stop - start ≤ source.length then
    some (buffer.take start ++ source.take (stop - start) ++ buffer.drop stop)
  else none

def codeUnits (text : String) : Bytes := text.toList.map fun c => UInt8.ofNat c.toNat

def x3dhKdf (S : Suite) (dhConcat : Bytes) : S.Okm 32 :=
  S.deriveKey dhConcat (List.replicate 32 0) (codeUnits "EchoSignalX3DH") 32

def concatenated (dh1 dh2 dh3 : Block 32) (dh4 : Option (Block 32)) : Option Bytes := do
  let capacity := 32 * 3 + (if dh4.isSome then 32 else 0)
  let dhConcat := List.replicate capacity 0
  let offset := 0
  let dhConcat ← setRange dhConcat offset (offset + 32) dh1.toList
  let offset := offset + 32
  let dhConcat ← setRange dhConcat offset (offset + 32) dh2.toList
  let offset := offset + 32
  let dhConcat ← setRange dhConcat offset (offset + 32) dh3.toList
  let offset := offset + 32
  match dh4 with
  | some dh4 => setRange dhConcat offset (offset + 32) dh4.toList
  | none => some dhConcat

def initiate (ephemeral aliceIdentity : KeyPair S) (bobIdentityKey bobSignedPrekey : Block 32)
    (bobOneTimePrekey : Option (Block 32)) : Option (X3dhInitResult S) := do
  let dh1 := S.diffieHellman aliceIdentity.privateKey bobSignedPrekey
  let dh2 := S.diffieHellman ephemeral.privateKey bobIdentityKey
  let dh3 := S.diffieHellman ephemeral.privateKey bobSignedPrekey
  let dhConcat ← concatenated dh1 dh2 dh3 (bobOneTimePrekey.map (S.diffieHellman ephemeral.privateKey))
  return {
    sharedSecret := x3dhKdf S dhConcat
    ephemeralPublic := ephemeral.publicKey
    identityPublic := aliceIdentity.publicKey }

def respond (bobIdentity bobSignedPrekey : KeyPair S) (bobOneTimePrekey : Option (KeyPair S))
    (aliceIdentityKey aliceEphemeralKey : Block 32) : Option (S.Okm 32) := do
  let dh1 := S.diffieHellman bobSignedPrekey.privateKey aliceIdentityKey
  let dh2 := S.diffieHellman bobIdentity.privateKey aliceEphemeralKey
  let dh3 := S.diffieHellman bobSignedPrekey.privateKey aliceEphemeralKey
  let dhConcat ← concatenated dh1 dh2 dh3
    (bobOneTimePrekey.map fun otp => S.diffieHellman otp.privateKey aliceEphemeralKey)
  return x3dhKdf S dhConcat

end Dart

inductive Implementation where
  | signal | session | dart

def Implementation.initiate (ephemeral alice : KeyPair S) (bundle : PreKeyBundle) (verifyingKey : Block 32) :
    Implementation → Option (S.Okm 32 × Bytes)
  | .signal => (X3DH.initiate ephemeral alice bundle verifyingKey).toOption.map
      fun result => (result.sharedSecret, result.ephemeralPublic.toList)
  | .session => (Session.x3dhInitiate ephemeral.privateKey alice.privateKey bundle.identityKey
        bundle.signedPrekey bundle.oneTimePrekey).toOption.map
      fun result => (result.sharedSecret, result.ephemeralPublic)
  | .dart => (Dart.initiate ephemeral alice bundle.identityKey bundle.signedPrekey bundle.oneTimePrekey).map
      fun result => (result.sharedSecret, result.ephemeralPublic.toList)

def Implementation.respond (bob prekey : KeyPair S) (otp : Option (KeyPair S))
    (aliceIdentity aliceEphemeral : Block 32) : Implementation → Option (S.Okm 32)
  | .signal => (X3DH.respond bob prekey.privateKey (otp.map KeyPair.privateKey) aliceIdentity
      aliceEphemeral).toOption
  | .session => (Session.x3dhRespond bob.privateKey prekey.privateKey (otp.map KeyPair.privateKey)
      aliceIdentity aliceEphemeral).toOption
  | .dart => Dart.respond bob prekey otp aliceIdentity aliceEphemeral

def bundleOf (bob prekey : KeyPair S) (signature : Block 64) (otp : Option (KeyPair S)) : PreKeyBundle :=
  ⟨bob.publicKey, prekey.publicKey, signature, otp.map KeyPair.publicKey⟩

def transcript (dh1 dh2 dh3 : Block 32) (dh4 : Option (Block 32)) : Bytes :=
  dh1.toList ++ dh2.toList ++ dh3.toList ++ (dh4.map List.Vector.toList).getD []

def derived (S : Suite) (dhConcat : Bytes) : S.Okm 32 :=
  S.deriveKey dhConcat (List.replicate 32 0) x3dhHkdfInfo 32

theorem transcript_none (dh1 dh2 dh3 : Block 32) :
    transcript dh1 dh2 dh3 none = dh1.toList ++ dh2.toList ++ dh3.toList := List.append_nil _

theorem transcript_length (dh1 dh2 dh3 : Block 32) (dh4 : Option (Block 32)) :
    (transcript dh1 dh2 dh3 dh4).length = if dh4.isSome then 128 else 96 := by
  cases dh4 <;> simp [transcript]

theorem kdf_eq (lawful : S.Lawful) (dhConcat : Bytes) : kdf S dhConcat = .ok (derived S dhConcat) := by
  rw [kdf, lawful.expand_eq _ _ _ _ (by decide)]
  rfl

theorem Session.kdf_eq (lawful : S.Lawful) (dhConcat : Bytes) :
    Session.kdf S dhConcat = .ok (derived S dhConcat) := by
  rw [Session.kdf, lawful.expand_eq _ _ _ _ (by decide)]
  rfl

namespace Dart

theorem x3dhKdf_eq (dhConcat : Bytes) : x3dhKdf S dhConcat = derived S dhConcat := by
  have info : codeUnits "EchoSignalX3DH" = x3dhHkdfInfo := by decide +kernel
  rw [x3dhKdf, info, derived]

theorem setRange_next {filled : Bytes} {start : Nat} (here : filled.length = start) (dh : Block 32)
    (left : Nat) :
    setRange (filled ++ List.replicate (32 + left) 0) start (start + 32) dh.toList =
      some (filled ++ dh.toList ++ List.replicate left 0) := by
  have size : dh.toList.length = 32 := dh.2
  have fits : start ≤ start + 32 ∧ start + 32 ≤ (filled ++ List.replicate (32 + left) (0 : UInt8)).length ∧
      start + 32 - start ≤ dh.toList.length := by
    rw [List.length_append, List.length_replicate]
    omega
  have past : (filled ++ List.replicate (32 + left) (0 : UInt8)).drop (start + 32) =
      List.replicate left 0 := by
    rw [← List.drop_drop, List.drop_left' here, List.drop_replicate, Nat.add_sub_cancel_left]
  have all : dh.toList.take (start + 32 - start) = dh.toList := by
    rw [Nat.add_sub_cancel_left]
    exact List.take_of_length_le (Nat.le_of_eq size)
  rw [setRange, if_pos fits, List.take_left' here, past, all]

theorem concatenated_eq (dh1 dh2 dh3 : Block 32) (dh4 : Option (Block 32)) :
    concatenated dh1 dh2 dh3 dh4 = some (transcript dh1 dh2 dh3 dh4) := by
  have one : dh1.toList.length = 32 := dh1.2
  have two : (dh1.toList ++ dh2.toList).length = 64 := by simp
  have three : (dh1.toList ++ dh2.toList ++ dh3.toList).length = 96 := by simp
  have first (left : Nat) : setRange (List.replicate (32 + left) 0) 0 32 dh1.toList =
      some (dh1.toList ++ List.replicate left 0) := setRange_next (List.length_nil) dh1 left
  cases dh4 with
  | none =>
    simp only [concatenated, Option.isSome_none, Bool.false_eq_true, if_false]
    rw [first 64, Option.bind_eq_bind, Option.bind_some, setRange_next one dh2 32,
      Option.bind_some, setRange_next two dh3 0]
    rfl
  | some dh4 =>
    simp only [concatenated, Option.isSome_some, if_true]
    rw [first 96, Option.bind_eq_bind, Option.bind_some, setRange_next one dh2 64,
      Option.bind_some, setRange_next two dh3 32, Option.bind_some,
      setRange_next three dh4 0]
    exact congrArg some (List.append_nil _)

end Dart

section Views
variable (ephemeral alice bob prekey : KeyPair S) (otp : Option (KeyPair S))

def initiatorDhs : Bytes :=
  transcript (S.diffieHellman alice.privateKey prekey.publicKey)
    (S.diffieHellman ephemeral.privateKey bob.publicKey)
    (S.diffieHellman ephemeral.privateKey prekey.publicKey)
    (otp.map fun otp => S.diffieHellman ephemeral.privateKey otp.publicKey)

def responderDhs : Bytes :=
  transcript (S.diffieHellman prekey.privateKey alice.publicKey)
    (S.diffieHellman bob.privateKey ephemeral.publicKey)
    (S.diffieHellman prekey.privateKey ephemeral.publicKey)
    (otp.map fun otp => S.diffieHellman otp.privateKey ephemeral.publicKey)

theorem dh_mirror (lawful : S.Lawful) (a b : KeyPair S) :
    S.diffieHellman a.privateKey b.publicKey = S.diffieHellman b.privateKey a.publicKey := by
  rw [a.matching, b.matching, lawful.dh_comm]

theorem views_agree (lawful : S.Lawful) :
    initiatorDhs ephemeral alice bob prekey otp = responderDhs ephemeral alice bob prekey otp := by
  rw [initiatorDhs, responderDhs, dh_mirror lawful alice prekey, dh_mirror lawful ephemeral bob,
    dh_mirror lawful ephemeral prekey]
  simp only [dh_mirror lawful ephemeral]

theorem initiatorDhs_length : (initiatorDhs ephemeral alice bob prekey otp).length =
    if otp.isSome then 128 else 96 := by
  rw [initiatorDhs, transcript_length, Option.isSome_map]

theorem responderDhs_length : (responderDhs ephemeral alice bob prekey otp).length =
    if otp.isSome then 128 else 96 := by
  rw [responderDhs, transcript_length, Option.isSome_map]

theorem Implementation.initiate_eq (lawful : S.Lawful) (signature : Block 64) (verifyingKey : Block 32)
    (i : Implementation)
    (signed : i = .signal → (bundleOf bob prekey signature otp).verifySignature S verifyingKey = .ok ()) :
    i.initiate ephemeral alice (bundleOf bob prekey signature otp) verifyingKey =
      some (derived S (initiatorDhs ephemeral alice bob prekey otp), ephemeral.publicKey.toList) := by
  cases i with
  | signal =>
    simp only [Implementation.initiate, X3DH.initiate, signed rfl, kdf_eq lawful]
    cases otp with
    | none => simp only [initiatorDhs, Option.map_none, transcript_none]; rfl
    | some otp => rfl
  | session =>
    simp only [Implementation.initiate, Session.x3dhInitiate, Session.kdf_eq lawful,
      ← ephemeral.matching]
    cases otp with
    | none => simp only [initiatorDhs, Option.map_none, transcript_none]; rfl
    | some otp => rfl
  | dart =>
    simp only [Implementation.initiate, Dart.initiate, Dart.concatenated_eq, Dart.x3dhKdf_eq]
    cases otp <;> rfl

theorem verified_of_initiated {bundle : PreKeyBundle} {verifyingKey : Block 32} {result : S.Okm 32 × Bytes}
    (initiated : Implementation.signal.initiate ephemeral alice bundle verifyingKey = some result) :
    bundle.verifySignature S verifyingKey = .ok () := by
  cases verified : bundle.verifySignature S verifyingKey with
  | ok => rfl
  | error e =>
    simp only [Implementation.initiate, X3DH.initiate, verified] at initiated
    cases initiated

theorem Implementation.respond_eq (lawful : S.Lawful) (i : Implementation) :
    i.respond bob prekey otp alice.publicKey ephemeral.publicKey =
      some (derived S (responderDhs ephemeral alice bob prekey otp)) := by
  cases i with
  | signal =>
    simp only [Implementation.respond, X3DH.respond, kdf_eq lawful]
    cases otp with
    | none => simp only [responderDhs, Option.map_none, transcript_none]; rfl
    | some otp => rfl
  | session =>
    simp only [Implementation.respond, Session.x3dhRespond, Session.kdf_eq lawful]
    cases otp with
    | none => simp only [responderDhs, Option.map_none, transcript_none]; rfl
    | some otp => rfl
  | dart =>
    simp only [Implementation.respond, Dart.respond, Dart.concatenated_eq, Dart.x3dhKdf_eq]
    cases otp <;> rfl

end Views

theorem derived_ne (collisionless : S.Collisionless) {a b : Bytes} (lengths : a.length ≠ b.length) :
    derived S a ≠ derived S b :=
  fun same => lengths (congrArg List.length (collisionless _ _ _ _ same))

/-- Any of the three initiators agrees with any of the three responders, and a one-time prekey that
only one of them uses keeps them apart. -/
theorem implementations_agree (lawful : S.Lawful) (ephemeral alice bob prekey : KeyPair S)
    (signature : Block 64) (verifyingKey : Block 32) :
    (∀ otp : Option (KeyPair S), ∃ secret : S.Okm 32,
      (∀ i : Implementation,
        (i = .signal → (bundleOf bob prekey signature otp).verifySignature S verifyingKey = .ok ()) →
          i.initiate ephemeral alice (bundleOf bob prekey signature otp) verifyingKey =
            some (secret, ephemeral.publicKey.toList)) ∧
      ∀ r : Implementation,
        r.respond bob prekey otp alice.publicKey ephemeral.publicKey = some secret) ∧
    (S.Collisionless → ∀ (i r : Implementation) (ours theirs : Option (KeyPair S)),
      ours.isSome ≠ theirs.isSome → ∀ secret sent other,
        i.initiate ephemeral alice (bundleOf bob prekey signature ours) verifyingKey = some (secret, sent) →
        r.respond bob prekey theirs alice.publicKey ephemeral.publicKey = some other → secret ≠ other) := by
  constructor
  · intro otp
    refine ⟨derived S (responderDhs ephemeral alice bob prekey otp), ?_, ?_⟩
    · intro i signed
      rw [← views_agree ephemeral alice bob prekey otp lawful]
      exact i.initiate_eq ephemeral alice bob prekey otp lawful signature verifyingKey signed
    · exact Implementation.respond_eq ephemeral alice bob prekey otp lawful
  · intro collisionless i r ours theirs oneSided secret sent other initiated responded
    have signed : i = .signal →
        (bundleOf bob prekey signature ours).verifySignature S verifyingKey = .ok () := by
      rintro rfl
      exact verified_of_initiated ephemeral alice initiated
    rw [i.initiate_eq ephemeral alice bob prekey ours lawful signature verifyingKey signed] at initiated
    rw [Implementation.respond_eq ephemeral alice bob prekey theirs lawful] at responded
    cases initiated
    cases responded
    refine derived_ne collisionless ?_
    rw [initiatorDhs_length, responderDhs_length]
    cases hours : ours.isSome <;> cases htheirs : theirs.isSome
    · exact absurd (hours.trans htheirs.symm) oneSided
    · decide
    · decide
    · exact absurd (hours.trans htheirs.symm) oneSided

/- A suite that keeps the laws: secrets are numbers, and keying material is its own recipe. -/
abbrev adding : Suite where
  Secret := Nat
  Okm _ := Bytes × Bytes × Bytes
  publicKey secret := ⟨leBytes 32 secret, leBytes32_length secret⟩
  diffieHellman secret peer := ⟨leBytes 32 (secret % 256 ^ 32 + leValue peer.toList), leBytes_length 32 _⟩
  expand salt ikm info length :=
    if length ≤ 255 * 32 then .ok (ikm, salt, info) else .error "invalid number of blocks"
  deriveKey ikm salt info _ := (ikm, salt, info)
  verify message signature verifyingKey :=
    if signature.toList = verifyingKey.toList ++ message then .ok () else .error "signature error"

theorem adding_lawful : adding.Lawful where
  dh_comm a b := by
    have own (c : Nat) : leValue (leBytes 32 c) = c % 256 ^ 32 := leValue_leBytes 32 c
    refine Subtype.ext (congrArg (leBytes 32) ?_)
    change a % 256 ^ 32 + leValue (leBytes 32 b) = b % 256 ^ 32 + leValue (leBytes 32 a)
    rw [own, own, Nat.add_comm]
  expand_eq salt ikm info length fits := if_pos fits

theorem adding_collisionless : adding.Collisionless := by
  intro salt info a b same
  exact congrArg Prod.fst same

theorem adding_verify {message : Bytes} {signature : Block 64} {verifyingKey : Block 32}
    (whole : signature.toList = verifyingKey.toList ++ message) :
    adding.verify message signature verifyingKey = .ok () := if_pos whole

def adding.pair (secret : Nat) : KeyPair adding := ⟨secret, adding.publicKey secret, rfl⟩

theorem adding.signature_length :
    ((adding.publicKey 9).toList ++ (adding.publicKey 3).toList).length = 64 := by
  rw [List.length_append, List.Vector.toList_length, List.Vector.toList_length]

/-- Signed as `adding.verify` wants it. -/
def adding.signature : Block 64 := ⟨_, adding.signature_length⟩

theorem implementations_agree_signed :
    (∃ secret, Implementation.signal.initiate (adding.pair 5) (adding.pair 1)
        (bundleOf (adding.pair 2) (adding.pair 3) adding.signature (some (adding.pair 4)))
        (adding.publicKey 9) = some (secret, (adding.publicKey 5).toList) ∧
      Implementation.dart.respond (adding.pair 2) (adding.pair 3) (some (adding.pair 4))
        (adding.publicKey 1) (adding.publicKey 5) = some secret) ∧
    ∀ secret sent other, Implementation.dart.initiate (adding.pair 5) (adding.pair 1)
        (bundleOf (adding.pair 2) (adding.pair 3) adding.signature (some (adding.pair 4)))
        (adding.publicKey 9) = some (secret, sent) →
      Implementation.session.respond (adding.pair 2) (adding.pair 3) none
        (adding.publicKey 1) (adding.publicKey 5) = some other → secret ≠ other := by
  have signed : (bundleOf (adding.pair 2) (adding.pair 3) adding.signature
      (some (adding.pair 4))).verifySignature adding (adding.publicKey 9) = .ok () := by
    have verified : adding.verify (adding.publicKey 3).toList adding.signature (adding.publicKey 9) =
        .ok () := adding_verify rfl
    exact congrArg (Except.mapError _) verified
  have agree := implementations_agree adding_lawful (adding.pair 5) (adding.pair 1) (adding.pair 2)
    (adding.pair 3) adding.signature (adding.publicKey 9)
  constructor
  · obtain ⟨secret, initiated, responded⟩ := agree.1 (some (adding.pair 4))
    exact ⟨secret, initiated .signal (fun _ => signed), responded .dart⟩
  · exact agree.2 adding_collisionless .dart .session (some (adding.pair 4)) none (by decide)

end Echo.Signal.X3DH
