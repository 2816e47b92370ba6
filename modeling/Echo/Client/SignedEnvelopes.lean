import Echo.Client.KeyOrigin

/-! The signed envelopes of `crypto_service.dart`: which texts `decryptFromUserVerified` opens, and whose they are.
The signature is on the bytes of the envelope, so it is silent on the conversation and the version. -/
namespace Echo.Client
open Echo.Lib
open Echo.Server (Uuid)

section Signing
variable (K : GroupKit)

/-- After `init`, which may have left no signing key. -/
def encryptForUserSigned (signingKeyPair : Option K.SigningKey) (ephemeral : K.Secret) (nonce : Block 12)
    (plaintext recipientPublicKey : Bytes) : Except GroupThrown String :=
  match signingKeyPair with
  | none => .error (.state "TD-28: encryptForUserSigned requires a signing key — call init() first")
  | some signing => do
    let unsignedB64 ← encryptForUser K ephemeral nonce plaintext recipientPublicKey
    let unsignedWire ← groupBase64 unsignedB64
    let sigBytes := K.sign signing unsignedWire
    if sigBytes.length ≠ 64 then
      .error (.state ("unexpected Ed25519 signature length: " ++ toString sigBytes.length))
    else return base64Encode (unsignedWire ++ sigBytes)

def decryptFromUserVerified (identity : K.Secret) (ciphertextB64 : String) (sender : K.VerifyKey) :
    Except GroupThrown Bytes := do
  let wire ← groupBase64 ciphertextB64
  if wire.length < 32 + 12 + 16 + 64 then
    .error (.format ("encryptForUserSigned ciphertext too short: " ++ toString wire.length ++ " bytes"))
  else
    let sigStart := wire.length - 64
    let unsignedWire := wire.take sigStart
    if K.verify unsignedWire (wire.drop sigStart) sender then
      decryptFromUser K identity (base64Encode unsignedWire)
    else .error (.format "TD-28: group-key envelope signature failed verification")

end Signing

section Parties

/-- AES-GCM seals under every key of 32 bytes and opens a box under no other; HKDF and X25519 keep
apart what they are given. -/
structure GroupKit.Ideal (K : GroupKit) : Prop extends K.Lawful where
  seals : ∀ {key} nonce plaintext, key.length = 32 → K.encrypt key nonce plaintext ≠ none
  authentic : ∀ {key key' nonce plaintext other ciphertext tag},
    K.encrypt key nonce plaintext = some (ciphertext, tag) →
    K.decrypt key' nonce ciphertext tag = some other → key' = key
  wrapKey_length : ∀ secret peer, (wrapKey K secret peer).length = 32
  wrapKey_injective : ∀ {secret peer secret' peer'}, wrapKey K secret peer = wrapKey K secret' peer' →
    K.sharedSecret secret peer = K.sharedSecret secret' peer'
  shared_injective : ∀ {secret a b}, K.sharedSecret secret (K.publicKey a) = K.sharedSecret secret (K.publicKey b) →
    K.publicKey a = K.publicKey b

/-- What is wrapped, for whom, and for which conversation and version it is meant. -/
structure Wrap (K : GroupKit) where
  conversationId : Uuid
  keyVersion : Int
  recipient : K.Secret
  ephemeral : K.Secret
  nonce : Block 12
  plaintext : Bytes

variable {K : GroupKit}

namespace Wrap

def Lays (w : Wrap K) (unsigned : Bytes) : Prop :=
  ∃ text, encryptForUser K w.ephemeral w.nonce w.plaintext (K.publicKey w.recipient).toList = .ok text ∧
    base64Decode text = some unsigned

end Wrap

/-- A member, with all it ever signed: envelopes, prekeys and the payloads of its messages. -/
structure Rotator (K : GroupKit) where
  signing : K.SigningKey
  verifyKey : K.VerifyKey
  wraps : List (Wrap K)
  payloads : List Bytes
  paired : ∀ message, K.verify message (K.sign signing message) verifyKey = true
  sign_length : ∀ message, (K.sign signing message).length = 64
  /-- No payload of a message is by chance an envelope. -/
  closed : ∀ message ∈ payloads, ∀ identity key, openEnvelope K identity message ≠ .ok key

namespace Rotator

def Signs (rotator : Rotator K) (message : Bytes) : Prop :=
  (∃ w ∈ rotator.wraps, w.Lays message) ∨ message.length = 32 ∨ message ∈ rotator.payloads

/-- No forged signature is in the text: what verifies, the rotator signed. -/
def Unforged (rotator : Rotator K) (text : String) : Prop :=
  ∀ unsigned signature, base64Decode text = some (unsigned ++ signature) → signature.length = 64 →
    K.verify unsigned signature rotator.verifyKey = true → rotator.Signs unsigned

end Rotator
end Parties

section Opening
variable {K : GroupKit} {identity : K.Secret} {text : String} {key : Bytes}

theorem encryptForUser_eq_ok {ephemeral : K.Secret} {nonce : Block 12} {plaintext : Bytes} {peer : Block 32} :
    encryptForUser K ephemeral nonce plaintext peer.toList = .ok text ↔
      ∃ ct mac, K.encrypt (wrapKey K ephemeral peer) nonce plaintext = some (ct, mac) ∧
        text = base64Encode ((K.publicKey ephemeral).toList ++ (nonce.toList ++ (ct ++ mac.toList))) := by
  simp only [encryptForUser, List.Vector.toList_length, dite_true, bind, Except.bind, groupEncrypt]
  rw [show (⟨peer.toList, _⟩ : Block 32) = peer from rfl]
  cases sealed : K.encrypt (wrapKey K ephemeral peer) nonce plaintext with
  | none =>
    constructor
    · intro taken
      cases taken
    · rintro ⟨_, _, found, -⟩
      cases found
  | some box =>
    obtain ⟨ct, mac⟩ := box
    constructor
    · intro made
      cases made
      exact ⟨ct, mac, rfl, rfl⟩
    · rintro ⟨ct', mac', same, rfl⟩
      cases same
      rfl

theorem decryptFromUserVerified_eq_ok {sender : K.VerifyKey} :
    decryptFromUserVerified K identity text sender = .ok key ↔
      ∃ unsigned signature, base64Decode text = some (unsigned ++ signature) ∧ signature.length = 64 ∧
        K.verify unsigned signature sender = true ∧ openEnvelope K identity unsigned = .ok key := by
  have reopened : ∀ unsigned,
      decryptFromUser K identity (base64Encode unsigned) = openEnvelope K identity unsigned := by
    intro unsigned
    simp only [decryptFromUser, groupBase64, base64Decode_encode, bind, Except.bind]
  simp only [decryptFromUserVerified, groupBase64, bind, Except.bind, reopened]
  cases base64Decode text with
  | none =>
    constructor
    · intro taken
      cases taken
    · rintro ⟨_, _, found, -⟩
      cases found
  | some wire =>
    dsimp only
    constructor
    · intro taken
      split at taken
      · cases taken
      · rename_i long
        split at taken
        · rename_i verified
          refine ⟨_, _, ?_, ?_, verified, taken⟩
          · rw [List.take_append_drop]
          · rw [List.length_drop]
            omega
        · cases taken
    · rintro ⟨unsigned, signature, same, length, verified, opened⟩
      obtain rfl := Option.some.inj same
      obtain ⟨ephPub, nonce, ct, mac, laid, -⟩ := openEnvelope_parts opened
      have long : 60 ≤ unsigned.length := by
        rw [laid]
        simp only [List.length_append, List.Vector.toList_length]
        omega
      have split : (unsigned ++ signature).length - 64 = unsigned.length := by
        rw [List.length_append]
        omega
      rw [if_neg (by rw [List.length_append]; omega), split, List.take_left, List.drop_left, if_pos verified]
      exact opened

theorem encryptForUserSigned_eq {rotator : Rotator K} {ephemeral : K.Secret} {nonce : Block 12}
    {plaintext recipient unsigned : Bytes}
    (made : encryptForUser K ephemeral nonce plaintext recipient = .ok text)
    (decoded : base64Decode text = some unsigned) :
    encryptForUserSigned K (some rotator.signing) ephemeral nonce plaintext recipient =
      .ok (base64Encode (unsigned ++ K.sign rotator.signing unsigned)) := by
  simp only [encryptForUserSigned, made, groupBase64, decoded, bind, Except.bind]
  rw [if_neg (fun short => short (rotator.sign_length unsigned))]
  rfl

theorem recipient_of_open (ideal : K.Ideal) {w : Wrap K} {unsigned : Bytes} (lays : w.Lays unsigned)
    (opened : openEnvelope K identity unsigned = .ok key) :
    K.publicKey w.recipient = K.publicKey identity ∧ w.plaintext = key := by
  obtain ⟨text, made, decoded⟩ := lays
  obtain ⟨ct, mac, sealed, rfl⟩ := encryptForUser_eq_ok.mp made
  rw [base64Decode_encode] at decoded
  obtain rfl := Option.some.inj decoded
  rw [openEnvelope_laid] at opened
  unfold groupDecrypt at opened
  split at opened
  · rename_i found decrypted
    cases opened
    have sameKey := ideal.authentic sealed decrypted
    have shared := ideal.wrapKey_injective sameKey
    rw [ideal.shared_comm] at shared
    have plain := ideal.decrypt_encrypt sealed
    rw [← sameKey, decrypted] at plain
    exact ⟨(ideal.shared_injective shared).symm, (Option.some.inj plain).symm⟩
  · cases opened

theorem open_of_lays (ideal : K.Ideal) {w : Wrap K} {unsigned : Bytes} (lays : w.Lays unsigned)
    (mine : K.publicKey w.recipient = K.publicKey identity) : openEnvelope K identity unsigned = .ok w.plaintext := by
  obtain ⟨text, made, decoded⟩ := lays
  rw [mine] at made
  exact openEnvelope_encryptForUser ideal.toLawful made decoded

/-- The rotator's signing key verifies, and signs for the rotator alone: an envelope comes back as what was wrapped in
it, and a text is opened just when it spells an envelope that the rotator wrapped for this recipient, with a signature
that verifies.
Where and when it was meant to be used makes no difference. -/
theorem verified_envelopes (ideal : K.Ideal) (rotator : Rotator K) (identity : K.Secret) :
    (∀ ephemeral nonce plaintext, ∃ text,
      encryptForUserSigned K (some rotator.signing) ephemeral nonce plaintext (K.publicKey identity).toList = .ok text ∧
        decryptFromUserVerified K identity text rotator.verifyKey = .ok plaintext) ∧
      ∀ text, rotator.Unforged text → ∀ key, decryptFromUserVerified K identity text rotator.verifyKey = .ok key ↔
        ∃ w ∈ rotator.wraps, K.publicKey w.recipient = K.publicKey identity ∧ w.plaintext = key ∧
          ∃ unsigned signature, w.Lays unsigned ∧ signature.length = 64 ∧
            K.verify unsigned signature rotator.verifyKey = true ∧
            base64Decode text = some (unsigned ++ signature) := by
  constructor
  · intro ephemeral nonce plaintext
    obtain ⟨⟨ct, mac⟩, sealed⟩ := Option.ne_none_iff_exists'.mp
      (ideal.seals nonce plaintext (ideal.wrapKey_length ephemeral (K.publicKey identity)))
    have made := encryptForUser_eq_ok.mpr ⟨ct, mac, sealed, rfl⟩
    have decoded := base64Decode_encode ((K.publicKey ephemeral).toList ++ (nonce.toList ++ (ct ++ mac.toList)))
    refine ⟨_, encryptForUserSigned_eq made decoded, decryptFromUserVerified_eq_ok.mpr ?_⟩
    refine ⟨_, _, base64Decode_encode _, rotator.sign_length _, rotator.paired _, ?_⟩
    exact openEnvelope_encryptForUser ideal.toLawful made decoded
  · intro text unforged key
    rw [decryptFromUserVerified_eq_ok]
    constructor
    · rintro ⟨unsigned, signature, decoded, length, verified, opened⟩
      rcases unforged unsigned signature decoded length verified with ⟨w, inside, lays⟩ | prekey | payload
      · obtain ⟨mine, same⟩ := recipient_of_open ideal lays opened
        exact ⟨w, inside, mine, same, unsigned, signature, lays, length, verified, decoded⟩
      · obtain ⟨e, failed⟩ := openEnvelope_short (K := K) identity prekey
        cases failed.symm.trans opened
      · exact (rotator.closed unsigned payload identity key opened).elim
    · rintro ⟨w, inside, mine, rfl, unsigned, signature, lays, length, verified, decoded⟩
      exact ⟨unsigned, signature, decoded, length, verified, open_of_lays ideal lays mine⟩

end Opening

section Samples

abbrev GroupKit.boxed : GroupKit :=
  { GroupKit.plain with
    encrypt := fun key _ plaintext => if key.length = 32 then some (key ++ plaintext, zeros 16) else none
    decrypt := fun key _ ciphertext _ =>
      if key.length = 32 ∧ ciphertext.take 32 = key then some (ciphertext.drop 32) else none }

theorem zipWith_add_left_cancel {s a b : Bytes} (longA : a.length = s.length) (longB : b.length = s.length)
    (same : List.zipWith (· + ·) s a = List.zipWith (· + ·) s b) : a = b := by
  induction s generalizing a b with
  | nil => rw [List.length_eq_zero_iff.mp longA, List.length_eq_zero_iff.mp longB]
  | cons x s ih =>
    obtain ⟨y, a, rfl⟩ := List.exists_cons_of_length_eq_add_one longA
    obtain ⟨z, b, rfl⟩ := List.exists_cons_of_length_eq_add_one longB
    obtain ⟨head, tail⟩ := List.cons.inj same
    rw [(UInt8.add_right_inj x).mp head, ih (Nat.succ.inj longA) (Nat.succ.inj longB) tail]

theorem GroupKit.boxed_ideal : GroupKit.boxed.Ideal where
  shared_comm := GroupKit.plain_lawful.shared_comm
  decrypt_encrypt := by
    intro key nonce plaintext ciphertext tag sealed
    change (if key.length = 32 then some (key ++ plaintext, zeros 16) else none) = _ at sealed
    split at sealed
    · rename_i length
      obtain ⟨rfl, rfl⟩ := Prod.mk.inj (Option.some.inj sealed)
      change (if key.length = 32 ∧ (key ++ plaintext).take 32 = key
        then some ((key ++ plaintext).drop 32) else none) = _
      rw [if_pos ⟨length, List.take_left' length⟩, List.drop_left' length]
    · cases sealed
  seals := by
    intro key nonce plaintext length
    change (if key.length = 32 then some (key ++ plaintext, zeros 16) else none) ≠ none
    rw [if_pos length]
    exact Option.some_ne_none _
  authentic := by
    intro key key' nonce plaintext other ciphertext tag sealed opened
    change (if key.length = 32 then some (key ++ plaintext, zeros 16) else none) = _ at sealed
    change (if key'.length = 32 ∧ ciphertext.take 32 = key' then some (ciphertext.drop 32) else none) = _ at opened
    split at sealed
    · rename_i length
      obtain ⟨rfl, rfl⟩ := Prod.mk.inj (Option.some.inj sealed)
      split at opened
      · rename_i fits
        rw [← fits.2, List.take_left' length]
      · cases opened
    · cases sealed
  wrapKey_length secret peer := by
    change (List.zipWith (· + ·) secret.toList peer.toList).length = 32
    simp
  wrapKey_injective same := same
  shared_injective := by
    intro secret a b same
    exact List.Vector.toList_injective (zipWith_add_left_cancel (by simp) (by simp) same)

def firstWrap : Wrap .boxed := ⟨1, 1, zeros 32, zeros 32, zeros 12, memberKey⟩

def firstRotator : Rotator .boxed where
  signing := zeros 32
  verifyKey := zeros 32
  wraps := [firstWrap]
  payloads := []
  paired := zeros_paired
  sign_length message := by
    change (GroupKit.plainSignature (zeros 32).toList message).length = 64
    simp only [GroupKit.plainSignature, List.length_take, List.length_append, List.length_replicate]
    omega
  closed := nofun

def unsignedBytes : Bytes :=
  (zeros 32).toList ++ ((zeros 12).toList ++ ((List.replicate 32 0 ++ memberKey) ++ (zeros 16).toList))

def signedBytes : Bytes := unsignedBytes ++ firstRotator.signing.toList ++ List.replicate 32 0

def respelt : String := String.ofList ((base64Chars signedBytes).dropLast ++ ['%', '3', 'D'])

theorem firstWrap_made : encryptForUser .boxed firstWrap.ephemeral firstWrap.nonce firstWrap.plaintext
    (GroupKit.boxed.publicKey firstWrap.recipient).toList = .ok (base64Encode unsignedBytes) :=
  encryptForUser_eq_ok.mpr ⟨List.replicate 32 0 ++ memberKey, zeros 16, by decide +kernel, rfl⟩

theorem firstWrap_lays : firstWrap.Lays unsignedBytes := ⟨_, firstWrap_made, base64Decode_encode _⟩

theorem unforged_first {text : String} (spells : base64Decode text = some signedBytes) :
    firstRotator.Unforged text := by
  intro unsigned signature decoded length verified
  rw [spells, signedBytes, List.append_assoc] at decoded
  have parts := (List.append_inj' (Option.some.inj decoded) (by rw [length]; rfl)).1
  exact .inl ⟨firstWrap, List.mem_singleton_self _, parts ▸ firstWrap_lays⟩

theorem verified_envelopes_first :
    decryptFromUserVerified .boxed (zeros 32) (base64Encode signedBytes) firstRotator.verifyKey = .ok memberKey := by
  refine ((verified_envelopes GroupKit.boxed_ideal firstRotator (zeros 32)).2 (base64Encode signedBytes)
    (unforged_first (base64Decode_encode _)) memberKey).mpr ?_
  refine ⟨firstWrap, List.mem_singleton_self _, rfl, rfl, unsignedBytes,
    firstRotator.signing.toList ++ List.replicate 32 0,
    firstWrap_lays, rfl, by decide +kernel, ?_⟩
  rw [base64Decode_encode, signedBytes, List.append_assoc]

theorem opens_first {text : String} (spells : base64Decode text = some signedBytes) :
    decryptFromUserVerified .boxed (zeros 32) text firstRotator.verifyKey = .ok memberKey := by
  rw [signedBytes, List.append_assoc] at spells
  refine decryptFromUserVerified_eq_ok.mpr ⟨unsignedBytes, _, spells, rfl, by decide +kernel, ?_⟩
  exact open_of_lays GroupKit.boxed_ideal firstWrap_lays rfl

theorem respelt_spells : base64Decode respelt = some signedBytes := by
  rw [base64Decode, respelt, String.toList_ofList]
  decide +kernel

theorem respelt_other : base64Encode signedBytes ≠ respelt := by
  intro same
  have letters := congrArg String.toList same
  rw [base64Encode, respelt, String.toList_ofList, String.toList_ofList] at letters
  revert letters
  decide +kernel

/-- The envelope is good for any conversation and version, and in other letters. -/
theorem verified_elsewhere :
    (¬ ∀ (conversationId : Uuid) (keyVersion : Int) (text : String) (key : Bytes), firstRotator.Unforged text →
      decryptFromUserVerified .boxed (zeros 32) text firstRotator.verifyKey = .ok key →
      ∃ w ∈ firstRotator.wraps, w.recipient = zeros 32 ∧ w.conversationId = conversationId ∧
        w.keyVersion = keyVersion ∧ w.plaintext = key) ∧
    ¬ ∀ (text : String) (key : Bytes), firstRotator.Unforged text →
      decryptFromUserVerified .boxed (zeros 32) text firstRotator.verifyKey = .ok key →
      ∃ w ∈ firstRotator.wraps, encryptForUserSigned .boxed (some firstRotator.signing) w.ephemeral w.nonce w.plaintext
        (GroupKit.boxed.publicKey w.recipient).toList = .ok text := by
  constructor
  · intro claim
    have spells := base64Decode_encode signedBytes
    obtain ⟨w, inside, -, elsewhere, -⟩ := claim 2 5 _ memberKey (unforged_first spells) (opens_first spells)
    obtain rfl := List.mem_singleton.mp inside
    cases elsewhere
  · intro claim
    obtain ⟨w, inside, made⟩ := claim respelt memberKey (unforged_first respelt_spells) (opens_first respelt_spells)
    obtain rfl := List.mem_singleton.mp inside
    have written : encryptForUserSigned .boxed (some firstRotator.signing)
        firstWrap.ephemeral firstWrap.nonce firstWrap.plaintext
        (GroupKit.boxed.publicKey firstWrap.recipient).toList =
          .ok (base64Encode (unsignedBytes ++ GroupKit.boxed.sign firstRotator.signing unsignedBytes)) :=
      encryptForUserSigned_eq firstWrap_made (base64Decode_encode _)
    have signed : unsignedBytes ++ GroupKit.boxed.sign firstRotator.signing unsignedBytes = signedBytes := by
      decide +kernel
    rw [signed] at written
    exact respelt_other (Except.ok.inj (written.symm.trans made))

end Samples
end Echo.Client
