import Echo.Client.KeyVersions

/-! Where a fetched group key comes from: out of an envelope a member made, or from the server. -/
namespace Echo.Client
open Echo.Lib
open Echo.Server (Uuid)

variable {K : GroupKit}

structure GroupKit.Lawful (K : GroupKit) : Prop where
  shared_comm : ∀ a b, K.sharedSecret a (K.publicKey b) = K.sharedSecret b (K.publicKey a)
  decrypt_encrypt : ∀ {key nonce plaintext ciphertext tag},
    K.encrypt key nonce plaintext = some (ciphertext, tag) → K.decrypt key nonce ciphertext tag = some plaintext

section Envelopes

/-- An envelope for the owner of the identity key, with a key the predicate holds of. -/
def EnvelopeOf (K : GroupKit) (Made : Bytes → Prop) (identity : K.Secret) (wire : Bytes) : Prop :=
  ∃ ephemeral nonce key text, Made key ∧
    encryptForUser K ephemeral nonce key (K.publicKey identity).toList = .ok text ∧ base64Decode text = some wire

theorem openEnvelope_laid (identity : K.Secret) (ephPub : Block 32) (nonce : Block 12) (ct : Bytes) (mac : Block 16) :
    openEnvelope K identity (ephPub.toList ++ (nonce.toList ++ (ct ++ mac.toList))) =
      groupDecrypt K.toGroupPrimitives (wrapKey K identity ephPub) nonce ct mac := by
  have length : (ephPub.toList ++ (nonce.toList ++ (ct ++ mac.toList))).length = 60 + ct.length := by
    simp only [List.length_append, List.Vector.toList_length]
    omega
  have front : (ephPub.toList ++ (nonce.toList ++ (ct ++ mac.toList))).take 32 = ephPub.toList :=
    List.take_left' ephPub.2
  have second : ((ephPub.toList ++ (nonce.toList ++ (ct ++ mac.toList))).take 44).drop 32 = nonce.toList := by
    rw [← List.append_assoc, List.take_left' (by simp), List.drop_left' (by simp)]
  have body : ((ephPub.toList ++ (nonce.toList ++ (ct ++ mac.toList))).take (60 + ct.length - 16)).drop 44 = ct := by
    have joined : ephPub.toList ++ (nonce.toList ++ (ct ++ mac.toList)) =
        (ephPub.toList ++ nonce.toList ++ ct) ++ mac.toList := by simp only [List.append_assoc]
    rw [joined, List.take_left' (by simp; omega), List.drop_left' (by simp)]
  have last : (ephPub.toList ++ (nonce.toList ++ (ct ++ mac.toList))).drop (60 + ct.length - 16) = mac.toList := by
    have joined : ephPub.toList ++ (nonce.toList ++ (ct ++ mac.toList)) =
        (ephPub.toList ++ nonce.toList ++ ct) ++ mac.toList := by simp only [List.append_assoc]
    rw [joined, List.drop_left' (by simp; omega)]
  simp only [openEnvelope, length]
  rw [dif_neg (by omega)]
  simp only [front, second, body, last]
  rfl

theorem openEnvelope_parts {identity : K.Secret} {wire key : Bytes} (opened : openEnvelope K identity wire = .ok key) :
    ∃ (ephPub : Block 32) (nonce : Block 12) (ct : Bytes) (mac : Block 16),
      wire = ephPub.toList ++ (nonce.toList ++ (ct ++ mac.toList)) ∧
        groupDecrypt K.toGroupPrimitives (wrapKey K identity ephPub) nonce ct mac = .ok key := by
  unfold openEnvelope at opened
  split at opened
  · cases opened
  · rename_i long
    refine ⟨_, _, _, _, ?_, opened⟩
    simp only [List.Vector.toList_mk]
    have tail : wire.drop 44 = (wire.take (wire.length - 16)).drop 44 ++ wire.drop (wire.length - 16) := by
      conv_lhs => rw [← List.take_append_drop (wire.length - 16) wire]
      rw [List.drop_append_of_le_length (by simp; omega)]
    have rest : wire.drop 32 = (wire.take 44).drop 32 ++ wire.drop 44 := by
      conv_lhs => rw [← List.take_append_drop 44 wire]
      rw [List.drop_append_of_le_length (by simp; omega)]
    rw [← tail, ← rest, List.take_append_drop]

theorem openEnvelope_encryptForUser (lawful : K.Lawful) {identity ephemeral : K.Secret} {nonce : Block 12}
    {key wire : Bytes} {text : String}
    (made : encryptForUser K ephemeral nonce key (K.publicKey identity).toList = .ok text)
    (decoded : base64Decode text = some wire) : openEnvelope K identity wire = .ok key := by
  simp only [encryptForUser, List.Vector.toList_length, dite_true, bind, Except.bind] at made
  split at made
  · cases made
  rename_i box sealed
  obtain ⟨ct, mac⟩ := box
  cases made
  rw [base64Decode_encode] at decoded
  cases decoded
  rw [openEnvelope_laid]
  have agreed : wrapKey K identity (K.publicKey ephemeral) = wrapKey K ephemeral (K.publicKey identity) := by
    rw [wrapKey, wrapKey, lawful.shared_comm]
  unfold groupEncrypt at sealed
  split at sealed
  · rename_i box made
    cases sealed
    have opened : K.decrypt (wrapKey K ephemeral (K.publicKey identity)) nonce ct mac = some key :=
      lawful.decrypt_encrypt made
    simp only [groupDecrypt, agreed, opened]
  · cases sealed

end Envelopes
section Server

/-- A malicious server and the members, as the owner of the identity key meets them. `Known` is all
the server can compute, its envelopes and those it was sent included; `Made` are the group keys
members generated. -/
structure Secrecy (K : GroupKit) (identity : K.Secret) where
  Made : Bytes → Prop
  Known : Bytes → Prop
  secret : ∀ {key}, Made key → ¬ Known key
  decodes : ∀ {text bytes}, Known (utf8Bytes text) → base64Decode text = some bytes → Known bytes
  /-- Whoever computes an envelope that opens has copied a member's or knows what is inside. -/
  unforged : ∀ {wire key}, Known wire → openEnvelope K identity wire = .ok key →
    EnvelopeOf K Made identity wire ∨ Known key

def Rejected (K : GroupKit) (identity : K.Secret) (text : String) : Prop :=
  ∀ wire, base64Decode text = some wire → wire.length ≠ groupKeyBytesLength ∧
    ∀ key, openEnvelope K identity wire = .ok key → key.length ≠ groupKeyBytesLength

/-- The text `fetchGroupKey` takes for the key: what the envelope holds, else the reply as it is. -/
def unwrapped (K : GroupKit) (identity : K.Secret) (encryptedKey : String) : String :=
  if encryptedKey ≠ "__envelope__" then
    match decryptFromUser K identity encryptedKey with
    | .ok rawKeyBytes => base64Encode rawKeyBytes
    | .error _ => encryptedKey
  else encryptedKey

def adopted (K : GroupKit) (identity : K.Secret) (encryptedKey : String) : Option Bytes :=
  (base64Decode (unwrapped K identity encryptedKey)).filter fun bytes => bytes.length = groupKeyBytesLength

theorem openEnvelope_short (identity : K.Secret) {wire : Bytes} (short : wire.length = groupKeyBytesLength) :
    ∃ e, openEnvelope K identity wire = .error e := by
  unfold openEnvelope
  rw [dif_pos (by rw [short]; decide)]
  exact ⟨_, rfl⟩

theorem sentinel_short : ∃ wire, base64Decode "__envelope__" = some wire ∧ wire.length = 9 := by
  refine ⟨(base64Decode "__envelope__").getD [], ?_, ?_⟩ <;> decide +kernel

variable {identity : K.Secret} {text : String} {ring : KeyRing K} {c : Uuid} {version : Int}

theorem unwrapped_of_opened {wire key : Bytes} (decoded : base64Decode text = some wire)
    (opened : openEnvelope K identity wire = .ok key) : unwrapped K identity text = base64Encode key := by
  have proper : text ≠ "__envelope__" := by
    rintro rfl
    obtain ⟨wire', decoded', nine⟩ := sentinel_short
    rw [decoded] at decoded'
    cases decoded'
    rw [openEnvelope, dif_pos (by omega)] at opened
    cases opened
  simp only [unwrapped, if_pos proper, decryptFromUser, groupBase64, decoded, bind, Except.bind, opened]

theorem unwrapped_of_refused
    (refused : ∀ wire key, base64Decode text = some wire → openEnvelope K identity wire ≠ .ok key) :
    unwrapped K identity text = text := by
  unfold unwrapped
  split
  · cases decoded : base64Decode text with
    | none => simp only [decryptFromUser, groupBase64, decoded, bind, Except.bind]
    | some wire =>
      cases opened : openEnvelope K identity wire with
      | ok key => exact (refused wire key decoded opened).elim
      | error e => simp only [decryptFromUser, groupBase64, decoded, bind, Except.bind, opened]
  · rfl

theorem adopted_eq_some {key : Bytes} :
    adopted K identity text = some key ↔ key.length = groupKeyBytesLength ∧
      ∃ wire, base64Decode text = some wire ∧ (openEnvelope K identity wire = .ok key ∨ wire = key) := by
  rw [adopted, Option.filter_eq_some_iff, decide_eq_true_eq, and_comm]
  refine and_congr_right fun length => ?_
  by_cases envelope : ∃ wire key, base64Decode text = some wire ∧ openEnvelope K identity wire = .ok key
  · obtain ⟨wire, inner, decoded, opened⟩ := envelope
    rw [unwrapped_of_opened decoded opened, base64Decode_encode]
    constructor
    · intro same
      exact ⟨wire, decoded, .inl (Option.some.inj same ▸ opened)⟩
    · rintro ⟨wire', decoded', opened' | rfl⟩
      · rw [decoded] at decoded'
        cases decoded'
        rw [opened] at opened'
        cases opened'
        rfl
      · rw [decoded] at decoded'
        cases decoded'
        obtain ⟨e, failed⟩ := openEnvelope_short (K := K) identity length
        rw [opened] at failed
        cases failed
  · rw [unwrapped_of_refused fun wire inner decoded opened => envelope ⟨wire, inner, decoded, opened⟩]
    constructor
    · intro decoded
      exact ⟨key, decoded, .inr rfl⟩
    · rintro ⟨wire, decoded, opened | rfl⟩
      · exact (envelope ⟨wire, key, decoded, opened⟩).elim
      · exact decoded

theorem adopted_eq_none :
    adopted K identity text = none ↔ Rejected K identity text := by
  rw [← Option.not_isSome_iff_eq_none, Option.isSome_iff_exists]
  simp only [adopted_eq_some]
  constructor
  · intro refused wire decoded
    exact ⟨fun length => refused ⟨wire, length, wire, decoded, .inr rfl⟩,
      fun key opened length => refused ⟨key, length, wire, decoded, .inl opened⟩⟩
  · rintro rejected ⟨key, length, wire, decoded, opened | rfl⟩
    · exact (rejected wire decoded).2 key opened length
    · exact (rejected wire decoded).1 length

variable {identity : K.Secret} (S : Secrecy K identity)

theorem Secrecy.adopted_iff (lawful : K.Lawful) (sent : S.Known (utf8Bytes text)) :
    (∀ key, adopted K identity text = some key → S.Made key ∧ ¬ S.Known key) ↔
      Rejected K identity text ∨ ∃ wire, base64Decode text = some wire ∧ EnvelopeOf K S.Made identity wire := by
  constructor
  · intro unknown
    cases took : adopted K identity text with
    | none => exact .inl (adopted_eq_none.mp took)
    | some key =>
      obtain ⟨-, wire, decoded, opened | rfl⟩ := adopted_eq_some.mp took
      · rcases S.unforged (S.decodes sent decoded) opened with made | known
        · exact .inr ⟨wire, decoded, made⟩
        · exact ((unknown key took).2 known).elim
      · exact ((unknown _ took).2 (S.decodes sent decoded)).elim
  · rintro (rejected | ⟨wire, decoded, envelope⟩) key took
    · rw [adopted_eq_none.mpr rejected] at took
      cases took
    · obtain ⟨ephemeral, nonce, inner, text', made, wrapped, same⟩ := envelope
      have opens := openEnvelope_encryptForUser lawful wrapped same
      obtain ⟨length, wire', decoded', opened | rfl⟩ := adopted_eq_some.mp took
      · rw [decoded] at decoded'
        cases decoded'
        rw [opens] at opened
        cases opened
        exact ⟨made, S.secret made⟩
      · rw [decoded] at decoded'
        cases decoded'
        obtain ⟨e, failed⟩ := openEnvelope_short (K := K) identity length
        rw [opens] at failed
        cases failed

def cachedIn (trace : List (KeyEvent K)) : List Bytes :=
  trace.filterMap fun e => match e.request with
    | .cache _ key => some key.bytes
    | _ => none

def cachedBy {α : Type} (t : KeyTask K α) (ring : KeyRing K) : List Bytes := cachedIn (t.run true 0 ring []).2.2

/-- `fetchGroupKey` once the fields of the reply are there. -/
def takeUp (c : Uuid) (encryptedKey : String) (version minWireVersion : Int) : KeyTask K (Option GroupKey) :=
  ((KeyTask.unwrapKey encryptedKey).bind fun rawKeyB64 =>
    (KeyTask.assertGroupKeyShape c version rawKeyB64).bind fun _ =>
      (KeyTask.cacheKey c version rawKeyB64 minWireVersion).bind fun _ =>
        .done (.ok (some (version, rawKeyB64)))).catching fun _ => .done (.ok none)

theorem run_fetchGroupKey {minWireVersion : Option Int}
    (reply : ring.latestReplies ring.asked = some ⟨200, some ⟨some text, some version, minWireVersion⟩⟩) :
    (KeyTask.fetchGroupKey c).run true 0 ring [] =
      (takeUp c text version (minWireVersion.getD 1)).run true 0 ring.next [⟨0, .getLatest c, ring, ring.next⟩] := by
  simp [KeyTask.fetchGroupKey, takeUp, Async.ask, Async.catching, Async.bind, Async.run, reply, KeyRing.perform,
    Async.pause, KeyTask.arrived, KeyTask.need]

/-- `fetchGroupKey` once the text of the key is there. -/
def putAway (c : Uuid) (rawKeyB64 : String) (version minWireVersion : Int) : KeyTask K (Option GroupKey) :=
  ((KeyTask.assertGroupKeyShape c version rawKeyB64).bind fun _ =>
    (KeyTask.cacheKey c version rawKeyB64 minWireVersion).bind fun _ =>
      .done (.ok (some (version, rawKeyB64)))).catching fun _ => .done (.ok none)

/-- The client has its identity key, or `init` brings it. -/
def KeyRing.Identified (ring : KeyRing K) (identity : K.Secret) : Prop :=
  ∃ after, KeyRing.perform .identityKeyPair ring = some (.ok identity, after)

theorem run_takeUp (identified : ring.Identified identity) (c : Uuid) (text : String)
    (version minWireVersion : Int) (trace : List (KeyEvent K)) :
    ∃ ring' trace', cachedIn trace' = cachedIn trace ∧
      (takeUp c text version minWireVersion).run true 0 ring trace =
        (putAway c (unwrapped K identity text) version minWireVersion).run true 0 ring' trace' := by
  by_cases sentinel : text = "__envelope__"
  · exact ⟨ring, trace, rfl, by simp [takeUp, putAway, KeyTask.unwrapKey, unwrapped, sentinel, Async.bind]⟩
  · obtain ⟨after, identified⟩ := identified
    refine ⟨after, ⟨0, .identityKeyPair, ring, after⟩ :: trace, rfl, ?_⟩
    cases opened : decryptFromUser K identity text with
    | ok raw =>
      simp [takeUp, putAway, KeyTask.unwrapKey, unwrapped, sentinel, KeyTask.decryptFromUser, opened, identified,
        Async.bind, Async.catching, Async.run, Async.ask, Async.pause, KeyTask.returned, grouped]
    | error e =>
      simp [takeUp, putAway, KeyTask.unwrapKey, unwrapped, sentinel, KeyTask.decryptFromUser, opened, identified,
        Async.bind, Async.catching, Async.run, Async.ask, Async.pause, KeyTask.returned, grouped, Async.throw]

theorem putAway_cached {rawKeyB64 : String} {minWireVersion : Int}
    (trace : List (KeyEvent K)) :
    cachedIn ((putAway c rawKeyB64 version minWireVersion).run true 0 ring trace).2.2 =
      ((base64Decode rawKeyB64).filter fun bytes => bytes.length = groupKeyBytesLength).toList ++ cachedIn trace := by
  cases decoded : base64Decode rawKeyB64 with
  | none =>
    simp [putAway, KeyTask.assertGroupKeyShape, decoded, Async.throw, Async.bind, Async.catching, Async.run]
  | some bytes =>
    by_cases length : bytes.length = groupKeyBytesLength
    · have kept : (some bytes).filter (fun bytes => decide (bytes.length = groupKeyBytesLength)) = some bytes := by
        simp [Option.filter, length]
      rw [kept]
      cases stored : ring.storage with
      | true =>
        simp [putAway, KeyTask.assertGroupKeyShape, decoded, length, KeyTask.cacheKey, groupBase64, grouped,
          Async.bind, Async.catching, Async.run, Async.ask, Async.pause, KeyRing.perform, KeyRing.cacheKey, stored,
          KeyTask.returned, cachedIn]
      | false =>
        simp [putAway, KeyTask.assertGroupKeyShape, decoded, length, KeyTask.cacheKey, groupBase64, grouped,
          Async.bind, Async.catching, Async.run, Async.ask, Async.pause, KeyRing.perform, KeyRing.cacheKey, stored,
          KeyTask.returned, cachedIn, Async.throw]
    · simp [putAway, KeyTask.assertGroupKeyShape, decoded, length, Async.throw, Async.bind, Async.catching,
        Async.run]

theorem cachedBy_fetchGroupKey
    {minWireVersion : Option Int} (identified : ring.next.Identified identity)
    (reply : ring.latestReplies ring.asked = some ⟨200, some ⟨some text, some version, minWireVersion⟩⟩) :
    cachedBy (KeyTask.fetchGroupKey c) ring = (adopted K identity text).toList := by
  obtain ⟨ring', trace', same, ran⟩ := run_takeUp identified c text version (minWireVersion.getD 1)
    [⟨0, .getLatest c, ring, ring.next⟩]
  rw [cachedBy, run_fetchGroupKey reply, ran, putAway_cached, same]
  exact List.append_nil _

end Server

section Examples

theorem GroupKit.plain_lawful : GroupKit.plain.Lawful where
  shared_comm a b := by
    change List.zipWith (· + ·) a.toList b.toList = List.zipWith (· + ·) b.toList a.toList
    exact List.zipWith_comm_of_comm UInt8.add_comm
  decrypt_encrypt := by
    intro key nonce plaintext ciphertext tag sealed
    change (if key.length = 32 then some (plaintext, GroupKit.plainTag key) else none) = _ at sealed
    split at sealed
    · rename_i length
      obtain ⟨rfl, rfl⟩ := Prod.mk.inj (Option.some.inj sealed)
      exact if_pos ⟨length, rfl⟩
    · cases sealed

inductive Spells (key : Bytes) : Bytes → Prop
  | plain : Spells key key
  | base64 {text : String} {bytes : Bytes} : base64Decode text = some bytes → Spells key bytes →
    Spells key (utf8Bytes text)

theorem GroupKit.plain_decrypted {aesKey : Bytes} {nonce : Block 12} {ct key : Bytes} {mac : Block 16}
    (opened : groupDecrypt plain.toGroupPrimitives aesKey nonce ct mac = .ok key) :
    ct = key ∧ groupEncrypt plain.toGroupPrimitives aesKey nonce key = .ok (key, mac) := by
  simp only [groupDecrypt] at opened
  split at opened
  · rename_i plaintext decrypted
    cases opened
    split at decrypted
    · rename_i fits
      obtain ⟨length, rfl⟩ := fits
      cases decrypted
      exact ⟨rfl, by simp only [groupEncrypt, if_pos length]⟩
    · cases decrypted
  · cases opened

def memberKey : Bytes := List.replicate 32 9

def honestMember : Secrecy .plain (zeros 32) where
  Made := Spells memberKey
  Known bytes := ¬ Spells memberKey bytes
  secret made known := known made
  decodes known decoded spells := known (.base64 decoded spells)
  unforged {wire key} _ opened := by
    by_cases spells : Spells memberKey key
    · refine .inl ?_
      obtain ⟨ephPub, nonce, ct, mac, rfl, decrypted⟩ := openEnvelope_parts opened
      obtain ⟨rfl, sealed⟩ := GroupKit.plain_decrypted decrypted
      have agreed : wrapKey .plain (zeros 32) ephPub = wrapKey .plain ephPub (zeros 32) :=
        GroupKit.plain_lawful.shared_comm (zeros 32) ephPub
      rw [agreed] at sealed
      refine ⟨ephPub, nonce, ct, _, spells, ?_, base64Decode_encode _⟩
      simp only [encryptForUser, List.Vector.toList_length, dite_true, bind, Except.bind]
      rw [show (⟨List.Vector.toList (zeros 32), _⟩ : Block 32) = zeros 32 from rfl, sealed]
      rfl
    · exact .inr spells

def envelopeFor (key : Bytes) : String :=
  match encryptForUser .plain (zeros 32) ⟨List.replicate 12 255, rfl⟩ key (zeros 32).toList with
  | .ok text => text
  | .error _ => ""

theorem known_of_no_text {bytes : Bytes} (other : bytes ≠ memberKey) (binary : ofUtf8 bytes = none) :
    honestMember.Known bytes := by
  intro spells
  cases spells with
  | plain => exact other rfl
  | base64 _ _ =>
    rw [ofUtf8_utf8Bytes] at binary
    cases binary

theorem known_of_text {text : String} (other : utf8Bytes text ≠ memberKey)
    (inner : ∀ bytes, base64Decode text = some bytes → honestMember.Known bytes) :
    honestMember.Known (utf8Bytes text) := by
  intro spells
  generalize shape : utf8Bytes text = bytes at spells
  cases spells with
  | plain => exact other shape
  | base64 decoded spells =>
    have same := congrArg ofUtf8 shape
    rw [ofUtf8_utf8Bytes, ofUtf8_utf8Bytes] at same
    cases Option.some.inj same
    exact inner _ decoded spells

theorem known_envelopeFor {key : Bytes} (other : utf8Bytes (envelopeFor key) ≠ memberKey)
    (binary : (base64Decode (envelopeFor key)).all fun wire => wire ≠ memberKey ∧ ofUtf8 wire = none) :
    honestMember.Known (utf8Bytes (envelopeFor key)) := by
  refine known_of_text other fun wire decoded => ?_
  rw [decoded] at binary
  obtain ⟨apart, none⟩ := of_decide_eq_true binary
  exact known_of_no_text apart none

end Examples
end Echo.Client
