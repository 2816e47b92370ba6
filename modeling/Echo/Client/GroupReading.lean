import Echo.Client.KeyOrigin
import Echo.EndToEnd.Wires

/-! Reading a group message: a wire opens under the key it was made with, and a client that goes by
that key shows its text. -/
namespace Echo.Client
open Echo.Lib
open Echo.Server (Uuid)

variable {K : GroupKit}

theorem cut_block (front block back : Bytes) {n k : Nat} (start : front.length = n) (stop : n + block.length = k) :
    ((front ++ (block ++ back)).take k).drop n = block := by
  rw [← List.append_assoc, List.take_left' (by simp; omega), List.drop_left' start]

section RoundTrip
variable {G : GroupPrimitives}

def GroupPrimitives.Opens (G : GroupPrimitives) : Prop :=
  ∀ {key nonce plaintext ciphertext tag}, G.encrypt key nonce plaintext = some (ciphertext, tag) →
    G.decrypt key nonce ciphertext tag = some plaintext

theorem groupDecrypt_groupEncrypt (opens : G.Opens) {key plaintext ciphertext : Bytes} {nonce : Block 12}
    {tag : Block 16} (sealed : groupEncrypt G key nonce plaintext = .ok (ciphertext, tag)) :
    groupDecrypt G key nonce ciphertext tag = .ok plaintext := by
  unfold groupEncrypt at sealed
  split at sealed
  · rename_i box made
    cases sealed
    simp only [groupDecrypt, opens made]
  · cases sealed

theorem groupBase64_encode (data : Bytes) : groupBase64 (base64Encode data) = .ok data := by
  simp only [groupBase64, base64Decode_encode]

theorem groupUtf8_bytes (text : String) : groupUtf8 (utf8Bytes text) = .ok text := by
  simp only [groupUtf8, ofUtf8_utf8Bytes]

theorem decryptGroupMessage_encrypt (opens : G.Opens) {nonce : Block 12} {plaintext key key' wire : String}
    {keyBytes : Bytes} (made : encryptGroupMessage G nonce plaintext key = .ok wire)
    (spelled : base64Decode key = some keyBytes) (spelled' : base64Decode key' = some keyBytes) :
    decryptGroupMessage G wire key' = .ok plaintext := by
  simp only [encryptGroupMessage, groupBase64, spelled, bind, Except.bind, pure, Except.pure] at made
  split at made
  · cases made
  rename_i box sealed
  obtain ⟨ct, mac⟩ := box
  cases made
  have length : (nonce.toList ++ (ct ++ mac.toList)).length = 28 + ct.length := by
    simp only [List.length_append, List.Vector.toList_length]
    omega
  have first : (nonce.toList ++ (ct ++ mac.toList)).take 12 = nonce.toList := List.take_left' nonce.2
  have body := cut_block nonce.toList ct mac.toList (n := 12) (k := 28 + ct.length - 16) nonce.2 (by omega)
  have last : (nonce.toList ++ (ct ++ mac.toList)).drop (28 + ct.length - 16) = mac.toList := by
    rw [← List.append_assoc, List.drop_left' (by simp; omega)]
  have opened := groupDecrypt_groupEncrypt opens sealed
  rw [decryptGroupMessage, if_pos (startsWith_append _ _), substring_append, groupBase64_encode]
  simp only [bind, Except.bind, length]
  rw [dif_neg (by omega)]
  simp only [first, body, last, groupBase64, spelled']
  refine Eq.trans ?_ (groupUtf8_bytes plaintext)
  exact congrArg (fun result => Except.bind result groupUtf8) opened

theorem verifyAndDecryptGroupMessageV2_encrypt (opens : G.Opens) {nonce : Block 12}
    {plaintext key key' wire : String} {keyBytes conversationIdBytes messageIdBytes : Bytes}
    {senderSigningKey : G.SigningKey} {senderVerifyKey : G.VerifyKey}
    (signs : ∀ message, G.verify message (G.sign senderSigningKey message) senderVerifyKey = true)
    (made : encryptGroupMessageV2 G nonce plaintext key conversationIdBytes messageIdBytes senderSigningKey = .ok wire)
    (spelled : base64Decode key = some keyBytes) (spelled' : base64Decode key' = some keyBytes) :
    verifyAndDecryptGroupMessageV2 G wire key' conversationIdBytes messageIdBytes senderVerifyKey = .ok plaintext := by
  simp only [encryptGroupMessageV2, groupBase64, spelled, bind, Except.bind, pure, Except.pure] at made
  split at made
  · cases made
  rename_i fits
  split at made
  · cases made
  rename_i box sealed
  obtain ⟨ct, mac⟩ := box
  dsimp only at made
  split at made
  · cases made
  rename_i payload signed
  split at made
  · cases made
  rename_i exact64
  cases made
  have opened := groupDecrypt_groupEncrypt opens sealed
  generalize signature : G.sign senderSigningKey payload = sig at exact64
  have width : sig.length = 64 := Decidable.not_not.mp exact64
  have length : (groupEncryptedV2Version :: (nonce.toList ++ (ct ++ (mac.toList ++ sig)))).length = 93 + ct.length := by
    simp only [List.length_cons, List.length_append, List.Vector.toList_length, width]
    omega
  have first := cut_block [groupEncryptedV2Version] nonce.toList (ct ++ (mac.toList ++ sig)) (n := 1) (k := 13)
    rfl (by simp)
  have body := cut_block (groupEncryptedV2Version :: nonce.toList) ct (mac.toList ++ sig) (n := 13)
    (k := 93 + ct.length - 64 - 16) (by simp) (by omega)
  have last := cut_block (groupEncryptedV2Version :: (nonce.toList ++ ct)) mac.toList sig
    (n := 93 + ct.length - 64 - 16) (k := 93 + ct.length - 64) (by simp; omega) (by simp; omega)
  have tail : (groupEncryptedV2Version :: (nonce.toList ++ (ct ++ (mac.toList ++ sig)))).drop (93 + ct.length - 64) =
      sig := by
    have joined : groupEncryptedV2Version :: (nonce.toList ++ (ct ++ (mac.toList ++ sig))) =
        (groupEncryptedV2Version :: (nonce.toList ++ (ct ++ mac.toList))) ++ sig := by simp
    rw [joined, List.drop_left' (by simp; omega)]
  simp only [List.cons_append, List.nil_append, List.append_assoc] at first body last
  rw [verifyAndDecryptGroupMessageV2, if_pos (startsWith_append _ _), substring_append, groupBase64_encode]
  simp only [bind, Except.bind, length]
  rw [dif_neg (by omega)]
  simp only [List.getD_cons_zero, ne_eq, not_true_eq_false, if_false, ed25519SignatureLength, first, body, last, tail,
    groupBase64, spelled']
  have verified : G.verify payload sig senderVerifyKey = true := signature ▸ signs payload
  have signed' : grpV2SignaturePayload groupEncryptedV2Version conversationIdBytes messageIdBytes
      ⟨nonce.toList, nonce.2⟩ ct ⟨mac.toList, mac.2⟩ = .ok payload := signed
  rw [signed']
  simp only [if_pos verified, if_neg fits]
  refine Eq.trans ?_ (groupUtf8_bytes plaintext)
  exact congrArg (fun result => Except.bind result groupUtf8) opened

end RoundTrip
section Senders

/-- What a member made of the text with its key, as the frame carries it. -/
def Sent (sender : KeyRing K) (key : GroupKey) (text : String) (m : GroupWire) : Prop :=
  ∃ clientMessageId, sender.encryptContent m.conversationId key text = .ok (some ⟨m.content, clientMessageId⟩) ∧
    ∀ id ∈ clientMessageId, m.messageId = some id

def Legible (keyBytes : Bytes) (senderVerifyKey : K.VerifyKey) (text : String) (m : GroupWire) : Prop :=
  if startsWith m.content groupEncryptedPrefixV2 then
    ∃ messageId convIdBytes msgIdBytes, m.messageId = some messageId ∧
      K.uuidStringToBytes (K.uuidText m.conversationId) = some convIdBytes ∧
      K.uuidStringToBytes messageId = some msgIdBytes ∧
      ∀ key, base64Decode key = some keyBytes → verifyAndDecryptGroupMessageV2 K.toGroupPrimitives m.content key
        convIdBytes msgIdBytes senderVerifyKey = .ok text
  else ∀ key, base64Decode key = some keyBytes → decryptGroupMessage K.toGroupPrimitives m.content key = .ok text

theorem Sent.legible (opens : K.Opens) {sender : KeyRing K} {key : GroupKey} {text : String} {m : GroupWire}
    {keyBytes : Bytes} {senderVerifyKey : K.VerifyKey} (sent : Sent sender key text m)
    (spelled : base64Decode key.2 = some keyBytes)
    (signs : ∀ senderSigningKey, sender.signingKeyPair = some senderSigningKey →
      ∀ message, K.verify message (K.sign senderSigningKey message) senderVerifyKey = true) :
    Legible keyBytes senderVerifyKey text m := by
  obtain ⟨clientMessageId, made, framed⟩ := sent
  simp only [KeyRing.encryptContent] at made
  split at made
  · split at made
    · cases made
    rename_i senderSigningKey signing
    split at made
    · rename_i convIdBytes msgIdBytes conv msg
      split at made
      · rename_i payload wrote
        cases made
        obtain ⟨body, shape, -⟩ := EndToEnd.encryptGroupMessageV2_wire _ wrote
        rw [Legible, if_pos (shape ▸ startsWith_append _ _)]
        exact ⟨_, _, _, framed _ rfl, conv, msg, fun key' spelled' =>
          verifyAndDecryptGroupMessageV2_encrypt opens (signs _ signing) wrote spelled spelled'⟩
      · cases made
    · cases made
  · split at made
    · rename_i payload wrote
      cases made
      obtain ⟨body, shape, -⟩ := EndToEnd.encryptGroupMessage_wire _ wrote
      rw [Legible, if_neg fun grp2 => grp_apart (shape ▸ startsWith_append _ _) grp2]
      exact fun key' spelled' => decryptGroupMessage_encrypt opens wrote spelled spelled'
    · cases made

end Senders

section Readers
variable (m : GroupWire) (keyBytes : Bytes) (identity : K.Secret) (senderVerifyKey : K.VerifyKey)

def KeyRequest.takes (m : GroupWire) : KeyRequest → Bool
  | .arrived m' => m' = m
  | _ => false

def KeyRequest.shows (m : GroupWire) : KeyRequest → Bool
  | .display m' _ => m' = m
  | _ => false

theorem KeyRequest.shows_iff {r : KeyRequest} : r.shows m = true ↔ ∃ shown, r = .display m shown := by
  cases r with
  | display m' shown => simp [shows]
  | _ => simp [shows]

def TookOver (trace : List (KeyEvent K)) (who : Nat) : Prop := ∃ d ∈ trace, d.who = who ∧ d.request.takes m = true

instance (trace : List (KeyEvent K)) (who : Nat) : Decidable (TookOver m trace who) :=
  inferInstanceAs (Decidable (∃ d ∈ trace, d.who = who ∧ d.request.takes m = true))

/-- A call that reads the message finds the key it was encrypted under wherever it looks first, and
nothing else stands in the way of opening it. -/
def Supplies (trace : List (KeyEvent K)) (e : KeyEvent K) : Prop :=
  TookOver m trace e.who →
    match e.request with
    | .isUnencrypted c => KeyRing.unencryptedGroups e.before c = false
    | .cached c => ∀ key ∈ KeyRing.keyCache e.before c, key.bytes = keyBytes
    | .readAll => KeyRing.storage e.before = true →
      ∀ key ∈ KeyTask.bestStored m.conversationId (KeyRing.stored e.before).entries, base64Decode key.2 = some keyBytes
    | .getLatest _ =>
      match KeyRing.latestReplies e.before (KeyRing.asked e.before) with
      | some ⟨200, some ⟨some text, some _, _⟩⟩ => adopted K identity text = some keyBytes
      | _ => False
    | .identityKeyPair =>
      match KeyRing.perform .identityKeyPair e.before with
      | some (.ok found, _) => found = identity
      | _ => False
    | .write _ _ _ => KeyRing.storage e.before = true
    | .openV1 c _ _ => (KeyRing.cachedMinWireVersion e.before c).getD 1 < 2
    | .senderVerifyKey _ _ =>
      KeyRing.verifyKeyReplies e.before (KeyRing.asked e.before) = some (some senderVerifyKey)
    | _ => True

def KeyReply : (r : KeyRequest) → KeyAnswer K r → Prop
  | .isUnencrypted _, unencrypted => unencrypted = false
  | .cached _, (found : Option CachedKey) => ∀ key ∈ found, key.bytes = keyBytes
  | .readAll, entries => ∀ key ∈ KeyTask.bestStored m.conversationId entries, base64Decode key.2 = some keyBytes
  | .getLatest _, reply => ∃ text version minWireVersion,
    reply = some ⟨200, some ⟨some text, some version, minWireVersion⟩⟩ ∧ adopted K identity text = some keyBytes
  | .identityKeyPair, result => result = .ok identity
  | .write _ _ _, wrote => wrote = .ok ()
  | .openV1 _ key wire, opened => ∀ text,
    decryptGroupMessage K.toGroupPrimitives wire key.2 = .ok text → opened = .ok (some text)
  | .senderVerifyKey _ _, answer => answer = some (some senderVerifyKey)
  | _, _ => True

theorem Supplies.found {trace : List (KeyEvent K)} {who : Nat} {r : KeyRequest} {a : KeyAnswer K r} {s s' : KeyRing K}
    (supplies : Supplies m keyBytes identity senderVerifyKey trace ⟨who, r, s, s'⟩)
    (reads : TookOver m trace who) (answered : KeyRing.perform r s = some (a, s')) :
    KeyReply m keyBytes identity senderVerifyKey r a := by
  have good := supplies reads
  cases r with
  | isUnencrypted | cached | senderVerifyKey =>
    obtain ⟨rfl, -⟩ := Prod.mk.inj (Option.some.inj answered)
    exact good
  | readAll =>
    obtain ⟨rfl, -⟩ := Prod.mk.inj (Option.some.inj answered)
    intro key best
    split at best
    · rename_i available
      exact good available key best
    · cases best
  | getLatest c =>
    obtain ⟨rfl, -⟩ := Prod.mk.inj (Option.some.inj answered)
    dsimp only at good
    split at good
    · rename_i reply text version minWireVersion replied
      exact ⟨text, version, minWireVersion, replied, good⟩
    · exact good.elim
  | identityKeyPair =>
    dsimp only at good
    split at good
    · rename_i found after identified
      rw [identified] at answered
      exact (Prod.mk.inj (Option.some.inj answered)).1.symm.trans (congrArg Except.ok good)
    · exact good.elim
  | write c version key =>
    simp only [KeyRing.perform, if_pos (show s.storage = true from good)] at answered
    exact (Prod.mk.inj (Option.some.inj answered)).1.symm
  | openV1 c key wire =>
    obtain ⟨rfl, -⟩ := Prod.mk.inj (Option.some.inj answered)
    intro text opened
    have admitted : ¬ 2 ≤ (s.cachedMinWireVersion c).getD 1 := Int.not_le.mpr good
    simp only [KeyRing.openV1, if_neg admitted, opened]
  | _ => exact trivial

variable (text : String)

inductive Stage where
  | idle
  | reading
  | shown
  deriving DecidableEq

def Stage.next (m : GroupWire) (stage : Stage) (r : KeyRequest) : Stage :=
  if r.takes m then .reading else if r.shows m then .shown else stage

theorem Stage.next_silent {stage : Stage} {r : KeyRequest} (silent : KeyTask.Silent r) : stage.next m r = stage := by
  cases r <;> first | rfl | exact silent.elim

abbrev opening : Contract (keyMachine K) where
  Mode := Stage
  finished := .idle
  Permit _ r := ∀ shown, r = .display m shown → shown = text
  Next stage r a stage' := stage' = stage.next m r ∧
    (stage = .reading → KeyReply m keyBytes identity senderVerifyKey r a)
  Rest _ := True
  Final stage := stage ≠ .reading

variable {m keyBytes identity senderVerifyKey text} {α β : Type}

theorem keeps_silent {t : KeyTask K α} {stage : Stage} (only : t.Only KeyTask.Silent) :
    t.Keeps (opening m keyBytes identity senderVerifyKey text) stage fun stage' _ => stage' = stage := by
  refine only.keeps (fun silent shown same => ?_) (fun silent moved => ?_) trivial
  · subst same
    exact silent.elim
  · rw [moved.1, Stage.next_silent m silent]

theorem keeps_found {r : KeyRequest} {f : KeyAnswer K r → KeyTask K β} {post : Stage → Except KeyThrown β → Prop}
    (handles : KeyTask.Silent r)
    (rest : ∀ a, KeyReply m keyBytes identity senderVerifyKey r a →
      (f a).Keeps (opening m keyBytes identity senderVerifyKey text) .reading post) :
    ((KeyTask.ask r).bind f).Keeps (opening m keyBytes identity senderVerifyKey text) .reading post := by
  refine ⟨fun shown same => ?_, fun a stage' moved => ?_⟩
  · subst same
    exact handles.elim
  · rw [moved.1, Stage.next_silent m handles]
    exact rest a (moved.2 rfl)

theorem keeps_wait {f : Unit → KeyTask K β} {post : Stage → Except KeyThrown β → Prop}
    (rest : (f ()).Keeps (opening m keyBytes identity senderVerifyKey text) .reading post) :
    ((KeyTask.pause : KeyTask K Unit).bind f).Keeps (opening m keyBytes identity senderVerifyKey text) .reading post :=
  ⟨trivial, rest⟩

abbrev Yields (P : α → Prop) (stage : Stage) (r : Except KeyThrown α) : Prop := stage = .reading ∧ ∃ a, r = .ok a ∧ P a

theorem keeps_with {t : KeyTask K α} {f : α → KeyTask K β} {P : α → Prop} {post : Stage → Except KeyThrown β → Prop}
    (keeps : t.Keeps (opening m keyBytes identity senderVerifyKey text) .reading (Yields P))
    (rest : ∀ a, P a → (f a).Keeps (opening m keyBytes identity senderVerifyKey text) .reading post) :
    (t.bind f).Keeps (opening m keyBytes identity senderVerifyKey text) .reading post := by
  refine Async.Keeps.bind (keeps.mono fun stage r yields => ?_)
  obtain ⟨rfl, a, rfl, holds⟩ := yields
  exact rest a holds

theorem keeps_decryptFromUser (ciphertextB64 : String) :
    (KeyTask.decryptFromUser ciphertextB64).Keeps (opening m keyBytes identity senderVerifyKey text) .reading
      fun stage r => stage = .reading ∧ r = match decryptFromUser K identity ciphertextB64 with
        | .ok rawKeyBytes => .ok rawKeyBytes
        | .error e => .error (.group e) := by
  refine keeps_found trivial fun result found => keeps_wait ?_
  obtain rfl : result = .ok identity := found
  change ((KeyTask.returned (grouped (decryptFromUser K identity ciphertextB64))).Keeps _ _ _)
  cases decryptFromUser K identity ciphertextB64 <;> exact ⟨rfl, rfl⟩

theorem keeps_unwrapKey (encryptedKey : String) :
    (KeyTask.unwrapKey encryptedKey).Keeps (opening m keyBytes identity senderVerifyKey text) .reading
      (Yields fun rawKeyB64 => rawKeyB64 = unwrapped K identity encryptedKey) := by
  unfold KeyTask.unwrapKey unwrapped
  split
  · refine Async.Keeps.catching (Async.Keeps.bind ((keeps_decryptFromUser encryptedKey).mono fun stage r result => ?_))
    obtain ⟨rfl, rfl⟩ := result
    cases decryptFromUser K identity encryptedKey with
    | ok | error => exact ⟨rfl, _, rfl, rfl⟩
  · exact ⟨rfl, _, rfl, rfl⟩

theorem assertGroupKeyShape_fits {c : Uuid} {version : Int} {rawKeyB64 : String} (spelled : base64Decode rawKeyB64 = some keyBytes)
    (fits : keyBytes.length = groupKeyBytesLength) :
    (KeyTask.assertGroupKeyShape c version rawKeyB64 : KeyTask K Unit) = pure () := by
  simp only [KeyTask.assertGroupKeyShape, spelled, ne_eq, fits, not_true_eq_false, if_false]

theorem keeps_cacheKey_spelled (c : Uuid) (version : Int) {keyBase64 : String} (minWireVersion : Int)
    (spelled : base64Decode keyBase64 = some keyBytes) :
    (KeyTask.cacheKey c version keyBase64 minWireVersion).Keeps (opening m keyBytes identity senderVerifyKey text) .reading
      (Yields fun _ => True) := by
  have decoded : (grouped (groupBase64 keyBase64) : Except KeyThrown Bytes) = .ok keyBytes := by
    simp only [groupBase64, spelled, grouped]
  unfold KeyTask.cacheKey
  rw [decoded]
  refine keeps_found trivial fun _ _ => keeps_found trivial fun wrote found => keeps_wait ?_
  obtain rfl : wrote = .ok () := found
  exact ⟨rfl, (), rfl, trivial⟩

abbrev KeyOf (keyBytes : Bytes) (found : Option GroupKey) : Prop :=
  ∃ key, found = some key ∧ base64Decode key.2 = some keyBytes

theorem keeps_fetchGroupKey_found (c : Uuid) :
    (KeyTask.fetchGroupKey c).Keeps (opening m keyBytes identity senderVerifyKey text) .reading (Yields (KeyOf keyBytes)) := by
  refine Async.Keeps.catching ?_
  refine keeps_found trivial fun response found => keeps_wait ?_
  obtain ⟨encryptedKey, version, minWireVersion, rfl, adopts⟩ := found
  obtain ⟨spelled, fits⟩ := Option.filter_eq_some_iff.mp adopts
  refine (keeps_with (keeps_unwrapKey encryptedKey) fun rawKeyB64 unwraps => ?_ : Async.Keeps _ (Async.bind _ _) _ _)
  subst unwraps
  refine (?_ : Async.Keeps _ (Async.bind _ _) _ _)
  rw [assertGroupKeyShape_fits spelled (of_decide_eq_true fits)]
  refine (?_ : Async.Keeps _ (Async.bind (KeyTask.cacheKey _ _ _ _) _) _ _)
  refine keeps_with (keeps_cacheKey_spelled c version _ spelled) fun _ _ => ?_
  exact ⟨rfl, _, rfl, _, rfl, spelled⟩

theorem keeps_getGroupKey_found :
    (KeyTask.getGroupKey m.conversationId).Keeps (opening m keyBytes identity senderVerifyKey text) .reading
      (Yields (KeyOf keyBytes)) := by
  refine keeps_found trivial fun unencrypted found => ?_
  obtain rfl : unencrypted = false := found
  refine keeps_found trivial fun cached found => ?_
  split
  · rename_i key
    have same : key.bytes = keyBytes := found key rfl
    exact ⟨rfl, _, rfl, _, rfl, same ▸ base64Decode_encode key.bytes⟩
  refine keeps_found trivial fun allEntries found => keeps_wait ?_
  split
  · rename_i bestVersion bestKey best
    have spelled : base64Decode bestKey = some keyBytes := found (bestVersion, bestKey) best
    have decoded : (grouped (groupBase64 bestKey) : Except KeyThrown Bytes) = .ok keyBytes := by
      simp only [groupBase64, spelled, grouped]
    rw [decoded]
    exact keeps_found trivial fun _ _ => ⟨rfl, _, rfl, _, rfl, spelled⟩
  · exact keeps_fetchGroupKey_found _

theorem keeps_awaitGroupKey_found :
    (KeyTask.awaitGroupKey m.conversationId).Keeps (opening m keyBytes identity senderVerifyKey text) .reading
      (Yields (KeyOf keyBytes)) :=
  keeps_with keeps_getGroupKey_found fun found key => keeps_wait ⟨rfl, found, rfl, key⟩

theorem keeps_decryptGroupMessage (legible : Legible keyBytes senderVerifyKey text m) (noKey failed : String) :
    (KeyTask.decryptGroupMessage noKey failed m).Keeps (opening m keyBytes identity senderVerifyKey text) .reading
      (Yields fun shown => shown = text) := by
  refine Async.Keeps.catching (keeps_with keeps_awaitGroupKey_found fun found spells => ?_)
  obtain ⟨key, rfl, spelled⟩ := spells
  unfold Legible at legible
  dsimp only
  split at legible
  · rename_i grp2
    obtain ⟨messageId, convIdBytes, msgIdBytes, framed, conv, msg, opens⟩ := legible
    rw [if_pos grp2, framed]
    refine keeps_found trivial fun answer found => keeps_wait ?_
    obtain rfl : answer = some (some senderVerifyKey) := found
    change (KeyTask.openV2 m.conversationId key m.content messageId senderVerifyKey).Keeps _ _ _
    unfold KeyTask.openV2
    rw [conv, msg]
    refine keeps_wait ?_
    rw [opens key.2 spelled]
    exact ⟨rfl, text, rfl, rfl⟩
  · rename_i grp1
    rw [if_neg grp1]
    refine keeps_found trivial fun answer found => keeps_wait ?_
    obtain rfl : answer = .ok (some text) := found text (legible key.2 spelled)
    exact ⟨rfl, text, rfl, rfl⟩

theorem keeps_reader (legible : Legible keyBytes senderVerifyKey text m) (noKey failed : String) (m' : GroupWire) :
    (KeyTask.ask (.arrived m') >>= fun _ => KeyTask.decryptGroupMessage noKey failed m' >>= fun shown =>
      KeyTask.ask (.display m' shown) : KeyTask K Unit).Keeps
        (opening m keyBytes identity senderVerifyKey text) .idle fun stage _ => stage ≠ .reading := by
  refine ⟨nofun, fun _ stage moved => ?_⟩
  obtain ⟨rfl, -⟩ := moved
  change (Async.bind (KeyTask.decryptGroupMessage noKey failed m') fun shown =>
    KeyTask.ask (.display m' shown)).Keeps _ _ _
  by_cases mine : m' = m
  · subst mine
    have begun : Stage.next m' .idle (.arrived m') = .reading := by simp [Stage.next, KeyRequest.takes]
    rw [begun]
    refine keeps_with (keeps_decryptGroupMessage legible noKey failed) fun shown same => ?_
    refine ⟨fun shown' displays => ?_, fun _ stage' moved => ?_⟩
    · cases displays
      exact same
    · have finished : Stage.next m' .reading (.display m' shown) = .shown := by
        simp [Stage.next, KeyRequest.takes, KeyRequest.shows]
      rw [moved.1, finished]
      exact nofun
  · have idle : Stage.next m .idle (.arrived m') = .idle := by simp [Stage.next, KeyRequest.takes, KeyRequest.shows, mine]
    rw [idle]
    refine Async.Keeps.bind ((keeps_silent ((KeyTask.decryptGroupMessage_opening noKey failed m').mono
      fun _ opens => opens.2)).mono fun stage r same => ?_)
    subst same
    cases r with
    | error e => exact nofun
    | ok shown =>
      refine ⟨fun shown' displays => ?_, fun _ stage' moved => ?_⟩
      · cases displays
        exact (mine rfl).elim
      · have still : Stage.next m .idle (.display m' shown) = .idle := by
          simp [Stage.next, KeyRequest.takes, KeyRequest.shows, mine]
        rw [moved.1, still]
        exact nofun

theorem keyProgram_opening (legible : Legible keyBytes senderVerifyKey text m) (call : KeyCall) :
    (keyProgram K call).Keeps (opening m keyBytes identity senderVerifyKey text) .idle
      fun stage _ => stage ≠ .reading := by
  have silent : ∀ {t : KeyTask K Unit}, t.Only KeyTask.Silent →
      t.Keeps (opening m keyBytes identity senderVerifyKey text) .idle fun stage _ => stage ≠ .reading :=
    fun only => (keeps_silent only).mono fun stage _ same => by rw [same]; exact nofun
  cases call with
  | send c content isEncrypted isAdminOrOwner myUserId => exact silent (KeyTask.sendGroupMessage_silent _ _ _ _ _)
  | receive m' => exact keeps_reader legible _ _ m'
  | loadHistory m' => exact keeps_reader legible _ _ m'
  | _ => exact silent (KeyTask.handling_silent (KeyTask.keyProgram_handling trivial))

theorem TookOver.cons {trace : List (KeyEvent K)} {who : Nat} (takes : TookOver m trace who) (e : KeyEvent K) :
    TookOver m (e :: trace) who := by
  obtain ⟨d, inside, his⟩ := takes
  exact ⟨d, List.mem_cons_of_mem _ inside, his⟩

structure Staged (m : GroupWire) (trace : List (KeyEvent K)) (who : Nat) (stage : Stage) : Prop where
  begun : stage = .reading → TookOver m trace who
  later : TookOver m trace who → stage ≠ .idle
  shown : stage = .shown → ∃ e ∈ trace, e.who = who ∧ e.request.shows m = true

theorem Staged.step {trace : List (KeyEvent K)} {who : Nat} {stage : Stage} (staged : Staged m trace who stage)
    (r : KeyRequest) (s s' : KeyRing K) : Staged m (⟨who, r, s, s'⟩ :: trace) who (stage.next m r) := by
  unfold Stage.next
  split
  · rename_i takes
    exact ⟨fun _ => ⟨_, List.mem_cons_self, rfl, takes⟩, fun _ => Stage.noConfusion, Stage.noConfusion⟩
  rename_i other
  split
  · rename_i shows
    exact ⟨Stage.noConfusion, fun _ => Stage.noConfusion, fun _ => ⟨_, List.mem_cons_self, rfl, shows⟩⟩
  · refine ⟨fun reading => (staged.begun reading).cons _, fun takes => staged.later ?_, fun finished => ?_⟩
    · obtain ⟨d, inside, his, takes⟩ := takes
      rcases List.mem_cons.mp inside with rfl | earlier
      · exact (other takes).elim
      · exact ⟨d, earlier, his, takes⟩
    · obtain ⟨e, inside, his⟩ := staged.shown finished
      exact ⟨e, List.mem_cons_of_mem _ inside, his⟩

theorem Staged.others {trace : List (KeyEvent K)} {i : Nat} {stage : Stage} (staged : Staged m trace i stage)
    {e : KeyEvent K} (other : e.who ≠ i) : Staged m (e :: trace) i stage := by
  refine ⟨fun reading => (staged.begun reading).cons _, fun takes => staged.later ?_, fun finished => ?_⟩
  · obtain ⟨d, inside, his, takes⟩ := takes
    rcases List.mem_cons.mp inside with rfl | earlier
    · exact (other his).elim
    · exact ⟨d, earlier, his, takes⟩
  · obtain ⟨e, inside, his⟩ := staged.shown finished
    exact ⟨e, List.mem_cons_of_mem _ inside, his⟩

theorem opening_marks : (opening m keyBytes identity senderVerifyKey text).Marks
    (Supplies m keyBytes identity senderVerifyKey) (Staged m) where
  step staged _ answered supplies :=
    ⟨_, ⟨rfl, fun reading => supplies.found _ _ _ _ (staged.begun reading) answered⟩, staged.step _ _ _⟩
  others staged other := staged.others other
  begins := by
    intro trace i earlier
    refine ⟨nofun, fun ⟨d, inside, his, _⟩ => ?_, nofun⟩
    exact (Nat.ne_of_lt (earlier d inside) his).elim

structure Faithful (m : GroupWire) (text : String) (trace : List (KeyEvent K)) (modes : Nat → Stage) (_ : KeyRing K) :
    Prop where
  begun : ∀ {i}, modes i = .reading → TookOver m trace i
  shown : ∀ e ∈ trace, ∀ shown, e.request = .display m shown → shown = text

theorem Faithful.step {trace : List (KeyEvent K)} {modes : Nat → Stage} {s s' : KeyRing K} {who : Nat} {r : KeyRequest}
    (faithful : Faithful m text trace modes s) (permit : ∀ shown, r = .display m shown → shown = text) :
    Faithful m text (⟨who, r, s, s'⟩ :: trace) (Function.update modes who ((modes who).next m r)) s' := by
  constructor
  · intro i reading
    by_cases same : i = who
    · subst same
      rw [Function.update_self] at reading
      unfold Stage.next at reading
      split at reading
      · rename_i takes
        exact ⟨_, List.mem_cons_self, rfl, takes⟩
      · split at reading
        · cases reading
        · exact (faithful.begun reading).cons _
    · rw [Function.update_of_ne same] at reading
      exact (faithful.begun reading).cons _
  · intro e inside shown displays
    rcases List.mem_cons.mp inside with rfl | earlier
    · exact permit shown displays
    · exact faithful.shown e earlier shown displays

theorem opening_sound : (opening m keyBytes identity senderVerifyKey text).Sound
    (Supplies m keyBytes identity senderVerifyKey) (Faithful m text) where
  turns who :=
    { step := fun faithful permit answered supplies =>
        ⟨_, ⟨rfl, fun reading => supplies.found _ _ _ _ (faithful.begun reading) answered⟩, faithful.step permit⟩
      wait := fun _ _ _ => trivial }
  finish := by
    intro trace modes s i faithful _
    refine ⟨fun {j} reading => ?_, faithful.shown⟩
    by_cases same : j = i
    · rw [same, Function.update_self] at reading
      cases reading
    · rw [Function.update_of_ne same] at reading
      exact faithful.begun reading
  restart := fun faithful _ => ⟨nofun, faithful.shown⟩
  finished_rest := trivial

theorem KeyMoves.opens (legible : Legible keyBytes senderVerifyKey text m) {move : Move (keyMachine K) KeyThrown Unit}
    (made : KeyMoves K move) :
    World.Makes (fun t => t.Keeps (opening m keyBytes identity senderVerifyKey text) .idle
      fun stage _ => stage ≠ .reading) move := by
  cases move with
  | call t =>
    obtain ⟨call, rfl⟩ := made
    exact keyProgram_opening legible call
  | resume | restart => exact trivial
  | alone t => exact made.elim

/-- Nothing but its text is ever shown of a message, and every call that took it over and is at its end
has shown it. -/
structure Reads (m : GroupWire) (text : String) (w : World (keyMachine K) KeyThrown Unit) : Prop where
  shown : ∀ e ∈ w.trace, ∀ shown, e.request = .display m shown → shown = text
  ended : ∀ {i r}, w.tasks[i]? = some (some (.done r)) → TookOver m w.trace i →
    ∃ e ∈ w.trace, e.who = i ∧ e.request = .display m text

end Readers

section Examples

def member : KeyRing .plain := (keyRun (.fresh .empty fun _ => latest (keyOf 1) 1) (World.oneByOne 20 [.fetchGroupKey 1])).state

def greeting : GroupWire where
  conversationId := 1
  content := match member.encryptContent 1 (1, keyOf 1) "hi" with
    | .ok (some message) => message.payload
    | _ => ""
  fromUserId := 7
  fromDeviceId := none
  messageId := some "m"

def shownTexts (trace : List (KeyEvent K)) : List String :=
  trace.filterMap fun e => match e.request with
    | .display _ text => some text
    | _ => none

instance (m : GroupWire) (keyBytes : Bytes) (identity senderVerifyKey : Block 32) (trace : List (KeyEvent .plain))
    (e : KeyEvent .plain) : Decidable (Supplies (K := .plain) m keyBytes identity senderVerifyKey trace e) := by
  unfold Supplies
  split <;> try infer_instance
  · split <;> infer_instance
  · split
    · rename_i found _ _
      exact inferInstanceAs (Decidable (_ → @Eq (Block 32) found identity))
    · infer_instance

theorem greeting_sent : Sent member (1, keyOf 1) "hi" greeting := ⟨none, by decide +kernel, by simp⟩

def misshown (e : KeyEvent .plain) : Bool :=
  match e.request with
  | .display m text => m = greeting && text ≠ "hi"
  | _ => false

end Examples
end Echo.Client
