import Echo.Signal.Session
import Echo.Signal.Skipping
import Mathlib.Logic.Equiv.Defs

/-! Saved ratchets and sessions. A `HashMap` is walked in an order of its own, so the
order of the skipped keys is passed in. -/
namespace Echo.Signal
open Echo.Lib

structure Primitives.Encoding (P : Primitives) where
  key : P.Key ≃ Block 32
  secret : P.Secret ≃ Block 32

def zeroBlock : Block 32 := ⟨List.replicate 32 0, zeros32_length⟩

/-- Keys as the source stores them, with nothing cryptographic about them. -/
abbrev Primitives.plain : Primitives where
  Key := Block 32
  Secret := Block 32
  zeroKey := zeroBlock
  publicKey := id
  diffieHellman _ _ := zeroBlock
  hkdf _ _ _ _ _ := zeroBlock
  aesGcmEncrypt _ _ message _ := some (message ++ List.replicate 16 0)
  aesGcmDecrypt _ _ ciphertext _ := some (ciphertext.take (ciphertext.length - 16))
  ed25519Verify message signature publicKey := signature == publicKey ++ message

def Primitives.Encoding.plain : Primitives.plain.Encoding := ⟨Equiv.refl _, Equiv.refl _⟩

/-- The entries of a map, each once, in the order `for` meets them. -/
structure Iteration {P : Primitives} (keys : SkippedKeys P) where
  entries : List (Sigma fun _ : Block 32 × UInt32 => P.Key)
  complete : (entries : Multiset _) = keys.entries

namespace RatchetState
variable {P : Primitives} (E : P.Encoding)

def optionalBytes : Option Bytes → Bytes
  | some bytes => 1 :: bytes
  | none => [0]

def skippedEntry (entry : Sigma fun _ : Block 32 × UInt32 => P.Key) : Bytes :=
  entry.1.1.toList ++ (u32Bytes entry.1.2 ++ (E.key entry.2).toList)

def serialize (s : RatchetState P) (order : Iteration s.skippedKeys) : Bytes :=
  (E.key s.rootKey).toList ++ ((E.key s.sendingChainKey).toList ++
  (optionalBytes (s.receivingChainKey.map fun key => (E.key key).toList) ++
  ((E.secret s.sendingRatchetPrivate).toList ++ (s.sendingRatchetPublic.toList ++
  (optionalBytes (s.receivingRatchetKey.map List.Vector.toList) ++
  (u32Bytes s.sendCounter ++ (u32Bytes s.recvCounter ++ (u32Bytes s.prevSendCounter ++
  (u32Bytes (UInt32.ofNat s.skippedLen) ++ order.entries.flatMap (skippedEntry E))))))))))

def eof : CoreError := .crypto "RatchetState deserialize: unexpected EOF"

def read32 (data : Bytes) : Except CoreError (Block 32 × Bytes) :=
  match readBytes 32 data with
  | some read => .ok read
  | none => .error eof

def readU32 (data : Bytes) : Except CoreError (UInt32 × Bytes) :=
  match readBytes 4 data with
  | some (word, rest) => .ok (u32OfBytes word.toList, rest)
  | none => .error eof

def readU8 : Bytes → Except CoreError (UInt8 × Bytes)
  | byte :: rest => .ok (byte, rest)
  | [] => .error eof

def readOptional (data : Bytes) : Except CoreError (Option (Block 32) × Bytes) := do
  let (flag, data) ← readU8 data
  if flag = 1 then do
    let (block, data) ← read32 data
    .ok (some block, data)
  else .ok (none, data)

def readSkipped : Nat → Bytes → SkippedKeys P → Except CoreError (SkippedKeys P × Bytes)
  | 0, data, keys => .ok (keys, data)
  | n + 1, data, keys => do
    let (peer, data) ← read32 data
    let (number, data) ← readU32 data
    let (key, data) ← read32 data
    readSkipped n data (keys.insert (peer, number) (E.key.symm key))

def deserialize (data : Bytes) : Except CoreError (RatchetState P) := do
  let (rootKey, data) ← read32 data
  let (sendingChainKey, data) ← read32 data
  let (receivingChainKey, data) ← readOptional data
  let (sendingRatchetPrivate, data) ← read32 data
  let (sendingRatchetPublic, data) ← read32 data
  let (receivingRatchetKey, data) ← readOptional data
  let (sendCounter, data) ← readU32 data
  let (recvCounter, data) ← readU32 data
  let (prevSendCounter, data) ← readU32 data
  let (numSkipped, data) ← readU32 data
  if numSkipped > maxSkip then .error (.crypto "RatchetState deserialize: too many skipped keys")
  else do
    let (skippedKeys, _) ← readSkipped E numSkipped.toNat data ∅
    .ok {
      rootKey := E.key.symm rootKey
      sendingChainKey := E.key.symm sendingChainKey
      receivingChainKey := receivingChainKey.map E.key.symm
      sendingRatchetPrivate := E.secret.symm sendingRatchetPrivate
      sendingRatchetPublic, receivingRatchetKey, sendCounter, recvCounter, prevSendCounter, skippedKeys }

@[simp] theorem ok_bind {A B : Type} (a : A) (next : A → Except CoreError B) :
    ((Except.ok a : Except CoreError A) >>= next) = next a := rfl

@[simp] theorem error_bind {A B : Type} (e : CoreError) (next : A → Except CoreError B) :
    ((Except.error e : Except CoreError A) >>= next) = .error e := rfl

@[simp] theorem read32_append (block : Block 32) (rest : Bytes) :
    read32 (block.toList ++ rest) = .ok (block, rest) := by
  rw [read32, readBytes_append]

@[simp] theorem readU32_append (word : UInt32) (rest : Bytes) :
    readU32 (u32Bytes word ++ rest) = .ok (word, rest) := by
  have block := readBytes_append (⟨u32Bytes word, u32Bytes_length word⟩ : Block 4) rest
  rw [List.Vector.toList_mk] at block
  rw [readU32, block]
  simp only [List.Vector.toList_mk, u32OfBytes_u32Bytes]

@[simp] theorem readOptional_append (block : Option (Block 32)) (rest : Bytes) :
    readOptional (optionalBytes (block.map List.Vector.toList) ++ rest) = .ok (block, rest) := by
  cases block with
  | none => rfl
  | some block => simp [optionalBytes, readOptional, readU8]

theorem readSkipped_append (entries : List (Sigma fun _ : Block 32 × UInt32 => P.Key)) (rest : Bytes)
    (keys : SkippedKeys P) :
    readSkipped E entries.length (entries.flatMap (skippedEntry E) ++ rest) keys =
      .ok (entries.foldl (fun keys entry => keys.insert entry.1 entry.2) keys, rest) := by
  induction entries generalizing keys with
  | nil => rfl
  | cons entry entries ih =>
    simp only [List.flatMap_cons, skippedEntry, List.append_assoc, List.length_cons, readSkipped,
      read32_append, readU32_append, ok_bind, Equiv.symm_apply_apply, List.foldl_cons]
    exact ih _

theorem bind_eq_ok {A B : Type} {read : Except CoreError A} {next : A → Except CoreError B} {b : B} :
    (read >>= next) = .ok b ↔ ∃ a, read = .ok a ∧ next a = .ok b := by
  cases read with
  | error | ok => simp

theorem insertAll_entries (entries : List (Sigma fun _ : Block 32 × UInt32 => P.Key))
    (keys : SkippedKeys P) (distinct : entries.NodupKeys) (new : ∀ entry ∈ entries, entry.1 ∉ keys) :
    (entries.foldl (fun keys entry => keys.insert entry.1 entry.2) keys).entries =
      keys.entries + entries := by
  induction entries generalizing keys with
  | nil => simp
  | cons entry entries ih =>
    obtain ⟨absent, distinct⟩ := List.nodupKeys_cons.mp distinct
    have first : (keys.insert entry.1 entry.2).entries = ⟨entry.1, entry.2⟩ ::ₘ keys.entries :=
      Finmap.entries_insert_of_notMem (new entry List.mem_cons_self)
    have rest : ∀ other ∈ entries, other.1 ∉ keys.insert entry.1 entry.2 := by
      intro other inside held
      rcases Finmap.mem_insert.mp held with same | old
      · exact absent (same ▸ List.mem_map_of_mem inside)
      · exact new other (List.mem_cons_of_mem _ inside) old
    rw [List.foldl_cons, ih _ distinct rest, first]
    simp [Multiset.cons_add, ← Multiset.cons_coe]

theorem insertAll_iteration {keys : SkippedKeys P} (order : Iteration keys) :
    order.entries.foldl (fun keys entry => keys.insert entry.1 entry.2) (∅ : SkippedKeys P) = keys := by
  have distinct : order.entries.NodupKeys := by
    rw [← Multiset.coe_nodupKeys, order.complete]
    exact keys.nodupKeys
  apply Finmap.ext
  rw [insertAll_entries order.entries ∅ distinct (fun _ _ => Finmap.notMem_empty), order.complete]
  exact zero_add _

theorem iteration_length (s : RatchetState P) (order : Iteration s.skippedKeys) :
    order.entries.length = s.skippedLen := by
  have size : Multiset.card s.skippedKeys.entries = s.skippedLen :=
    (Multiset.card_map Sigma.fst s.skippedKeys.entries).symm
  rw [← size, ← order.complete]
  rfl

theorem readSkipped_size (n : Nat) {data rest : Bytes} {keys read : SkippedKeys P}
    (accepted : readSkipped E n data keys = .ok (read, rest)) :
    read.keys.card ≤ keys.keys.card + n := by
  induction n generalizing data keys with
  | zero =>
    cases accepted
    exact Nat.le_refl _
  | succ n ih =>
    simp only [readSkipped, bind_eq_ok] at accepted
    obtain ⟨⟨peer, _⟩, _, ⟨number, _⟩, _, ⟨key, _⟩, _, accepted⟩ := accepted
    have rest := ih accepted
    have grow := insert_keys_card_le keys (peer, number) (E.key.symm key)
    exact Nat.le_trans rest (by simp only; omega)

theorem deserialize_size {data : Bytes} {s : RatchetState P} (accepted : deserialize E data = .ok s) :
    s.skippedLen ≤ maxSkip.toNat := by
  simp only [deserialize, bind_eq_ok] at accepted
  obtain ⟨_, _, _, _, _, _, _, _, _, _, _, _, _, _, _, _, _, _, ⟨numSkipped, _⟩, _, accepted⟩ := accepted
  split at accepted
  · cases accepted
  · rename_i small
    simp only [bind_eq_ok] at accepted
    obtain ⟨⟨skippedKeys, _⟩, read, built⟩ := accepted
    cases built
    have size := readSkipped_size E _ read
    have limit : numSkipped.toNat ≤ maxSkip.toNat := UInt32.le_iff_toNat_le.mp (UInt32.not_lt.mp small)
    simp only [Finmap.keys_empty, Finset.card_empty] at size
    exact Nat.le_trans size (by omega)

theorem deserialize_serialize_iff (s : RatchetState P) (order : Iteration s.skippedKeys) (rest : Bytes) :
    deserialize E (s.serialize E order ++ rest) = .ok s ↔ s.skippedLen ≤ maxSkip.toNat := by
  constructor
  · exact deserialize_size E
  · intro few
    have count : (UInt32.ofNat s.skippedLen).toNat = order.entries.length := by
      have small : maxSkip.toNat = 1000 := rfl
      rw [iteration_length, UInt32.toNat_ofNat']
      omega
    have within : ¬ UInt32.ofNat s.skippedLen > maxSkip := by
      rw [gt_iff_lt, UInt32.lt_iff_toNat_lt, count, iteration_length]
      omega
    have chain : s.receivingChainKey.map (fun key => (E.key key).toList) =
        (s.receivingChainKey.map E.key).map List.Vector.toList := by
      cases s.receivingChainKey <;> rfl
    have back : (s.receivingChainKey.map E.key).map E.key.symm = s.receivingChainKey := by
      cases s.receivingChainKey <;> simp
    simp only [serialize, chain, List.append_assoc, deserialize, read32_append, readOptional_append,
      readU32_append, ok_bind, if_neg within, count, readSkipped_append, insertAll_iteration,
      Equiv.symm_apply_apply, back]

theorem deserialize_serialize_full (s : RatchetState P) (order : Iteration s.skippedKeys) (rest : Bytes)
    (many : maxSkip.toNat < s.skippedLen) (fits : s.skippedLen < 2 ^ 32) :
    deserialize E (s.serialize E order ++ rest) =
      .error (.crypto "RatchetState deserialize: too many skipped keys") := by
  have count : (UInt32.ofNat s.skippedLen).toNat = s.skippedLen := by
    rw [UInt32.toNat_ofNat']
    omega
  have finished : UInt32.ofNat s.skippedLen > maxSkip := by
    rw [gt_iff_lt, UInt32.lt_iff_toNat_lt, count]
    exact many
  have chain : s.receivingChainKey.map (fun key => (E.key key).toList) =
      (s.receivingChainKey.map E.key).map List.Vector.toList := by
    cases s.receivingChainKey <;> rfl
  simp only [serialize, chain, List.append_assoc, deserialize, read32_append, readOptional_append,
    readU32_append, ok_bind, if_pos finished]

end RatchetState

namespace Session
variable {P : Primitives} (E : P.Encoding)

/-- peer_user_id_len (4 LE) || peer_user_id (UTF-8) || established (1) || ratchet_state -/
def serializeSession (session : Session P) (order : Iteration session.ratchet.skippedKeys) : Bytes :=
  let peerBytes := utf8Bytes session.peerUserId
  u32Bytes (UInt32.ofNat peerBytes.length) ++ (peerBytes ++
    ((if session.established then 1 else 0) :: session.ratchet.serialize E order))

def deserializeSession (data : Bytes) : Except CoreError (Session P) :=
  if data.length < 5 then .error (.crypto "Session data too short")
  else
    let peerLen := (u32OfBytes (data.take 4)).toNat
    if data.length < 4 + peerLen + 1 then .error (.crypto "Session data too short for peer_id")
    else
      match ofUtf8 ((data.drop 4).take peerLen) with
      | none => .error (.crypto ("Invalid UTF-8 in peer_user_id: " ++
          utf8ErrorText ((data.drop 4).take peerLen)))
      | some peerUserId => do
        let established := data.getD (4 + peerLen) 0 != 0
        let ratchet ← RatchetState.deserialize E (data.drop (4 + peerLen + 1))
        .ok { peerUserId, ratchet, established }

/-- The length of the peer's id fits its `u32` field, and the ratchet loads. -/
def Reloads (session : Session P) : Prop :=
  (utf8Bytes session.peerUserId).length < 2 ^ 32 ∧ session.ratchet.skippedLen ≤ maxSkip.toNat

theorem deserializeSession_reloads {data : Bytes} {session : Session P}
    (accepted : deserializeSession E data = .ok session) : session.Reloads := by
  unfold deserializeSession at accepted
  split at accepted
  · cases accepted
  · simp only at accepted
    split at accepted
    · cases accepted
    · split at accepted
      · cases accepted
      · rename_i peerUserId text
        obtain ⟨ratchet, loaded, built⟩ := RatchetState.bind_eq_ok.mp accepted
        cases built
        refine ⟨?_, RatchetState.deserialize_size E loaded⟩
        have peer := congrArg List.length (utf8Bytes_ofUtf8 text)
        change (utf8Bytes peerUserId).length < 2 ^ 32
        have word := (u32OfBytes (data.take 4)).toNat_lt
        rw [List.length_take] at peer
        omega

theorem deserializeSession_serializeSession_iff (session : Session P)
    (order : Iteration session.ratchet.skippedKeys) :
    deserializeSession E (session.serializeSession E order) = .ok session ↔ session.Reloads := by
  constructor
  · exact deserializeSession_reloads E
  · rintro ⟨short, few⟩
    have loaded := (RatchetState.deserialize_serialize_iff E session.ratchet order []).mpr few
    rw [List.append_nil] at loaded
    have size : (u32Bytes (UInt32.ofNat (utf8Bytes session.peerUserId).length)).length = 4 :=
      u32Bytes_length _
    have suffix : (session.serializeSession E order).drop (4 + (utf8Bytes session.peerUserId).length) =
        (if session.established then 1 else 0) :: session.ratchet.serialize E order := by
      rw [serializeSession, ← List.drop_drop, List.drop_left' size, List.drop_left' rfl]
    obtain ⟨flag, rest⟩ := getD_of_drop suffix
    have peerLen : (u32OfBytes ((session.serializeSession E order).take 4)).toNat =
        (utf8Bytes session.peerUserId).length := by
      rw [serializeSession, List.take_left' size, u32OfBytes_u32Bytes, UInt32.toNat_ofNat',
        Nat.mod_eq_of_lt short]
    have peer : ((session.serializeSession E order).drop 4).take (utf8Bytes session.peerUserId).length =
        utf8Bytes session.peerUserId := by
      rw [serializeSession, List.drop_left' size, List.take_left' rfl]
    have enough : 4 + (utf8Bytes session.peerUserId).length + 1 ≤
        (session.serializeSession E order).length := by
      simp only [serializeSession, List.length_append, size, List.length_cons]
      omega
    unfold deserializeSession
    rw [if_neg (by omega), peerLen]
    simp only
    rw [if_neg (by omega), peer, ofUtf8_utf8Bytes]
    simp only
    rw [flag, rest, loaded]
    have back : ((if session.established then 1 else 0 : UInt8) != 0) = session.established := by
      cases session.established <;> rfl
    rw [back]
    rfl

/- Runs that save and load the session before some of the calls. -/
def reload (order : ∀ keys : SkippedKeys P, Iteration keys) (session : Session P) :
    Except CoreError (Session P) :=
  deserializeSession E (session.serializeSession E (order session.ratchet.skippedKeys))

/-- Each call with the walk order of the reload before it, if there is one. -/
abbrev ReloadingRun (P : Primitives) := List (Option (∀ keys : SkippedKeys P, Iteration keys) × Op P)

def repliesReloading : Session P → ReloadingRun P → Except CoreError (List (Except CoreError Bytes))
  | _, [] => .ok []
  | session, (order, op) :: run => do
    let session ← match order with
      | none => .ok session
      | some order => reload E order session
    let rest ← repliesReloading (session.apply op).2 run
    .ok ((session.apply op).1 :: rest)

def ReloadsFit : Session P → ReloadingRun P → Prop
  | _, [] => True
  | session, (order, op) :: run =>
    (order.isSome = true → session.Reloads) ∧ ReloadsFit (session.apply op).2 run

theorem repliesReloading_eq (run : ReloadingRun P) (session : Session P)
    (fit : session.ReloadsFit run) :
    repliesReloading E session run = .ok (session.replies (run.map Prod.snd)) := by
  induction run generalizing session with
  | nil => rfl
  | cons call run ih =>
    obtain ⟨order, op⟩ := call
    obtain ⟨here, later⟩ := fit
    have rest := ih (session.apply op).2 later
    cases order with
    | none =>
      simp only [repliesReloading, RatchetState.ok_bind, rest]
      rfl
    | some order =>
      have same := (deserializeSession_serializeSession_iff E session
        (order session.ratchet.skippedKeys)).mpr (here rfl)
      simp only [repliesReloading, reload, same, RatchetState.ok_bind, rest]
      rfl

/-- Saving and loading is lossless exactly for ratchets that hold at most `MAX_SKIP` skipped
keys, and a run that reloads only such sessions replies as if it never reloaded. -/
theorem persistence_lossless (P : Primitives) (E : P.Encoding) :
    (∀ (s : RatchetState P) (order : Iteration s.skippedKeys),
      RatchetState.deserialize E (s.serialize E order) = .ok s ↔ s.skippedLen ≤ maxSkip.toNat) ∧
    (∀ (session : Session P) (order : Iteration session.ratchet.skippedKeys),
      deserializeSession E (session.serializeSession E order) = .ok session ↔
        (utf8Bytes session.peerUserId).length < 2 ^ 32 ∧
          session.ratchet.skippedLen ≤ maxSkip.toNat) ∧
    ∀ (session : Session P) (run : ReloadingRun P), session.ReloadsFit run →
      repliesReloading E session run = .ok (session.replies (run.map Prod.snd)) := by
  refine ⟨?_, deserializeSession_serializeSession_iff E, fun session run => repliesReloading_eq E run session⟩
  intro s order
  have bare := RatchetState.deserialize_serialize_iff E s order []
  rw [List.append_nil] at bare
  exact bare

end Session

namespace RatchetState
variable {P : Primitives}

/-- Bob after messages 1000 and 1002 of Alice's first chain, when nothing else arrives. -/
def gapState (sharedSecret : P.Key) (own fresh : P.Secret) (peer : Block 32) (wire : Bytes) :
    RatchetState P :=
  (initBob sharedSecret own).afterOps
    [.decrypt fresh ⟨peer, 0, 1000⟩ wire, .decrypt fresh ⟨peer, 0, 1002⟩ wire]

theorem gapState_skippedLen (sharedSecret : P.Key) (own fresh : P.Secret) (peer : Block 32) (wire : Bytes) :
    (gapState sharedSecret own fresh peer wire).skippedLen = 1001 := by
  obtain ⟨_, s, first, reading⟩ := initBob_read sharedSecret own fresh peer 0 1000 (by decide)
  obtain ⟨_, t, second, after⟩ := reading.read fresh 0 1002 (by decide) (by decide) (by decide) (by decide)
  rw [gapState, afterOps_decrypt, first, afterOps_decrypt, second]
  exact after.size

/-- He holds 1001 skipped keys, half of what the run-time cap allows, and cannot load his
saved state. -/
theorem gap_unloadable :
    (gapState (P := .plain) zeroBlock zeroBlock zeroBlock zeroBlock (List.replicate 28 0)).skippedLen
      ≤ maxSkippedKeys ∧
    ∀ order, deserialize .plain
      ((gapState (P := .plain) zeroBlock zeroBlock zeroBlock zeroBlock (List.replicate 28 0)).serialize
        .plain order) = .error (.crypto "RatchetState deserialize: too many skipped keys") := by
  have size := gapState_skippedLen (P := .plain) zeroBlock zeroBlock zeroBlock zeroBlock (List.replicate 28 0)
  constructor
  · rw [size]
    decide
  · intro order
    have refused := deserialize_serialize_full .plain _ order [] (by rw [size]; decide) (by rw [size]; decide)
    rw [List.append_nil] at refused
    exact refused

end RatchetState

end Echo.Signal
