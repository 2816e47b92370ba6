import Echo.Client.Parity

/-! Which key a client session has for a message, and what taking it leaves for the others. -/
namespace Echo.Client.SignalSession
open Echo.Lib Echo.Signal
variable {P : Primitives}

section Skips

/-- Keys of messages `first .. first + k - 1` of one chain, stored under one ratchet key. -/
def storeRange (stored : Finmap (fun _ : String => P.Key)) (slot : Block 32) (first : Nat) (chainKey : P.Key) :
    Nat → Finmap (fun _ : String => P.Key)
  | 0 => stored
  | k + 1 => (storeRange stored slot first chainKey k).insert
      (skippedKeyId slot (first + k)) (messageKeyAt P chainKey k)

theorem store_iterate (s : SignalSession P) {chainKey : P.Key} (chain : s.recvChainKey = some chainKey) (k : Nat) :
    storeSkippedKey^[k] s = { s with
      recvChainKey := some (chainAt P chainKey k)
      recvCounter := s.recvCounter + k
      skippedKeys := storeRange s.skippedKeys s.recvSlot s.recvCounter chainKey k } := by
  induction k with
  | zero =>
    rw [Function.iterate_zero, id, storeRange, Nat.add_zero, show chainAt P chainKey 0 = chainKey from rfl, ← chain]
  | succ k ih =>
    rw [Function.iterate_succ_apply', ih]
    simp only [storeSkippedKey, recvSlot, storeRange, messageKeyAt, chainAt_succ, Nat.add_assoc]

theorem store_idle (s : SignalSession P) (chain : s.recvChainKey = none) (k : Nat) : storeSkippedKey^[k] s = s := by
  have fixed : s.storeSkippedKey = s := by rw [storeSkippedKey, chain]
  exact Function.iterate_fixed fixed k

theorem storeRange_lookup (stored : Finmap (fun _ : String => P.Key)) (slot : Block 32) (first : Nat)
    (chainKey : P.Key) (k : Nat) (peer : Block 32) (n : Nat) :
    (storeRange stored slot first chainKey k).lookup (skippedKeyId peer n) =
      if peer = slot ∧ first ≤ n ∧ n < first + k then some (messageKeyAt P chainKey (n - first))
      else stored.lookup (skippedKeyId peer n) := by
  induction k with
  | zero =>
    have empty : ¬ (peer = slot ∧ first ≤ n ∧ n < first + 0) := by omega
    rw [if_neg empty]
    rfl
  | succ k ih =>
    rw [storeRange]
    by_cases here : skippedKeyId peer n = skippedKeyId slot (first + k)
    · obtain ⟨rfl, rfl⟩ := skippedKeyId_injective here
      have inside : peer = peer ∧ first ≤ first + k ∧ first + k < first + (k + 1) := ⟨rfl, by omega, by omega⟩
      rw [if_pos inside, Finmap.lookup_insert, Nat.add_sub_cancel_left]
    · rw [Finmap.lookup_insert_of_ne _ here, ih]
      have apart : peer = slot → n ≠ first + k := by
        rintro rfl rfl
        exact here rfl
      have same : (peer = slot ∧ first ≤ n ∧ n < first + k) ↔ (peer = slot ∧ first ≤ n ∧ n < first + (k + 1)) := by
        constructor
        · rintro ⟨hp, low, high⟩
          exact ⟨hp, low, by omega⟩
        · rintro ⟨hp, low, high⟩
          have := apart hp
          exact ⟨hp, low, by omega⟩
      simp only [same]

def skipped (s : SignalSession P) (target : Nat) : SignalSession P := storeSkippedKey^[target - s.recvCounter] s

theorem skipMessageKeys_far {s : SignalSession P} {target : Nat} (far : s.recvCounter + maxSkip < target) :
    ∃ e, s.skipMessageKeys target = (.error e, s) := by
  rw [skipMessageKeys, if_pos far]
  exact ⟨_, rfl⟩

theorem skipMessageKeys_near {s : SignalSession P} {target : Nat} (near : ¬ s.recvCounter + maxSkip < target) :
    s.skipMessageKeys target = (.ok (), s.skipped target) := by
  rw [skipMessageKeys, if_neg near, skipped]
  cases chain : s.recvChainKey with
  | none => rw [store_idle s chain]
  | some chainKey =>
    have started : s.recvChainKey.isSome = true := by rw [chain]; rfl
    by_cases ahead : s.recvCounter ≤ target
    · simp only
      rw [skipLoop_eq target _ s started (by omega)]
    · have none : target - s.recvCounter = 0 := by omega
      simp only [none]
      rfl

theorem skipped_eq (s : SignalSession P) (target : Nat) :
    ∃ chain counter stored, s.skipped target =
      { s with recvChainKey := chain, recvCounter := counter, skippedKeys := stored } := by
  cases chain : s.recvChainKey with
  | none => exact ⟨_, _, _, store_idle s chain _⟩
  | some chainKey => exact ⟨_, _, _, store_iterate s chain _⟩

theorem skipped_rootKey (s : SignalSession P) (target : Nat) : (s.skipped target).rootKey = s.rootKey := by
  obtain ⟨chain, counter, stored, after⟩ := s.skipped_eq target
  rw [after]

theorem skipped_sendRatchetKeyPair (s : SignalSession P) (target : Nat) :
    (s.skipped target).sendRatchetKeyPair = s.sendRatchetKeyPair := by
  obtain ⟨chain, counter, stored, after⟩ := s.skipped_eq target
  rw [after]

theorem skipped_recvRatchetKey (s : SignalSession P) (target : Nat) :
    (s.skipped target).recvRatchetKey = s.recvRatchetKey := by
  obtain ⟨chain, counter, stored, after⟩ := s.skipped_eq target
  rw [after]

end Skips

/-- The key the session has for a message, if it will look for one at all. -/
def messageKeyFor (s : SignalSession P) (header : MessageHeader) : Option P.Key :=
  match s.skippedKeys.lookup (skippedKeyId header.ratchetPublicKey header.messageNumber) with
  | some messageKey => some messageKey
  | none =>
    if s.needDhRatchet header then
      if s.recvChainKey.isSome ∧ s.recvCounter + maxSkip < header.prevChainLength then none
      else if maxSkip < header.messageNumber then none
      else some (messageKeyAt P (kdfRk P s.rootKey
        (P.diffieHellman s.sendRatchetKeyPair header.ratchetPublicKey)).2 header.messageNumber)
    else
      match s.recvChainKey with
      | none => none
      | some chainKey =>
        if s.recvCounter + maxSkip < header.messageNumber then none
        else some (messageKeyAt P chainKey (header.messageNumber - s.recvCounter))

/-- The session once the message key is out: the skips, the DH step and the advance that led to it. -/
def taking (s : SignalSession P) (fresh : P.Secret) (header : MessageHeader) : SignalSession P :=
  match s.skippedKeys.lookup (skippedKeyId header.ratchetPublicKey header.messageNumber) with
  | some _ => { s with
      skippedKeys := s.skippedKeys.erase (skippedKeyId header.ratchetPublicKey header.messageNumber) }
  | none =>
    let t :=
      if s.needDhRatchet header then
        (s.skipped header.prevChainLength).dhRatchetStep fresh header.ratchetPublicKey
      else s
    (t.skipped header.messageNumber).advanceReceiving.2

theorem needDhRatchet_iff (s : SignalSession P) (header : MessageHeader) :
    s.needDhRatchet header = true ↔ s.recvRatchetKey ≠ some header.ratchetPublicKey := by
  unfold needDhRatchet
  cases s.recvRatchetKey with
  | none => simp
  | some current =>
    simp only [Bool.not_eq_true', beq_eq_false_iff_ne, ne_eq, Option.some.injEq]
    exact ⟨fun differ same => differ (congrArg List.Vector.toList same), fun differ same => differ (Subtype.ext same)⟩

theorem readChain_far {s : SignalSession P} {target : Nat} (far : s.recvCounter + maxSkip < target) :
    ∃ e, (Outcome.andThen (s.skipMessageKeys target) fun _ s => s.advanceReceiving) = (.error e, s) := by
  obtain ⟨e, refused⟩ := skipMessageKeys_far far
  rw [refused]
  exact ⟨e, rfl⟩

theorem readChain_idle {s : SignalSession P} {target : Nat} (chain : s.recvChainKey = none) :
    ∃ e, (Outcome.andThen (s.skipMessageKeys target) fun _ s => s.advanceReceiving) = (.error e, s) := by
  by_cases far : s.recvCounter + maxSkip < target
  · exact readChain_far far
  · rw [skipMessageKeys_near far, skipped, store_idle s chain, Outcome.andThen_ok, advanceReceiving, chain]
    exact ⟨_, rfl⟩

theorem readChain_near {s : SignalSession P} {target : Nat} {chainKey : P.Key} (chain : s.recvChainKey = some chainKey)
    (near : ¬ s.recvCounter + maxSkip < target) :
    (Outcome.andThen (s.skipMessageKeys target) fun _ s => s.advanceReceiving) =
      (.ok (messageKeyAt P chainKey (target - s.recvCounter)), (s.skipped target).advanceReceiving.2) := by
  rw [skipMessageKeys_near near, Outcome.andThen_ok, skipped, store_iterate s chain, advanceReceiving]
  rfl

theorem turnRatchet_same {s : SignalSession P} {header : MessageHeader} (current : s.needDhRatchet header = false)
    (fresh : P.Secret) : s.turnRatchet fresh header = (.ok (), s) := by
  rw [turnRatchet, current]
  rfl

theorem turnRatchet_far {s : SignalSession P} {header : MessageHeader} (other : s.needDhRatchet header = true)
    (fresh : P.Secret) (far : s.recvChainKey.isSome ∧ s.recvCounter + maxSkip < header.prevChainLength) :
    ∃ e, s.turnRatchet fresh header = (.error e, s) := by
  obtain ⟨e, refused⟩ := skipMessageKeys_far far.2
  rw [turnRatchet, if_pos other, if_pos far.1, refused]
  exact ⟨e, rfl⟩

theorem turnRatchet_near {s : SignalSession P} {header : MessageHeader} (other : s.needDhRatchet header = true)
    (fresh : P.Secret) (near : ¬ (s.recvChainKey.isSome ∧ s.recvCounter + maxSkip < header.prevChainLength)) :
    s.turnRatchet fresh header =
      (.ok (), (s.skipped header.prevChainLength).dhRatchetStep fresh header.ratchetPublicKey) := by
  rw [turnRatchet, if_pos other]
  cases chain : s.recvChainKey with
  | none =>
    rw [skipped, store_idle s chain]
    rfl
  | some chainKey =>
    rw [chain] at near
    simp only [Option.isSome_some, if_true]
    rw [skipMessageKeys_near fun far => near ⟨rfl, far⟩]
    rfl

theorem takeMessageKey_some {s : SignalSession P} {header : MessageHeader} {key : P.Key} (fresh : P.Secret)
    (found : s.messageKeyFor header = some key) :
    s.takeMessageKey fresh header = (.ok key, s.taking fresh header) := by
  rw [messageKeyFor] at found
  rw [takeMessageKey, taking]
  cases stored : s.skippedKeys.lookup (skippedKeyId header.ratchetPublicKey header.messageNumber) with
  | some messageKey =>
    rw [stored] at found
    cases found
    rfl
  | none =>
    rw [stored] at found
    simp only at found ⊢
    cases need : s.needDhRatchet header with
    | true =>
      rw [need, if_pos rfl] at found
      split at found
      · cases found
      · rename_i near
        split at found
        · cases found
        · rename_i close
          cases found
          rw [turnRatchet_near need fresh near, Outcome.andThen_ok, if_pos rfl, readChain_near rfl]
          · rw [skipped_rootKey, skipped_sendRatchetKeyPair]
            rfl
          · change ¬ 0 + maxSkip < header.messageNumber
            rw [Nat.zero_add]
            exact close
    | false =>
      rw [need] at found
      simp only [Bool.false_eq_true, if_false] at found ⊢
      cases chain : s.recvChainKey with
      | none =>
        rw [chain] at found
        cases found
      | some chainKey =>
        rw [chain] at found
        simp only at found
        split at found
        · cases found
        · rename_i near
          cases found
          rw [turnRatchet_same need, Outcome.andThen_ok, readChain_near chain near]

theorem takeMessageKey_none {s : SignalSession P} {header : MessageHeader} (fresh : P.Secret)
    (unfound : s.messageKeyFor header = none) : ∃ e t, s.takeMessageKey fresh header = (.error e, t) := by
  rw [messageKeyFor] at unfound
  rw [takeMessageKey]
  cases stored : s.skippedKeys.lookup (skippedKeyId header.ratchetPublicKey header.messageNumber) with
  | some messageKey =>
    rw [stored] at unfound
    cases unfound
  | none =>
    rw [stored] at unfound
    simp only at unfound ⊢
    cases need : s.needDhRatchet header with
    | true =>
      rw [need, if_pos rfl] at unfound
      by_cases behind : s.recvChainKey.isSome ∧ s.recvCounter + maxSkip < header.prevChainLength
      · obtain ⟨e, refused⟩ := turnRatchet_far need fresh behind
        exact ⟨e, s, by rw [refused, Outcome.andThen_error]⟩
      · rw [if_neg behind] at unfound
        rw [turnRatchet_near need fresh behind, Outcome.andThen_ok]
        split at unfound
        · rename_i far
          obtain ⟨e, refused⟩ := readChain_far
            (s := (s.skipped header.prevChainLength).dhRatchetStep fresh header.ratchetPublicKey)
            ((Nat.zero_add maxSkip).trans_lt far)
          exact ⟨e, _, refused⟩
        · cases unfound
    | false =>
      rw [need] at unfound
      simp only [Bool.false_eq_true, if_false] at unfound
      rw [turnRatchet_same need, Outcome.andThen_ok]
      cases chain : s.recvChainKey with
      | none =>
        obtain ⟨e, refused⟩ := @readChain_idle _ s header.messageNumber chain
        exact ⟨e, s, refused⟩
      | some chainKey =>
        rw [chain] at unfound
        simp only at unfound
        split at unfound
        · rename_i far
          obtain ⟨e, refused⟩ := readChain_far far
          exact ⟨e, s, refused⟩
        · cases unfound

def Refused (s : SignalSession P) (header : MessageHeader) : Prop :=
  s.skippedKeys.lookup (skippedKeyId header.ratchetPublicKey header.messageNumber) = none ∧
    if s.needDhRatchet header then s.recvChainKey.isSome ∧ s.recvCounter + maxSkip < header.prevChainLength
    else s.recvChainKey = none ∨ s.recvCounter + maxSkip < header.messageNumber

theorem takeMessageKey_refused {s : SignalSession P} {header : MessageHeader} (fresh : P.Secret)
    (refused : s.Refused header) : ∃ e, s.takeMessageKey fresh header = (.error e, s) := by
  obtain ⟨unstored, ahead⟩ := refused
  rw [takeMessageKey, unstored]
  simp only
  cases need : s.needDhRatchet header with
  | true =>
    rw [need, if_pos rfl] at ahead
    obtain ⟨e, stopped⟩ := turnRatchet_far need fresh ahead
    exact ⟨e, by rw [stopped, Outcome.andThen_error]⟩
  | false =>
    rw [need] at ahead
    rw [turnRatchet_same need, Outcome.andThen_ok]
    rcases ahead with idle | far
    · exact readChain_idle idle
    · exact readChain_far far

theorem advanceReceiving_recvRatchetKey (s : SignalSession P) :
    s.advanceReceiving.2.recvRatchetKey = s.recvRatchetKey := by
  unfold advanceReceiving
  split <;> rfl

theorem takeMessageKey_turned {s : SignalSession P} {header : MessageHeader} (fresh : P.Secret)
    (unstored : s.skippedKeys.lookup (skippedKeyId header.ratchetPublicKey header.messageNumber) = none)
    (other : s.needDhRatchet header = true)
    (near : ¬ (s.recvChainKey.isSome ∧ s.recvCounter + maxSkip < header.prevChainLength)) :
    (s.takeMessageKey fresh header).2.recvRatchetKey = some header.ratchetPublicKey := by
  rw [takeMessageKey, unstored]
  simp only
  rw [turnRatchet_near other fresh near, Outcome.andThen_ok]
  have turned : ((s.skipped header.prevChainLength).dhRatchetStep fresh header.ratchetPublicKey).recvRatchetKey =
      some header.ratchetPublicKey := rfl
  generalize (s.skipped header.prevChainLength).dhRatchetStep fresh header.ratchetPublicKey = t at turned ⊢
  by_cases far : t.recvCounter + maxSkip < header.messageNumber
  · obtain ⟨e, refused⟩ := readChain_far far
    rw [refused, turned]
  · rw [skipMessageKeys_near far, Outcome.andThen_ok, advanceReceiving_recvRatchetKey, skipped_recvRatchetKey, turned]

theorem takeMessageKey_touched {s : SignalSession P} {header : MessageHeader} (fresh : P.Secret)
    (reached : ¬ s.Refused header) : (s.takeMessageKey fresh header).2 ≠ s := by
  intro same
  cases stored : s.skippedKeys.lookup (skippedKeyId header.ratchetPublicKey header.messageNumber) with
  | some messageKey =>
    have keys := congrArg (fun t : SignalSession P =>
      t.skippedKeys.lookup (skippedKeyId header.ratchetPublicKey header.messageNumber)) same
    rw [takeMessageKey, stored] at keys
    simp only [Finmap.lookup_erase] at keys
    cases keys
  | none =>
    cases need : s.needDhRatchet header with
    | true =>
      by_cases behind : s.recvChainKey.isSome ∧ s.recvCounter + maxSkip < header.prevChainLength
      · exact reached ⟨stored, by rwa [need, if_pos rfl]⟩
      · have turned := takeMessageKey_turned fresh stored need behind
        rw [same] at turned
        exact (needDhRatchet_iff s header).mp need turned
    | false =>
      by_cases near : s.recvChainKey = none ∨ s.recvCounter + maxSkip < header.messageNumber
      · refine reached ⟨stored, ?_⟩
        rw [need]
        exact near
      · rw [not_or] at near
        obtain ⟨chainKey, chain⟩ := Option.ne_none_iff_exists'.mp near.1
        have counter := congrArg SignalSession.recvCounter same
        rw [takeMessageKey, stored] at counter
        simp only at counter
        rw [turnRatchet_same need, Outcome.andThen_ok, readChain_near chain near.2, skipped, store_iterate s chain,
          advanceReceiving] at counter
        simp only at counter
        omega

/-- Not a session yet, not a frame, or a frame with no key to look for: refused on sight. -/
def Refuses (s : SignalSession P) (data : Bytes) : Prop :=
  s.established = true → ∀ header ciphertext, unframe data = .ok (header, ciphertext) → s.Refused header

theorem decrypt_refused {s : SignalSession P} {data : Bytes} (fresh : P.Secret) (refused : s.Refuses data) :
    ∃ e, s.decrypt fresh data = (.error e, s) := by
  unfold decrypt
  by_cases established : s.established = true
  · rw [if_pos established]
    cases framed : unframe data with
    | error e => exact ⟨e, rfl⟩
    | ok parts =>
      obtain ⟨header, ciphertext⟩ := parts
      obtain ⟨e, stopped⟩ := takeMessageKey_refused fresh (refused established header ciphertext framed)
      simp only [stopped]
      exact ⟨e, rfl⟩
  · rw [if_neg established]
    exact ⟨_, rfl⟩

theorem decrypt_untouched_iff (s : SignalSession P) (fresh : P.Secret) (data : Bytes) :
    (s.decrypt fresh data).2 = s ↔ s.Refuses data := by
  constructor
  · intro same established header ciphertext framed
    by_contra reached
    refine takeMessageKey_touched fresh reached ?_
    rw [decrypt, if_pos established, framed] at same
    simp only at same
    generalize s.takeMessageKey fresh header = taken at same ⊢
    obtain ⟨result, t⟩ := taken
    cases result <;> exact same
  · intro refused
    obtain ⟨e, stopped⟩ := decrypt_refused fresh refused
    rw [stopped]

def Opens (s : SignalSession P) (data bytes : Bytes) : Prop :=
  s.established = true ∧ ∃ header ciphertext key, unframe data = .ok (header, ciphertext) ∧
    s.messageKeyFor header = some key ∧ decryptWithAd P key ciphertext header.serialize = .ok bytes

theorem decrypt_opens {s : SignalSession P} {data bytes : Bytes} {header : MessageHeader} {ciphertext : Bytes}
    {key : P.Key} (fresh : P.Secret) (established : s.established = true)
    (framed : unframe data = .ok (header, ciphertext)) (found : s.messageKeyFor header = some key)
    (opened : decryptWithAd P key ciphertext header.serialize = .ok bytes) :
    s.decrypt fresh data = (.ok bytes, s.taking fresh header) := by
  rw [decrypt, if_pos established, framed]
  simp only
  rw [takeMessageKey_some fresh found, Outcome.andThen_ok, opened]

theorem decrypt_eq_ok_iff (s : SignalSession P) (fresh : P.Secret) (data bytes : Bytes) :
    (s.decrypt fresh data).1 = .ok bytes ↔ s.Opens data bytes := by
  constructor
  · intro done
    unfold decrypt at done
    split at done
    · rename_i established
      split at done
      · cases done
      · rename_i header ciphertext framed
        cases found : s.messageKeyFor header with
        | none =>
          obtain ⟨e, t, stopped⟩ := takeMessageKey_none fresh found
          rw [stopped] at done
          cases done
        | some key =>
          rw [takeMessageKey_some fresh found, Outcome.andThen_ok] at done
          exact ⟨established, header, ciphertext, key, framed, found, done⟩
    · cases done
  · rintro ⟨established, header, ciphertext, key, framed, found, opened⟩
    rw [decrypt_opens fresh established framed found opened]

section Lookups
variable {s : SignalSession P}

theorem skipped_lookup_inside {chainKey : P.Key} (chain : s.recvChainKey = some chainKey) {target n : Nat}
    (low : s.recvCounter ≤ n) (high : n < target) :
    (s.skipped target).skippedKeys.lookup (skippedKeyId s.recvSlot n) =
      some (messageKeyAt P chainKey (n - s.recvCounter)) := by
  rw [skipped, store_iterate s chain]
  simp only
  rw [storeRange_lookup, if_pos]
  exact ⟨rfl, low, by omega⟩

theorem skipped_lookup_outside {target n : Nat} {peer : Block 32}
    (apart : ¬ (peer = s.recvSlot ∧ s.recvCounter ≤ n ∧ n < target)) :
    (s.skipped target).skippedKeys.lookup (skippedKeyId peer n) = s.skippedKeys.lookup (skippedKeyId peer n) := by
  cases chain : s.recvChainKey with
  | none => rw [skipped, store_idle s chain]
  | some chainKey =>
    rw [skipped, store_iterate s chain]
    simp only
    rw [storeRange_lookup, if_neg]
    rintro ⟨same, low, high⟩
    exact apart ⟨same, low, by omega⟩

theorem advanced_eq {chainKey : P.Key} (chain : s.recvChainKey = some chainKey) {n : Nat} (ahead : s.recvCounter ≤ n) :
    (s.skipped n).advanceReceiving.2 = { s with
      recvChainKey := some (chainAt P chainKey (n - s.recvCounter + 1))
      recvCounter := n + 1
      skippedKeys := (s.skipped n).skippedKeys } := by
  rw [skipped, store_iterate s chain, advanceReceiving]
  simp only [chainAt_succ, Nat.add_sub_cancel' ahead]

theorem messageKeyFor_cases {header : MessageHeader} {key : P.Key} (found : s.messageKeyFor header = some key) :
    s.skippedKeys.lookup (skippedKeyId header.ratchetPublicKey header.messageNumber) = some key ∨
      s.skippedKeys.lookup (skippedKeyId header.ratchetPublicKey header.messageNumber) = none ∧
        ((s.recvRatchetKey = some header.ratchetPublicKey ∧ ∃ chainKey, s.recvChainKey = some chainKey ∧
            header.messageNumber ≤ s.recvCounter + maxSkip ∧
            key = messageKeyAt P chainKey (header.messageNumber - s.recvCounter)) ∨
          s.recvRatchetKey ≠ some header.ratchetPublicKey ∧
            (s.recvChainKey.isSome = true → header.prevChainLength ≤ s.recvCounter + maxSkip) ∧
            header.messageNumber ≤ maxSkip ∧
            key = messageKeyAt P (kdfRk P s.rootKey
              (P.diffieHellman s.sendRatchetKeyPair header.ratchetPublicKey)).2 header.messageNumber) := by
  rw [messageKeyFor] at found
  cases stored : s.skippedKeys.lookup (skippedKeyId header.ratchetPublicKey header.messageNumber) with
  | some messageKey =>
    rw [stored] at found
    exact .inl found
  | none =>
    rw [stored] at found
    refine .inr ⟨rfl, ?_⟩
    simp only at found
    by_cases need : s.needDhRatchet header = true
    · rw [if_pos need] at found
      split at found
      · cases found
      · rename_i near
        split at found
        · cases found
        · rename_i close
          refine .inr ⟨(needDhRatchet_iff s header).mp need, fun chain => ?_, Nat.not_lt.mp close, ?_⟩
          · exact Nat.not_lt.mp fun far => near ⟨chain, far⟩
          · exact (Option.some.inj found).symm
    · rw [if_neg need] at found
      have current := not_not.mp (mt (needDhRatchet_iff s header).mpr need)
      refine .inl ⟨current, ?_⟩
      split at found
      · cases found
      · rename_i chainKey chain
        split at found
        · cases found
        · rename_i near
          exact ⟨chainKey, chain, Nat.not_lt.mp near, (Option.some.inj found).symm⟩

theorem messageKeyFor_stored {header : MessageHeader} {key : P.Key}
    (stored : s.skippedKeys.lookup (skippedKeyId header.ratchetPublicKey header.messageNumber) = some key) :
    s.messageKeyFor header = some key := by
  rw [messageKeyFor, stored]

theorem messageKeyFor_current {header : MessageHeader} {chainKey : P.Key}
    (unstored : s.skippedKeys.lookup (skippedKeyId header.ratchetPublicKey header.messageNumber) = none)
    (current : s.recvRatchetKey = some header.ratchetPublicKey) (chain : s.recvChainKey = some chainKey)
    (near : header.messageNumber ≤ s.recvCounter + maxSkip) :
    s.messageKeyFor header = some (messageKeyAt P chainKey (header.messageNumber - s.recvCounter)) := by
  have same : ¬ s.needDhRatchet header = true := fun need => (needDhRatchet_iff s header).mp need current
  rw [messageKeyFor, unstored]
  simp only
  rw [if_neg same, chain]
  exact if_neg (Nat.not_lt.mpr near)

theorem messageKeyFor_upcoming {header : MessageHeader}
    (unstored : s.skippedKeys.lookup (skippedKeyId header.ratchetPublicKey header.messageNumber) = none)
    (other : s.recvRatchetKey ≠ some header.ratchetPublicKey)
    (near : s.recvChainKey.isSome = true → header.prevChainLength ≤ s.recvCounter + maxSkip)
    (close : header.messageNumber ≤ maxSkip) :
    s.messageKeyFor header = some (messageKeyAt P (kdfRk P s.rootKey
      (P.diffieHellman s.sendRatchetKeyPair header.ratchetPublicKey)).2 header.messageNumber) := by
  rw [messageKeyFor, unstored]
  simp only
  rw [if_pos ((needDhRatchet_iff s header).mpr other), if_neg, if_neg (Nat.not_lt.mpr close)]
  rintro ⟨chain, far⟩
  exact absurd (near chain) (Nat.not_le.mpr far)

end Lookups

section Senders

/-- What the peer sends in all: its ratchet keys in turn, and how many messages under each. -/
structure Sender where
  ratchetKey : Nat → Block 32
  count : Nat → Nat
  distinct : Function.Injective ratchetKey

namespace Sender

def prevChainLength (p : Sender) : Nat → Nat
  | 0 => 0
  | e + 1 => p.count e

def header (p : Sender) (e n : Nat) : MessageHeader := ⟨p.ratchetKey e, p.prevChainLength e, n⟩

end Sender

variable {p : Sender} {e : Nat} {s : SignalSession P}

/-- The session reads what the peer sends under ratchet key `e`; the keys it stored are of
messages it has passed. -/
structure Follows (s : SignalSession P) (p : Sender) (e : Nat) : Prop where
  reading : s.recvRatchetKey = some (p.ratchetKey e) ∨ s.recvRatchetKey = none ∧ p.count e = 0
  within : s.recvCounter ≤ p.count e
  behind : ∀ d n, skippedKeyId (p.ratchetKey d) n ∈ s.skippedKeys → d < e ∨ d = e ∧ n < s.recvCounter

/-- A message the peer sends and the session has not read. The peer takes a new ratchet key only
after an answer to the one before, so at most one is unknown to the session. -/
def Awaits (s : SignalSession P) (p : Sender) (e d n : Nat) : Prop :=
  n < p.count d ∧ (skippedKeyId (p.ratchetKey d) n ∈ s.skippedKeys ∨ d = e ∧ s.recvCounter ≤ n ∨ d = e + 1)

theorem Awaits.later {d n : Nat} (awaited : Awaits s p e d n) (same : d = e)
    (unstored : skippedKeyId (p.ratchetKey d) n ∉ s.skippedKeys) : s.recvCounter ≤ n := by
  rcases awaited.2 with inside | ⟨-, later⟩ | next
  · exact absurd inside unstored
  · exact later
  · omega

theorem Follows.epoch (follows : Follows s p e) {d : Nat} (reading : s.recvRatchetKey = some (p.ratchetKey d)) :
    d = e := by
  rcases follows.reading with current | ⟨none, -⟩
  · exact p.distinct (Option.some.inj (reading.symm.trans current))
  · rw [none] at reading
    cases reading

theorem Awaits.upcoming {d n : Nat} (awaited : Awaits s p e d n) (follows : Follows s p e)
    (unstored : skippedKeyId (p.ratchetKey d) n ∉ s.skippedKeys)
    (other : s.recvRatchetKey ≠ some (p.ratchetKey d)) : d = e + 1 := by
  rcases awaited.2 with inside | ⟨here, -⟩ | next
  · exact absurd inside unstored
  · rw [here] at other
    rcases follows.reading with current | ⟨-, none⟩
    · exact absurd current other
    · have sent := awaited.1
      rw [here, none] at sent
      exact absurd sent (Nat.not_lt_zero n)
  · exact next

theorem messageKeyFor_erase (stored : Finmap (fun _ : String => P.Key)) (id : String) {header : MessageHeader}
    (apart : skippedKeyId header.ratchetPublicKey header.messageNumber ≠ id) (same : s.skippedKeys = stored) :
    ({ s with skippedKeys := stored.erase id } : SignalSession P).messageKeyFor header = s.messageKeyFor header := by
  unfold messageKeyFor
  simp only [Finmap.lookup_erase_ne apart, same]
  rfl

theorem not_mem_of_lookup {id : String} (unstored : s.skippedKeys.lookup id = none) : id ∉ s.skippedKeys := by
  rwa [← Finmap.lookup_eq_none]

theorem advanced_keeps {chainKey : P.Key} (chain : s.recvChainKey = some chainKey)
    (current : s.recvRatchetKey = some (p.ratchetKey e))
    (behind : ∀ d n, skippedKeyId (p.ratchetKey d) n ∈ s.skippedKeys → d < e ∨ d = e ∧ n < s.recvCounter)
    {n : Nat} (ahead : s.recvCounter ≤ n) {d' n' : Nat} (apart : (d', n') ≠ (e, n))
    (later : d' = e → skippedKeyId (p.ratchetKey d') n' ∉ s.skippedKeys → s.recvCounter ≤ n') {key : P.Key}
    (found : s.messageKeyFor (p.header d' n') = some key) :
    (s.skipped n).advanceReceiving.2.messageKeyFor (p.header d' n') = some key := by
  have slot : s.recvSlot = p.ratchetKey e := by
    rw [recvSlot, current]
    rfl
  have after := advanced_eq chain ahead
  generalize (s.skipped n).advanceReceiving.2 = u at after ⊢
  have keys : u.skippedKeys = (s.skipped n).skippedKeys := by rw [after]
  have peer : u.recvRatchetKey = s.recvRatchetKey := by rw [after]
  have counter : u.recvCounter = n + 1 := by rw [after]
  have outside : ¬ (p.ratchetKey d' = s.recvSlot ∧ s.recvCounter ≤ n' ∧ n' < n) →
      u.skippedKeys.lookup (skippedKeyId (p.ratchetKey d') n') =
        s.skippedKeys.lookup (skippedKeyId (p.ratchetKey d') n') := by
    intro out
    rw [keys]
    exact skipped_lookup_outside out
  rcases messageKeyFor_cases found with stored | ⟨unstored, ⟨reading, chainKey', chain', near, rfl⟩
      | ⟨other, back, near, rfl⟩⟩
  · have passed := behind d' n' (Finmap.mem_of_lookup_eq_some stored)
    refine messageKeyFor_stored ((outside ?_).trans stored)
    rintro ⟨same, low, -⟩
    have : d' = e := p.distinct (same.trans slot)
    omega
  · have same : d' = e := p.distinct (Option.some.inj (reading.symm.trans current))
    have later := later same (not_mem_of_lookup unstored)
    rw [same] at reading unstored outside apart near ⊢
    rw [chain] at chain'
    cases chain'
    by_cases before : n' < n
    · refine messageKeyFor_stored ?_
      rw [keys]
      have stored := skipped_lookup_inside chain later before
      rwa [slot] at stored
    · have past : n < n' := Nat.lt_of_le_of_ne (Nat.not_lt.mp before) fun same => apart (by rw [same])
      have gone := (outside fun inside => before inside.2.2).trans unstored
      have close : n' ≤ u.recvCounter + maxSkip := by
        have near : n' ≤ s.recvCounter + maxSkip := near
        rw [counter]
        omega
      have rest : u.recvChainKey = some (chainAt P chainKey (n - s.recvCounter + 1)) := by rw [after]
      have shift : n - s.recvCounter + 1 + (n' - (n + 1)) = n' - s.recvCounter := by omega
      have here : u.messageKeyFor (p.header e n') =
          some (messageKeyAt P (chainAt P chainKey (n - s.recvCounter + 1)) (n' - u.recvCounter)) :=
        messageKeyFor_current gone (peer.trans reading) rest close
      rw [here, counter, messageKeyAt, chainAt_add, shift]
      rfl
  · have elsewhere : p.ratchetKey d' ≠ s.recvSlot := by
      intro same
      exact other (current.trans (congrArg some (same.trans slot).symm))
    have gone := (outside fun inside => elsewhere inside.1).trans unstored
    have root : u.rootKey = s.rootKey := by rw [after]
    have own : u.sendRatchetKeyPair = s.sendRatchetKeyPair := by rw [after]
    have started : s.recvChainKey.isSome = true := by
      rw [chain]
      rfl
    have close : (p.header d' n').prevChainLength ≤ u.recvCounter + maxSkip := by
      have back := back started
      rw [counter]
      omega
    have here : u.messageKeyFor (p.header d' n') = some (messageKeyAt P (kdfRk P u.rootKey
        (P.diffieHellman u.sendRatchetKeyPair (p.ratchetKey d'))).2 n') :=
      messageKeyFor_upcoming gone (peer ▸ other) (fun _ => close) near
    rw [here, root, own]
    rfl

/-- The state between the two halves of a DH step: the old chain is put away, the new one begins. -/
def turnedTo (s : SignalSession P) (fresh : P.Secret) (header : MessageHeader) : SignalSession P :=
  (s.skipped header.prevChainLength).dhRatchetStep fresh header.ratchetPublicKey

theorem turnedTo_recvChainKey (s : SignalSession P) (fresh : P.Secret) (header : MessageHeader) :
    (s.turnedTo fresh header).recvChainKey =
      some (kdfRk P s.rootKey (P.diffieHellman s.sendRatchetKeyPair header.ratchetPublicKey)).2 := by
  rw [turnedTo, dhRatchetStep, skipped_rootKey, skipped_sendRatchetKeyPair]

theorem mem_of_skipped {target n : Nat} {peer : Block 32}
    (stored : skippedKeyId peer n ∈ (s.skipped target).skippedKeys) :
    skippedKeyId peer n ∈ s.skippedKeys ∨ peer = s.recvSlot ∧ s.recvCounter ≤ n ∧ n < target := by
  by_contra neither
  rw [not_or] at neither
  refine not_mem_of_lookup ?_ stored
  rw [skipped_lookup_outside neither.2]
  exact Finmap.lookup_eq_none.mpr neither.1

theorem Follows.chain (follows : Follows s p e) {d n : Nat}
    (inside : p.ratchetKey d = s.recvSlot ∧ s.recvCounter ≤ n ∧ n < p.count e) : d = e := by
  obtain ⟨same, low, high⟩ := inside
  rcases follows.reading with current | ⟨-, none⟩
  · rw [recvSlot, current] at same
    exact p.distinct same
  · omega

theorem turnedTo_behind (follows : Follows s p e) (fresh : P.Secret) {n : Nat} {d m : Nat}
    (stored : skippedKeyId (p.ratchetKey d) m ∈ (s.turnedTo fresh (p.header (e + 1) n)).skippedKeys) : d < e + 1 := by
  rcases mem_of_skipped stored with before | inside
  · have := follows.behind d m before
    omega
  · have := follows.chain inside
    omega

theorem turnedTo_keeps (follows : Follows s p e) (fresh : P.Secret) {n d' n' : Nat}
    (awaited : Awaits s p e d' n') {key : P.Key} (found : s.messageKeyFor (p.header d' n') = some key) :
    (s.turnedTo fresh (p.header (e + 1) n)).messageKeyFor (p.header d' n') = some key := by
  have chain' := s.turnedTo_recvChainKey fresh (p.header (e + 1) n)
  have keys : (s.turnedTo fresh (p.header (e + 1) n)).skippedKeys = (s.skipped (p.count e)).skippedKeys := rfl
  have peer : (s.turnedTo fresh (p.header (e + 1) n)).recvRatchetKey = some (p.ratchetKey (e + 1)) := rfl
  have counter : (s.turnedTo fresh (p.header (e + 1) n)).recvCounter = 0 := rfl
  generalize s.turnedTo fresh (p.header (e + 1) n) = t at chain' keys peer counter ⊢
  rcases messageKeyFor_cases found with stored | ⟨unstored, ⟨reading, chainKey, chain, near, rfl⟩
      | ⟨other, back, near, rfl⟩⟩
  · have passed := follows.behind d' n' (Finmap.mem_of_lookup_eq_some stored)
    refine messageKeyFor_stored ?_
    rw [keys]
    refine (skipped_lookup_outside fun inside => ?_).trans stored
    have := follows.chain inside
    have low : s.recvCounter ≤ n' := inside.2.1
    omega
  · have slot : s.recvSlot = p.ratchetKey d' := by
      rw [recvSlot, reading]
      rfl
    have same := follows.epoch reading
    have later := awaited.later same (not_mem_of_lookup unstored)
    have sent : n' < p.count e := same ▸ awaited.1
    have stored := skipped_lookup_inside chain later sent
    rw [slot, ← keys] at stored
    exact messageKeyFor_stored stored
  · have same := awaited.upcoming follows (not_mem_of_lookup unstored) other
    rw [same] at unstored near ⊢
    have gone : t.skippedKeys.lookup (skippedKeyId (p.ratchetKey (e + 1)) n') = none := by
      rw [keys]
      refine (skipped_lookup_outside fun inside => ?_).trans unstored
      have := follows.chain inside
      omega
    have close : n' ≤ t.recvCounter + maxSkip := by
      rw [counter, Nat.zero_add]
      exact near
    have here : t.messageKeyFor (p.header (e + 1) n') = some (messageKeyAt P
        (kdfRk P s.rootKey (P.diffieHellman s.sendRatchetKeyPair (p.ratchetKey (e + 1)))).2 (n' - t.recvCounter)) :=
      messageKeyFor_current gone peer chain' close
    rw [here, counter]
    rfl

theorem taking_keeps (follows : Follows s p e) (fresh : P.Secret) {d n d' n' : Nat} (apart : (d', n') ≠ (d, n))
    {taken key : P.Key} (awaited : Awaits s p e d n) (other : Awaits s p e d' n')
    (took : s.messageKeyFor (p.header d n) = some taken) (found : s.messageKeyFor (p.header d' n') = some key) :
    (s.taking fresh (p.header d n)).messageKeyFor (p.header d' n') = some key := by
  have slots : skippedKeyId (p.ratchetKey d') n' ≠ skippedKeyId (p.ratchetKey d) n := by
    intro same
    obtain ⟨peers, rfl⟩ := skippedKeyId_injective same
    exact apart (by rw [p.distinct peers])
  rw [taking]
  rcases messageKeyFor_cases took with stored | ⟨unstored, ⟨reading, chainKey, chain, near, -⟩ | ⟨turns, back, near, -⟩⟩
  · rw [stored]
    have kept : ({ s with skippedKeys := s.skippedKeys.erase (skippedKeyId (p.ratchetKey d) n) } :
        SignalSession P).messageKeyFor (p.header d' n') = s.messageKeyFor (p.header d' n') :=
      messageKeyFor_erase s.skippedKeys _ slots rfl
    exact kept.trans found
  · have same := follows.epoch reading
    have stays : ¬ s.needDhRatchet (p.header d n) = true := fun need => (needDhRatchet_iff s _).mp need reading
    have ahead := awaited.later same (not_mem_of_lookup unstored)
    rw [unstored]
    simp only
    rw [if_neg stays]
    rw [same] at reading apart
    exact advanced_keeps chain reading follows.behind ahead apart other.later found
  · have same := awaited.upcoming follows (not_mem_of_lookup unstored) turns
    rw [unstored]
    simp only
    rw [if_pos ((needDhRatchet_iff s _).mpr turns)]
    rw [same] at apart ⊢
    have kept := turnedTo_keeps follows fresh (n := n) other found
    exact advanced_keeps (s.turnedTo_recvChainKey fresh (p.header (e + 1) n)) rfl
      (fun d m stored => .inl (turnedTo_behind follows fresh stored)) (Nat.zero_le n) apart
      (fun _ _ => Nat.zero_le n') kept

theorem taking_established (s : SignalSession P) (fresh : P.Secret) {header : MessageHeader} {key : P.Key}
    (took : s.messageKeyFor header = some key) : (s.taking fresh header).established = s.established := by
  have kept := s.takeMessageKey_established fresh header
  rwa [takeMessageKey_some fresh took] at kept

def Carries (wire : Bytes) (header : MessageHeader) : Prop := ∃ ciphertext, unframe wire = .ok (header, ciphertext)

theorem decrypt_keeps (follows : Follows s p e) (fresh : P.Secret) {d n d' n' : Nat} (apart : (d', n') ≠ (d, n))
    (awaited : Awaits s p e d n) (other : Awaits s p e d' n') {read wire plaintext bytes : Bytes}
    (here : Carries read (p.header d n)) (there : Carries wire (p.header d' n')) (reads : s.Opens read plaintext)
    (opens : s.Opens wire bytes) : (s.decrypt fresh read).2.Opens wire bytes := by
  obtain ⟨established, header, ciphertext, taken, framed, took, opened⟩ := reads
  obtain ⟨-, header', ciphertext', key, framed', found, opened'⟩ := opens
  obtain ⟨_, parts⟩ := here
  obtain ⟨_, parts'⟩ := there
  rw [framed] at parts
  rw [framed'] at parts'
  cases parts
  cases parts'
  rw [decrypt_opens fresh established framed took opened]
  refine ⟨(s.taking_established fresh took).trans established, _, ciphertext', key, framed', ?_, opened'⟩
  exact taking_keeps follows fresh apart awaited other took found

end Senders

end Echo.Client.SignalSession
