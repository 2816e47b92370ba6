import Echo.Client.SignalSession
import Echo.Signal.Persistence

/-! The client's ratchet beside the one of the Rust core. Both take the same steps in the
same order; they part only where the core counts its stored keys and where its counters wrap. -/
namespace Echo.Client
open Echo.Lib Echo.Signal
variable {P : Primitives}

structure Agrees (r : RatchetState P) (d : SignalSession P) : Prop where
  root : r.rootKey = d.rootKey
  sending : r.sendingChainKey = d.sendChainKey
  receiving : r.receivingChainKey = d.recvChainKey
  ownPrivate : r.sendingRatchetPrivate = d.sendRatchetKeyPair
  ownPublic : r.sendingRatchetPublic = d.sendRatchetPublic
  peer : r.receivingRatchetKey = d.recvRatchetKey
  sent : r.sendCounter.toNat = d.sendCounter
  received : r.recvCounter.toNat = d.recvCounter
  prev : r.prevSendCounter.toNat = d.prevSendCounter
  stored : ∀ peer (n : UInt32),
    d.skippedKeys.lookup (skippedKeyId peer n.toNat) = r.skippedKeys.lookup (peer, n)
  named : ∀ id, id ∈ d.skippedKeys → ∃ peer, ∃ n : UInt32, id = skippedKeyId peer n.toNat

def MessageHeader.ofCore (h : Signal.MessageHeader) : MessageHeader :=
  ⟨h.ratchetPublicKey, h.prevChainLength.toNat, h.messageNumber.toNat⟩

theorem MessageHeader.serialize_ofCore (h : Signal.MessageHeader) :
    (MessageHeader.ofCore h).serialize = h.serialize := rfl

theorem decryptWithAd_agrees (key : P.Key) (ciphertext ad : Bytes) :
    (Signal.decryptWithAd P key ciphertext ad).toOption = (decryptWithAd P key ciphertext ad).toOption := by
  unfold Signal.decryptWithAd decryptWithAd
  split
  · rfl
  · simp only
    split
    · rename_i found
      simp only [found, Except.toOption]
    · rename_i plaintext found
      simp only [found, Except.toOption]

theorem leValue_toNat {bs : Bytes} (short : bs.length ≤ 4) : (u32OfBytes bs).toNat = leValue bs := by
  have bound := leValue_bound bs
  have grow : 256 ^ bs.length ≤ 256 ^ 4 := Nat.pow_le_pow_right (by decide) short
  rw [u32OfBytes, UInt32.toNat_ofNat', Nat.mod_eq_of_lt]
  exact Nat.lt_of_lt_of_le bound grow

theorem deserialize_ofCore (data : Bytes) :
    (MessageHeader.deserialize data).toOption =
      (Signal.MessageHeader.deserialize data).toOption.map MessageHeader.ofCore := by
  unfold MessageHeader.deserialize Signal.MessageHeader.deserialize
  split
  · rfl
  · have prev : (u32OfBytes ((data.drop 32).take 4)).toNat = leValue ((data.drop 32).take 4) :=
      leValue_toNat (List.length_take_le 4 _)
    have number : (u32OfBytes ((data.drop 36).take 4)).toNat = leValue ((data.drop 36).take 4) :=
      leValue_toNat (List.length_take_le 4 _)
    simp only [Except.toOption, Option.map_some, MessageHeader.ofCore, prev, number]

theorem unframe_ofCore (data : Bytes) :
    (SignalSession.unframe data).toOption =
      (Session.unframe data).toOption.map fun parts => (MessageHeader.ofCore parts.1, parts.2) := by
  have len : (u32OfBytes (data.take 4)).toNat = leValue (data.take 4) :=
    leValue_toNat (List.length_take_le 4 _)
  unfold SignalSession.unframe Session.unframe
  split
  · rfl
  · simp only [len]
    split
    · rfl
    · have header := deserialize_ofCore ((data.drop 4).take (leValue (data.take 4)))
      cases dart : MessageHeader.deserialize ((data.drop 4).take (leValue (data.take 4))) with
      | error e =>
        cases core : Signal.MessageHeader.deserialize ((data.drop 4).take (leValue (data.take 4))) with
        | error f => rfl
        | ok h =>
          rw [dart, core] at header
          cases header
      | ok g =>
        cases core : Signal.MessageHeader.deserialize ((data.drop 4).take (leValue (data.take 4))) with
        | error f =>
          rw [dart, core] at header
          cases header
        | ok h =>
          rw [dart, core] at header
          cases Option.some.inj header
          rfl

theorem frame_eq (header : Signal.MessageHeader) (ciphertext : Bytes) :
    Session.frame header ciphertext =
      leBytes 4 header.serialize.length ++ (header.serialize ++ ciphertext) := by
  rw [Session.frame, header.serialize_length]
  rfl

namespace Agrees
variable {r : RatchetState P} {d : SignalSession P}

theorem slot (h : Agrees r d) : r.receivingSlot = d.recvSlot := by
  rw [RatchetState.receivingSlot, SignalSession.recvSlot, h.peer]

theorem need (h : Agrees r d) (header : Signal.MessageHeader) :
    r.needDhRatchet header = d.needDhRatchet (.ofCore header) := by
  rw [RatchetState.needDhRatchet, SignalSession.needDhRatchet, h.peer]
  cases d.recvRatchetKey with
  | none => rfl
  | some current =>
    have same : (current == header.ratchetPublicKey) = (current.toList == header.ratchetPublicKey.toList) := by
      rw [Bool.eq_iff_iff, beq_iff_eq, beq_iff_eq]
      exact Subtype.ext_iff
    simp only [bne, same, MessageHeader.ofCore]

theorem insert (h : Agrees r d) (peer : Block 32) (n : UInt32) (key : P.Key) :
    (∀ peer' (m : UInt32), (d.skippedKeys.insert (skippedKeyId peer n.toNat) key).lookup
      (skippedKeyId peer' m.toNat) = (r.skippedKeys.insert (peer, n) key).lookup (peer', m)) ∧
    ∀ id, id ∈ d.skippedKeys.insert (skippedKeyId peer n.toNat) key →
      ∃ peer', ∃ m : UInt32, id = skippedKeyId peer' m.toNat := by
  constructor
  · intro peer' m
    by_cases here : (peer', m) = (peer, n)
    · obtain ⟨rfl, rfl⟩ := Prod.mk.inj here
      rw [Finmap.lookup_insert, Finmap.lookup_insert]
    · have apart : skippedKeyId peer' m.toNat ≠ skippedKeyId peer n.toNat := by
        intro same
        obtain ⟨hp, hn⟩ := skippedKeyId_injective same
        exact here (Prod.ext hp (UInt32.toNat_inj.mp hn))
      rw [Finmap.lookup_insert_of_ne _ apart, Finmap.lookup_insert_of_ne _ here, h.stored]
  · intro id inside
    rcases Finmap.mem_insert.mp inside with rfl | old
    · exact ⟨peer, n, rfl⟩
    · exact h.named id old

theorem erase (h : Agrees r d) (peer : Block 32) (n : UInt32) :
    Agrees { r with skippedKeys := r.skippedKeys.erase (peer, n) }
      { d with skippedKeys := d.skippedKeys.erase (skippedKeyId peer n.toNat) } := by
  refine { h with stored := ?_, named := ?_ }
  · intro peer' m
    by_cases here : (peer', m) = (peer, n)
    · obtain ⟨rfl, rfl⟩ := Prod.mk.inj here
      rw [Finmap.lookup_erase, Finmap.lookup_erase]
    · have apart : skippedKeyId peer' m.toNat ≠ skippedKeyId peer n.toNat := by
        intro same
        obtain ⟨hp, hn⟩ := skippedKeyId_injective same
        exact here (Prod.ext hp (UInt32.toNat_inj.mp hn))
      rw [Finmap.lookup_erase_ne apart, Finmap.lookup_erase_ne here, h.stored]
  · intro id inside
    exact h.named id (Finmap.mem_erase.mp inside).2

theorem store (h : Agrees r d) (below : r.recvCounter.toNat + 1 < 2 ^ 32) :
    Agrees r.storeSkippedKey d.storeSkippedKey := by
  unfold RatchetState.storeSkippedKey SignalSession.storeSkippedKey
  cases chain : r.receivingChainKey with
  | none =>
    rw [← h.receiving, chain]
    exact h
  | some chainKey =>
    obtain ⟨stored, named⟩ := h.insert r.receivingSlot r.recvCounter (kdfCk P chainKey).2
    rw [h.slot, h.received] at stored named
    rw [← h.receiving, chain]
    refine { h with receiving := rfl, received := ?_, stored := ?_, named := named }
    · rw [UInt32.toNat_add, UInt32.toNat_one, Nat.mod_eq_of_lt below, h.received]
    · rw [h.slot]
      exact stored

theorem iterate (h : Agrees r d) (k : Nat) (chain : r.receivingChainKey.isSome = true)
    (below : r.recvCounter.toNat + k < 2 ^ 32) :
    Agrees (RatchetState.storeSkippedKey^[k] r) (SignalSession.storeSkippedKey^[k] d) := by
  induction k with
  | zero => exact h
  | succ k ih =>
    have before := ih (by omega)
    have counter := RatchetState.recvCounter_iterate r k chain (by omega)
    rw [Function.iterate_succ_apply', Function.iterate_succ_apply']
    exact before.store (by rw [counter]; omega)

end Agrees

theorem SignalSession.skipLoop_eq (target fuel : Nat) (d : SignalSession P)
    (chain : d.recvChainKey.isSome = true) (reach : d.recvCounter + fuel = target) :
    skipLoop target fuel d = storeSkippedKey^[fuel] d := by
  induction fuel generalizing d with
  | zero => rfl
  | succ fuel ih =>
    obtain ⟨chainKey, found⟩ := Option.isSome_iff_exists.mp chain
    have still : d.storeSkippedKey.recvChainKey.isSome = true := by
      rw [storeSkippedKey, found]
      rfl
    have next : d.storeSkippedKey.recvCounter = d.recvCounter + 1 := by
      rw [storeSkippedKey, found]
    rw [skipLoop, if_pos (by omega)]
    exact ih d.storeSkippedKey still (by omega)

/-- The skip from `first` to `target` never meets a full map, or is refused as too far. -/
def SkipSpared (keys : Finset (Block 32 × UInt32)) (slot : Block 32) (first target : UInt32) : Prop :=
  first.toNat + Signal.maxSkip.toNat < target.toNat ∨
  ∀ j, j < target.toNat - first.toNat →
    (RatchetState.skipSlots keys slot first j).card < maxSkippedKeys

/-- No skip of this `decrypt` reaches `MAX_SKIPPED_KEYS`, and `recv_counter` stays below `2 ^ 32`. -/
def DecryptSpared (r : RatchetState P) (header : Signal.MessageHeader) : Prop :=
  r.skippedKeys.lookup (header.ratchetPublicKey, header.messageNumber) = none →
    if r.needDhRatchet header then
      if r.receivingChainKey.isSome then
        r.TooFar header.prevChainLength ∨
          (SkipSpared r.skippedKeys.keys r.receivingSlot r.recvCounter header.prevChainLength ∧
            SkipSpared (RatchetState.skipSlots r.skippedKeys.keys r.receivingSlot r.recvCounter
                (header.prevChainLength.toNat - r.recvCounter.toNat))
              header.ratchetPublicKey 0 header.messageNumber)
      else SkipSpared r.skippedKeys.keys header.ratchetPublicKey 0 header.messageNumber
    else r.receivingChainKey.isSome = true → r.TooFar header.messageNumber ∨
      (SkipSpared r.skippedKeys.keys r.receivingSlot r.recvCounter header.messageNumber ∧
        max r.recvCounter.toNat header.messageNumber.toNat + 1 < 2 ^ 32)

namespace Agrees
variable {r : RatchetState P} {d : SignalSession P}

theorem skip (h : Agrees r d) (target : UInt32)
    (spared : r.receivingChainKey.isSome = true →
      SkipSpared r.skippedKeys.keys r.receivingSlot r.recvCounter target) :
    Outcome.Matches Agrees (r.skipMessageKeys target) (d.skipMessageKeys target.toNat) := by
  have top : target.toNat < 2 ^ 32 := target.toNat_lt
  have limit : Signal.maxSkip.toNat = maxSkip := rfl
  unfold SignalSession.skipMessageKeys
  rw [← h.received, ← h.receiving, ← limit]
  rcases RatchetState.skipMessageKeys_cases r target with
    ⟨far, e, eq⟩ | ⟨near, idle, eq⟩ | ⟨near, chain, ahead, ⟨_, eq⟩ | ⟨e, k, early, _, full, _⟩⟩
  · unfold RatchetState.TooFar at far
    rw [eq, if_pos far]
    exact Outcome.matches_error _ _ h
  · unfold RatchetState.TooFar at near
    rw [eq, if_neg near]
    cases chain : r.receivingChainKey with
    | none => exact Outcome.matches_ok () h
    | some chainKey =>
      rcases idle with none | behind
      · rw [none] at chain
        cases chain
      · have stop : target.toNat - r.recvCounter.toNat = 0 := by omega
        rw [stop]
        exact Outcome.matches_ok () h
  · obtain ⟨chainKey, found⟩ := Option.isSome_iff_exists.mp chain
    have both := h.iterate (target.toNat - r.recvCounter.toNat) chain (by omega)
    have loop := SignalSession.skipLoop_eq target.toNat (target.toNat - r.recvCounter.toNat) d
      (by rw [← h.receiving]; exact chain) (by rw [← h.received]; omega)
    unfold RatchetState.TooFar at near
    rw [eq, if_neg near, found, loop]
    exact Outcome.matches_ok () both
  · -- the map would be full, which the condition rules out
    rw [RatchetState.skippedLen_iterate r k chain] at full
    rcases spared chain with far | room
    · exact absurd far near
    · exact absurd (room k early) (Nat.not_lt_of_le full)

theorem dhStep (h : Agrees r d) (fresh : P.Secret) (peer : Block 32) :
    Agrees (r.dhRatchetStep fresh peer) (d.dhRatchetStep fresh peer) := by
  unfold RatchetState.dhRatchetStep SignalSession.dhRatchetStep
  rw [← h.ownPrivate, ← h.root]
  exact ⟨rfl, rfl, rfl, rfl, rfl, rfl, rfl, rfl, h.sent, h.stored, h.named⟩

theorem advance (h : Agrees r d)
    (below : r.receivingChainKey.isSome = true → r.recvCounter.toNat + 1 < 2 ^ 32) :
    Outcome.Matches Agrees r.advanceReceiving d.advanceReceiving := by
  unfold RatchetState.advanceReceiving SignalSession.advanceReceiving
  rw [← h.receiving]
  cases chain : r.receivingChainKey with
  | none => exact Outcome.matches_error _ _ h
  | some chainKey =>
    refine Outcome.matches_ok _ { h with receiving := rfl, received := ?_ }
    rw [UInt32.toNat_add, UInt32.toNat_one, Nat.mod_eq_of_lt (below (by rw [chain]; rfl)), h.received]

theorem readChain (h : Agrees r d) (n : UInt32)
    (spared : r.receivingChainKey.isSome = true → r.TooFar n ∨
      (SkipSpared r.skippedKeys.keys r.receivingSlot r.recvCounter n ∧
        max r.recvCounter.toNat n.toNat + 1 < 2 ^ 32)) :
    Outcome.Matches Agrees
      (Outcome.andThen (r.skipMessageKeys n) fun _ s => s.advanceReceiving)
      (Outcome.andThen (d.skipMessageKeys n.toNat) fun _ s => s.advanceReceiving) := by
  have first : r.receivingChainKey.isSome = true →
      SkipSpared r.skippedKeys.keys r.receivingSlot r.recvCounter n := by
    intro chain
    rcases spared chain with far | ⟨room, _⟩
    · exact .inl far
    · exact room
  refine (h.skip n first).andThen ?_
  intro _ s t skipped _ agrees
  refine agrees.advance ?_
  intro chain
  rcases RatchetState.skipMessageKeys_cases r n with
    ⟨_, e, eq⟩ | ⟨near, _, eq⟩ | ⟨near, started, ahead, ⟨_, eq⟩ | ⟨e, k, _, _, _, eq⟩⟩
  · rw [eq] at skipped
    cases skipped
  · rw [eq] at skipped
    cases skipped
    rcases spared chain with far | ⟨_, below⟩
    · exact absurd far near
    · omega
  · rw [eq] at skipped
    cases skipped
    rw [RatchetState.recvCounter_iterate r _ started (by have := n.toNat_lt; omega)]
    rcases spared started with far | ⟨_, below⟩
    · exact absurd far near
    · omega
  · rw [eq] at skipped
    cases skipped

theorem turn (h : Agrees r d) (fresh : P.Secret) (header : Signal.MessageHeader)
    (unstored : r.skippedKeys.lookup (header.ratchetPublicKey, header.messageNumber) = none)
    (spared : DecryptSpared r header) :
    Outcome.Matches Agrees (r.turnRatchet fresh header) (d.turnRatchet fresh (.ofCore header)) ∧
    ∀ s, r.turnRatchet fresh header = (.ok (), s) → s.receivingChainKey.isSome = true →
      s.TooFar header.messageNumber ∨
        (SkipSpared s.skippedKeys.keys s.receivingSlot s.recvCounter header.messageNumber ∧
          max s.recvCounter.toNat header.messageNumber.toNat + 1 < 2 ^ 32) := by
  have here := spared unstored
  have limit : Signal.maxSkip.toNat = 1000 := rfl
  -- the chain that starts at 0 after a DH step
  have started : ∀ s : RatchetState P, SkipSpared s.skippedKeys.keys header.ratchetPublicKey 0 header.messageNumber →
      (s.dhRatchetStep fresh header.ratchetPublicKey).TooFar header.messageNumber ∨
        (SkipSpared (s.dhRatchetStep fresh header.ratchetPublicKey).skippedKeys.keys
            (s.dhRatchetStep fresh header.ratchetPublicKey).receivingSlot
            (s.dhRatchetStep fresh header.ratchetPublicKey).recvCounter header.messageNumber ∧
          max (s.dhRatchetStep fresh header.ratchetPublicKey).recvCounter.toNat
            header.messageNumber.toNat + 1 < 2 ^ 32) := by
    intro s room
    have zero : (s.dhRatchetStep fresh header.ratchetPublicKey).recvCounter.toNat = 0 := rfl
    by_cases far : (s.dhRatchetStep fresh header.ratchetPublicKey).TooFar header.messageNumber
    · exact .inl far
    · unfold RatchetState.TooFar at far
      exact .inr ⟨room, by omega⟩
  unfold RatchetState.turnRatchet SignalSession.turnRatchet
  rw [← h.need]
  cases need : r.needDhRatchet header with
  | false =>
    rw [need] at here
    simp only [Bool.false_eq_true, if_false] at here ⊢
    refine ⟨Outcome.matches_ok () h, ?_⟩
    intro s same
    cases same
    exact here
  | true =>
    rw [need] at here
    simp only [if_true] at here ⊢
    have chainSame : d.recvChainKey.isSome = r.receivingChainKey.isSome := by rw [h.receiving]
    rw [chainSame]
    cases chain : r.receivingChainKey.isSome with
    | false =>
      rw [chain] at here
      simp only [Bool.false_eq_true, if_false] at here ⊢
      refine ⟨Outcome.matches_ok () (h.dhStep fresh _), ?_⟩
      intro s same _
      cases same
      exact started r here
    | true =>
      rw [chain] at here
      simp only [if_true] at here ⊢
      have first : SkipSpared r.skippedKeys.keys r.receivingSlot r.recvCounter header.prevChainLength := by
        rcases here with far | ⟨room, _⟩
        · exact .inl far
        · exact room
      constructor
      · refine (h.skip header.prevChainLength (fun _ => first)).andThen ?_
        intro _ s t _ _ agrees
        exact Outcome.matches_ok () (agrees.dhStep fresh _)
      · intro s done _
        obtain ⟨_, t, skipped, stepped⟩ := Outcome.andThen_eq_ok done
        cases stepped
        rcases here with far | ⟨_, second⟩
        · rcases RatchetState.skipMessageKeys_cases r header.prevChainLength with
            ⟨_, e, eq⟩ | ⟨near, _⟩ | ⟨near, _⟩
          · rw [eq] at skipped
            cases skipped
          · exact absurd far near
          · exact absurd far near
        · rw [← RatchetState.skipMessageKeys_keys chain skipped] at second
          exact started t second

theorem takeMessageKey (h : Agrees r d) (fresh : P.Secret) (header : Signal.MessageHeader)
    (spared : DecryptSpared r header) :
    Outcome.Matches Agrees (r.takeMessageKey fresh header) (d.takeMessageKey fresh (.ofCore header)) := by
  have same := h.stored header.ratchetPublicKey header.messageNumber
  unfold SignalSession.takeMessageKey
  cases stored : r.skippedKeys.lookup (header.ratchetPublicKey, header.messageNumber) with
  | some messageKey =>
    rw [stored] at same
    rw [RatchetState.takeMessageKey_stored stored]
    simp only [MessageHeader.ofCore, same]
    exact Outcome.matches_ok messageKey (h.erase header.ratchetPublicKey header.messageNumber)
  | none =>
    rw [stored] at same
    obtain ⟨turned, next⟩ := h.turn fresh header stored spared
    rw [RatchetState.takeMessageKey_unstored stored]
    simp only [MessageHeader.ofCore, same]
    refine turned.andThen ?_
    intro _ s t done _ agrees
    exact agrees.readChain header.messageNumber (next s done)

end Agrees

structure SessionAgrees (s : Session P) (d : SignalSession P) : Prop where
  ratchet : Agrees s.ratchet d
  established : s.established = d.established

namespace SessionAgrees
variable {s : Session P} {d : SignalSession P}

theorem decrypt (h : SessionAgrees s d) (fresh : P.Secret) (data : Bytes)
    (spared : ∀ header ciphertext, Session.unframe data = .ok (header, ciphertext) →
      DecryptSpared s.ratchet header) :
    Outcome.Matches SessionAgrees (s.decryptMessage fresh data) (d.decrypt fresh data) := by
  have parts := unframe_ofCore data
  unfold Session.decryptMessage SignalSession.decrypt
  rw [← h.established]
  split
  · cases core : Session.unframe data with
    | error e =>
      cases dart : SignalSession.unframe data with
      | error f => exact Outcome.matches_error e f h
      | ok other =>
        rw [core, dart] at parts
        cases parts
    | ok found =>
      cases dart : SignalSession.unframe data with
      | error f =>
        rw [core, dart] at parts
        cases parts
      | ok other =>
        rw [core, dart] at parts
        cases Option.some.inj parts
        obtain ⟨header, ciphertext⟩ := found
        have taken := h.ratchet.takeMessageKey fresh header (spared header ciphertext core)
        have opened : Outcome.Matches Agrees (s.ratchet.decrypt fresh header ciphertext)
            (Outcome.andThen (d.takeMessageKey fresh (.ofCore header)) fun messageKey t =>
              (decryptWithAd P messageKey ciphertext header.serialize, t)) := by
          refine taken.andThen ?_
          intro messageKey t u _ _ agrees
          exact ⟨decryptWithAd_agrees messageKey ciphertext header.serialize, agrees⟩
        have kept : (Outcome.andThen (d.takeMessageKey fresh (.ofCore header)) fun messageKey t =>
            (decryptWithAd P messageKey ciphertext header.serialize, t)).2.established = d.established := by
          refine Outcome.andThen_state _ _ (fun t : SignalSession P => t.established = d.established)
            (SignalSession.takeMessageKey_established d fresh _) ?_
          intro _ t same
          exact same
        exact ⟨opened.1, opened.2, h.established.trans kept.symm⟩
  · exact Outcome.matches_error _ _ h

theorem encrypt (h : SessionAgrees s d) (nonce : Block 12) (plaintext : Bytes)
    (below : s.established = true → s.ratchet.sendCounter.toNat + 1 < 2 ^ 32) :
    Outcome.Matches SessionAgrees (s.encryptMessage nonce plaintext) (d.encrypt nonce plaintext) := by
  unfold Session.encryptMessage SignalSession.encrypt
  by_cases established : s.established = true
  · rw [if_pos established, if_pos (h.established ▸ established)]
    have header : (⟨d.sendRatchetPublic, d.prevSendCounter, d.sendCounter⟩ : MessageHeader) =
        .ofCore ⟨s.ratchet.sendingRatchetPublic, s.ratchet.prevSendCounter, s.ratchet.sendCounter⟩ := by
      rw [MessageHeader.ofCore, h.ratchet.ownPublic, h.ratchet.prev, h.ratchet.sent]
    have counter : (s.ratchet.sendCounter + 1).toNat = d.sendCounter + 1 := by
      rw [UInt32.toNat_add, UInt32.toNat_one, Nat.mod_eq_of_lt (below established), h.ratchet.sent]
    have after : Agrees { s.ratchet with
          sendingChainKey := (kdfCk P s.ratchet.sendingChainKey).1
          sendCounter := s.ratchet.sendCounter + 1 }
        { d with sendChainKey := (kdfCk P d.sendChainKey).1, sendCounter := d.sendCounter + 1 } :=
      { h.ratchet with sending := by rw [h.ratchet.sending], sent := counter }
    simp only [RatchetState.encrypt, header, MessageHeader.serialize_ofCore, Signal.encryptWithAd,
      encryptWithAd, ← h.ratchet.sending]
    rw [← h.ratchet.sending] at after
    cases sealed : P.aesGcmEncrypt (kdfCk P s.ratchet.sendingChainKey).2 nonce plaintext
        (Signal.MessageHeader.serialize
          ⟨s.ratchet.sendingRatchetPublic, s.ratchet.prevSendCounter, s.ratchet.sendCounter⟩) with
    | none => exact Outcome.matches_error _ _ ⟨after, h.established⟩
    | some body =>
      refine ⟨?_, after, h.established⟩
      exact congrArg some (frame_eq _ _)
  · rw [if_neg established, if_neg (h.established ▸ established)]
    exact Outcome.matches_error _ _ h

end SessionAgrees

/- The same calls on both sides, with the same nonces and fresh key pairs. -/
def SignalSession.apply (d : SignalSession P) : Session.Op P → Outcome Thrown (SignalSession P) Bytes
  | .encryptMessage nonce plaintext => d.encrypt nonce plaintext
  | .decryptMessage fresh data => d.decrypt fresh data

/-- What each call gives back (`none` for any failure) and the two states it leaves. -/
def sideBySide : Session P → SignalSession P → List (Session.Op P) →
    List ((Option Bytes × Session P) × (Option Bytes × SignalSession P))
  | _, _, [] => []
  | s, d, op :: ops =>
    (((s.apply op).1.toOption, (s.apply op).2), ((d.apply op).1.toOption, (d.apply op).2)) ::
      sideBySide (s.apply op).2 (d.apply op).2 ops

/-- The calls keep clear of the cap and of the counters' end, each at the state it meets. -/
def CallSpared (s : Session P) : Session.Op P → Prop
  | .encryptMessage _ _ => s.established = true → s.ratchet.sendCounter.toNat + 1 < 2 ^ 32
  | .decryptMessage _ data => ∀ header ciphertext, Session.unframe data = .ok (header, ciphertext) →
      DecryptSpared s.ratchet header

def RunSpared : Session P → List (Session.Op P) → Prop
  | _, [] => True
  | s, op :: ops => CallSpared s op ∧ RunSpared (s.apply op).2 ops

inductive Initial : Session P → SignalSession P → Prop where
  | alice (peer : String) (fresh : P.Secret) (sharedSecret : P.Key) (bobPublic : Block 32) :
    Initial ⟨peer, .initAlice fresh sharedSecret bobPublic, true⟩
      (.initAlice fresh sharedSecret bobPublic)
  | bob (peer : String) (sharedSecret : P.Key) (bobPrivate : P.Secret) :
    Initial ⟨peer, .initBob sharedSecret bobPrivate, true⟩ (.initBob sharedSecret bobPrivate)

variable {d : SignalSession P} {s : Session .plain} {next len : Nat}

theorem Initial.agrees {s : Session P} (initial : Initial s d) :
    SessionAgrees s d := by
  have empty : ∀ peer (n : UInt32), (∅ : Finmap fun _ : String => P.Key).lookup
      (skippedKeyId peer n.toNat) = (∅ : SkippedKeys P).lookup (peer, n) := by
    intro peer n
    rw [Finmap.lookup_empty, Finmap.lookup_empty]
  have unnamed : ∀ id, id ∈ (∅ : Finmap fun _ : String => P.Key) →
      ∃ peer, ∃ n : UInt32, id = skippedKeyId peer n.toNat :=
    fun id inside => absurd inside Finmap.notMem_empty
  cases initial with
  | alice | bob => exact ⟨⟨rfl, rfl, rfl, rfl, rfl, rfl, rfl, rfl, rfl, empty, unnamed⟩, rfl⟩

theorem SessionAgrees.apply {s : Session P} (h : SessionAgrees s d)
    (op : Session.Op P) (spared : CallSpared s op) :
    Outcome.Matches SessionAgrees (s.apply op) (d.apply op) := by
  cases op with
  | encryptMessage nonce plaintext => exact h.encrypt nonce plaintext spared
  | decryptMessage fresh data => exact h.decrypt fresh data spared

theorem SessionAgrees.run {s : Session P} (h : SessionAgrees s d)
    (ops : List (Session.Op P)) (spared : RunSpared s ops) :
    ∀ step ∈ sideBySide s d ops, step.1.1 = step.2.1 ∧ SessionAgrees step.1.2 step.2.2 := by
  induction ops generalizing s d with
  | nil =>
    intro step none
    cases none
  | cons op ops ih =>
    obtain ⟨same, agrees⟩ := h.apply op spared.1
    intro step inside
    rcases List.mem_cons.mp inside with rfl | later
    · exact ⟨same, agrees⟩
    · exact ih agrees spared.2 step later

/-- From corresponding starts, at every call of a spared run, both sides give the same wire or
plaintext or both refuse, and they are left in corresponding states. -/
theorem dart_matches_core {s : Session P} {d : SignalSession P} (initial : Initial s d)
    (ops : List (Session.Op P)) (spared : RunSpared s ops) :
    ∀ step ∈ sideBySide s d ops, step.1.1 = step.2.1 ∧ SessionAgrees step.1.2 step.2.2 :=
  initial.agrees.run ops spared

/- A responder reads a first message and answers. -/
def replyHeader : Signal.MessageHeader := ⟨Primitives.counting.publicKey 3, 0, 0⟩

def replyRun : List (Session.Op .counting) :=
  [.decryptMessage 9 (Session.frame replyHeader
      (List.replicate 12 0 ++ [104, 105] ++ Primitives.countingTag 17 replyHeader.serialize)),
    .encryptMessage ⟨List.replicate 12 0, zeros12_length⟩ [1]]

def replyCore : Session .counting := ⟨"", .initBob (P := .counting) 7 5, true⟩
def replyDart : SignalSession .counting := .initBob (P := .counting) 7 5

theorem reply_matches :
    Initial replyCore replyDart ∧ RunSpared replyCore replyRun ∧
    (sideBySide replyCore replyDart replyRun).head?.map (fun step => step.1.1) = some (some [104, 105]) ∧
    ∀ step ∈ sideBySide replyCore replyDart replyRun,
      step.1.1 = step.2.1 ∧ SessionAgrees step.1.2 step.2.2 := by
  have initial : Initial replyCore replyDart := .bob (P := .counting) "" 7 5
  have spared : RunSpared replyCore replyRun := by
    refine ⟨?_, fun _ => by decide, trivial⟩
    intro header ciphertext parsed
    rw [Session.unframe_frame] at parsed
    cases parsed
    exact fun _ => .inr fun j early => absurd early (Nat.not_lt_zero j)
  exact ⟨initial, spared, by rfl, dart_matches_core initial replyRun spared⟩

/- Wires of one chain that no other message interrupts. -/
def capWire (n : UInt32) : Bytes := Session.frame ⟨zeroBlock, 0, n⟩ (List.replicate 28 0)

def capCore : Session .plain := ⟨"", .initBob (P := .plain) zeroBlock zeroBlock, true⟩
def capDart : SignalSession .plain := .initBob (P := .plain) zeroBlock zeroBlock

def capRun : List (Session.Op .plain) :=
  [.decryptMessage zeroBlock (capWire 1000), .decryptMessage zeroBlock (capWire 2001),
    .decryptMessage zeroBlock (capWire 2003)]

theorem callSpared_capWire {n : UInt32}
    (spared : DecryptSpared s.ratchet ⟨zeroBlock, 0, n⟩) :
    CallSpared s (.decryptMessage zeroBlock (capWire n)) := by
  intro header ciphertext parsed
  rw [capWire, Session.unframe_frame] at parsed
  cases parsed
  exact spared

theorem skipSlots_card_le (keys : Finset (Block 32 × UInt32)) (slot : Block 32) (first : UInt32) (j : Nat) :
    (RatchetState.skipSlots keys slot first j).card ≤ keys.card + j := by
  have images := Finset.card_image_le (s := Finset.range j) (f := fun i => (slot, first + UInt32.ofNat i))
  rw [Finset.card_range] at images
  exact Nat.le_trans (Finset.card_union_le _ _) (Nat.add_le_add_left images _)

theorem capWire_spared
    (reading : s.ratchet.ReadingAt zeroBlock next len) (n : UInt32)
    (room : len + (n.toNat - next) ≤ maxSkippedKeys) (ahead : next ≤ n.toNat)
    (below : n.toNat + 1 < 2 ^ 32) :
    CallSpared s (.decryptMessage zeroBlock (capWire n)) := by
  refine callSpared_capWire fun _ => ?_
  rw [reading.need, if_neg Bool.false_ne_true]
  intro _
  refine .inr ⟨.inr ?_, by rw [reading.counter, Nat.max_eq_right ahead]; exact below⟩
  intro j early
  change j < n.toNat - s.ratchet.recvCounter.toNat at early
  have bound := skipSlots_card_le s.ratchet.skippedKeys.keys s.ratchet.receivingSlot s.ratchet.recvCounter j
  have size : s.ratchet.skippedKeys.keys.card = len := reading.size
  have counter := reading.counter
  omega

theorem apply_decryptMessage (s : Session P) (fresh : P.Secret) (data : Bytes) :
    s.apply (.decryptMessage fresh data) = s.decryptMessage fresh data := rfl

theorem capWire_first (n : UInt32) (near : n.toNat ≤ Signal.maxSkip.toNat) :
    (capCore.apply (.decryptMessage zeroBlock (capWire n))).2.established = true ∧
    (capCore.apply (.decryptMessage zeroBlock (capWire n))).2.ratchet.ReadingAt zeroBlock
      (n.toNat + 1) n.toNat := by
  obtain ⟨_, t, taken, reading⟩ := RatchetState.initBob_read (P := .plain) zeroBlock zeroBlock zeroBlock
    zeroBlock 0 n near
  have established : capCore.established = true := rfl
  have state := congrArg Prod.snd (Session.decryptMessage_frame established zeroBlock ⟨zeroBlock, 0, n⟩
    (List.replicate 28 0))
  have here : (capCore.ratchet.takeMessageKey zeroBlock ⟨zeroBlock, 0, n⟩).2 = t := congrArg Prod.snd taken
  rw [here] at state
  rw [apply_decryptMessage, capWire, state]
  exact ⟨rfl, reading⟩

theorem capWire_next (established : s.established = true)
    (reading : s.ratchet.ReadingAt zeroBlock next len) (n : UInt32) (ahead : next ≤ n.toNat)
    (near : n.toNat - next ≤ Signal.maxSkip.toNat) (room : len + (n.toNat - next) ≤ maxSkippedKeys)
    (below : n.toNat + 1 < 2 ^ 32) :
    (s.apply (.decryptMessage zeroBlock (capWire n))).2.established = true ∧
    (s.apply (.decryptMessage zeroBlock (capWire n))).2.ratchet.ReadingAt zeroBlock (n.toNat + 1)
      (len + (n.toNat - next)) := by
  obtain ⟨_, t, taken, after⟩ := reading.read zeroBlock 0 n ahead near room below
  have state := congrArg Prod.snd (Session.decryptMessage_frame established zeroBlock ⟨zeroBlock, 0, n⟩
    (List.replicate 28 0))
  rw [taken] at state
  rw [apply_decryptMessage, capWire, state]
  exact ⟨established, after⟩

theorem capWire_parts {d : SignalSession .plain} (h : SessionAgrees s d)
    (established : s.established = true)
    (reading : s.ratchet.ReadingAt zeroBlock next len) (full : maxSkippedKeys ≤ len) (n : UInt32)
    (ahead : next < n.toNat) (near : n.toNat - next ≤ Signal.maxSkip.toNat) :
    (s.apply (.decryptMessage zeroBlock (capWire n))).1.toOption = none ∧
    (d.apply (.decryptMessage zeroBlock (capWire n))).1.toOption = some [] := by
  constructor
  · obtain ⟨e, refused⟩ := reading.full zeroBlock 0 n ahead near full
    change (s.decryptMessage zeroBlock (capWire n)).1.toOption = none
    rw [capWire, Session.decryptMessage_frame established, RatchetState.decrypt, refused]
    rfl
  · have parts := unframe_ofCore (capWire n)
    rw [capWire, Session.unframe_frame] at parts
    have limit : Signal.maxSkip.toNat = maxSkip := rfl
    have counter : d.recvCounter = next := by rw [← h.ratchet.received, reading.counter]
    obtain ⟨key, taken⟩ := SignalSession.takeMessageKey_current d zeroBlock (.ofCore ⟨zeroBlock, 0, n⟩)
      ((h.ratchet.stored zeroBlock n).trans (reading.free n (Nat.le_of_lt ahead)))
      (by rw [← h.ratchet.need, reading.need])
      (by rw [← h.ratchet.receiving]; exact reading.chain)
      (by simp only [MessageHeader.ofCore, counter]; omega)
    change (d.decrypt zeroBlock (capWire n)).1.toOption = some []
    unfold SignalSession.decrypt
    rw [if_pos (h.established ▸ established), capWire]
    cases dart : SignalSession.unframe (Session.frame ⟨zeroBlock, 0, n⟩ (List.replicate 28 0)) with
    | error f =>
      rw [dart] at parts
      cases parts
    | ok other =>
      rw [dart] at parts
      cases Option.some.inj parts
      simp only
      rcases result : d.takeMessageKey zeroBlock (.ofCore ⟨zeroBlock, 0, n⟩) with ⟨reply, t⟩
      rw [result] at taken
      cases taken
      rfl

theorem capWire_later {d : SignalSession .plain} (h : SessionAgrees s d)
    (established : s.established = true) (reading : s.ratchet.ReadingAt zeroBlock 1001 1000) :
    ∃ step ∈ sideBySide s d [.decryptMessage zeroBlock (capWire 2001),
        .decryptMessage zeroBlock (capWire 2003)], step.1.1 = none ∧ step.2.1 = some [] := by
  obtain ⟨still, reading'⟩ :=
    capWire_next established reading 2001 (by decide) (by decide) (by decide) (by decide)
  have spared := capWire_spared reading 2001 (by decide) (by decide) (by decide)
  have after := (h.apply _ spared).state
  have apart := capWire_parts after still reading' (by decide) 2003 (by decide) (by decide)
  exact ⟨_, List.mem_cons_of_mem _ List.mem_cons_self, apart⟩

/-- After messages 1000 and 2001 of a chain both sides hold 2000 keys; message 2003 is refused
by the core and read by the client. -/
theorem cap_only_in_core :
    Initial capCore capDart ∧
    ∃ step ∈ sideBySide capCore capDart capRun, step.1.1 = none ∧ step.2.1 = some [] := by
  have initial : Initial capCore capDart := .bob (P := .plain) "" zeroBlock zeroBlock
  refine ⟨initial, ?_⟩
  obtain ⟨established, reading⟩ := capWire_first 1000 (by decide)
  have spared : CallSpared capCore (.decryptMessage zeroBlock (capWire 1000)) := by
    refine callSpared_capWire fun _ => .inr fun j early => ?_
    have bound := skipSlots_card_le ∅ zeroBlock 0 j
    rw [Finset.card_empty, Nat.zero_add] at bound
    have limit : (1000 : UInt32).toNat - (0 : UInt32).toNat < maxSkippedKeys := by decide
    exact Nat.lt_of_le_of_lt bound (Nat.lt_trans early limit)
  obtain ⟨step, inside, apart⟩ :=
    capWire_later (initial.agrees.apply _ spared).state established reading
  exact ⟨step, List.mem_cons_of_mem _ inside, apart⟩

end Echo.Client
