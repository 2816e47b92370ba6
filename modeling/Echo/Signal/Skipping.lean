import Echo.Signal.Ratchet

/- What one skip can do. Every later argument about `decrypt` goes through
`skipMessageKeys_cases`; the loop itself is unfolded only here. -/
namespace Echo.Signal.RatchetState
open Echo.Lib
variable {P : Primitives}

/-- Keys of messages `first .. first + k - 1` of one chain, stored under one slot. -/
def storeRange (stored : SkippedKeys P) (slot : Block 32) (first : UInt32) (chainKey : P.Key) :
    Nat → SkippedKeys P
  | 0 => stored
  | k + 1 => (storeRange stored slot first chainKey k).insert
      (slot, first + UInt32.ofNat k) (messageKeyAt P chainKey k)

theorem store_iterate (s : RatchetState P) (chainKey : P.Key)
    (chain : s.receivingChainKey = some chainKey) (k : Nat) :
    storeSkippedKey^[k] s = { s with
      receivingChainKey := some (chainAt P chainKey k)
      recvCounter := s.recvCounter + UInt32.ofNat k
      skippedKeys := storeRange s.skippedKeys s.receivingSlot s.recvCounter chainKey k } := by
  induction k with
  | zero =>
    have none : s.recvCounter + UInt32.ofNat 0 = s.recvCounter := UInt32.add_zero _
    simp only [Function.iterate_zero, id_eq, storeRange, none]
    rw [show chainAt P chainKey 0 = chainKey from rfl, ← chain]
  | succ k ih =>
    have next : s.recvCounter + UInt32.ofNat k + 1 = s.recvCounter + UInt32.ofNat (k + 1) := by
      rw [UInt32.add_assoc]
      exact congrArg _ (UInt32.ofNat_add k 1).symm
    rw [Function.iterate_succ_apply', ih]
    simp only [storeSkippedKey, receivingSlot, storeRange, messageKeyAt, chainAt_succ, next]

theorem receivingChainKey_iterate (s : RatchetState P) (k : Nat) :
    (storeSkippedKey^[k] s).receivingChainKey.isSome = s.receivingChainKey.isSome := by
  cases chain : s.receivingChainKey with
  | none =>
    have fixed : s.storeSkippedKey = s := by rw [storeSkippedKey, chain]
    rw [Function.iterate_fixed fixed, chain]
  | some chainKey => rw [store_iterate s chainKey chain]; rfl

theorem receivingRatchetKey_iterate (s : RatchetState P) (k : Nat) :
    (storeSkippedKey^[k] s).receivingRatchetKey = s.receivingRatchetKey := by
  induction k with
  | zero => rfl
  | succ k ih =>
    rw [Function.iterate_succ_apply', ← ih, storeSkippedKey]
    split <;> rfl

theorem recvCounter_iterate (s : RatchetState P) (k : Nat)
    (chain : s.receivingChainKey.isSome = true) (fits : s.recvCounter.toNat + k < 2 ^ 32) :
    (storeSkippedKey^[k] s).recvCounter.toNat = s.recvCounter.toNat + k := by
  obtain ⟨chainKey, found⟩ := Option.isSome_iff_exists.mp chain
  rw [store_iterate s chainKey found, UInt32.toNat_add, UInt32.toNat_ofNat']
  omega

theorem insert_keys_card_le (keys : SkippedKeys P) (slot : Block 32 × UInt32) (key : P.Key) :
    (keys.insert slot key).keys.card ≤ keys.keys.card + 1 := by
  have grown : (keys.insert slot key).keys = insert slot keys.keys := by
    ext a
    simp only [Finmap.mem_keys, Finmap.mem_insert, Finset.mem_insert]
  rw [grown]
  exact Finset.card_insert_le slot keys.keys

theorem storeRange_keys_card_le (stored : SkippedKeys P) (slot : Block 32) (first : UInt32)
    (chainKey : P.Key) (k : Nat) :
    (storeRange stored slot first chainKey k).keys.card ≤ stored.keys.card + k := by
  induction k with
  | zero => exact Nat.le_refl _
  | succ k ih =>
    have grow := insert_keys_card_le (storeRange stored slot first chainKey k)
      (slot, first + UInt32.ofNat k) (messageKeyAt P chainKey k)
    rw [storeRange]
    omega

theorem skippedLen_iterate_le (s : RatchetState P) (k : Nat)
    (chain : s.receivingChainKey.isSome = true) :
    (storeSkippedKey^[k] s).skippedLen ≤ s.skippedLen + k := by
  obtain ⟨chainKey, found⟩ := Option.isSome_iff_exists.mp chain
  rw [store_iterate s chainKey found]
  exact storeRange_keys_card_le _ _ _ _ k

theorem storeRange_lookup (stored : SkippedKeys P) (slot : Block 32) (first : UInt32)
    (chainKey : P.Key) (k : Nat) (fits : first.toNat + k ≤ 2 ^ 32) (peer : Block 32) (n : UInt32) :
    (storeRange stored slot first chainKey k).lookup (peer, n) =
      if peer = slot ∧ first.toNat ≤ n.toNat ∧ n.toNat < first.toNat + k then
        some (messageKeyAt P chainKey (n.toNat - first.toNat))
      else stored.lookup (peer, n) := by
  induction k with
  | zero =>
    have empty : ¬ (peer = slot ∧ first.toNat ≤ n.toNat ∧ n.toNat < first.toNat + 0) := by omega
    rw [if_neg empty]
    rfl
  | succ k ih =>
    have last : (first + UInt32.ofNat k).toNat = first.toNat + k := by
      rw [UInt32.toNat_add, UInt32.toNat_ofNat']
      omega
    rw [storeRange]
    by_cases here : (peer, n) = (slot, first + UInt32.ofNat k)
    · obtain ⟨same, number⟩ := Prod.mk.inj here
      have inside : peer = slot ∧ first.toNat ≤ n.toNat ∧ n.toNat < first.toNat + (k + 1) := by
        rw [number, last]
        exact ⟨same, by omega, by omega⟩
      have offset : n.toNat - first.toNat = k := by rw [number, last]; omega
      rw [if_pos inside, here, Finmap.lookup_insert, offset]
    · rw [Finmap.lookup_insert_of_ne _ here, ih (by omega)]
      have apart : peer = slot → n.toNat ≠ first.toNat + k := by
        intro same hn
        exact here (Prod.ext same (UInt32.toNat_inj.mp (hn.trans last.symm)))
      have same : (peer = slot ∧ first.toNat ≤ n.toNat ∧ n.toNat < first.toNat + k) ↔
          (peer = slot ∧ first.toNat ≤ n.toNat ∧ n.toNat < first.toNat + (k + 1)) := by
        constructor
        · rintro ⟨hp, lo, hi⟩
          exact ⟨hp, lo, by omega⟩
        · rintro ⟨hp, lo, hi⟩
          have := apart hp
          exact ⟨hp, lo, by omega⟩
      simp only [same]

/-- The slots in use after `j` turns of a skip that starts at `first`. -/
def skipSlots (keys : Finset (Block 32 × UInt32)) (slot : Block 32) (first : UInt32) (j : Nat) :
    Finset (Block 32 × UInt32) :=
  keys ∪ (Finset.range j).image fun i => (slot, first + UInt32.ofNat i)

theorem storeRange_keys (stored : SkippedKeys P) (slot : Block 32) (first : UInt32)
    (chainKey : P.Key) (k : Nat) :
    (storeRange stored slot first chainKey k).keys = skipSlots stored.keys slot first k := by
  induction k with
  | zero => simp [storeRange, skipSlots]
  | succ k ih =>
    have grown : (storeRange stored slot first chainKey (k + 1)).keys =
        insert (slot, first + UInt32.ofNat k) (storeRange stored slot first chainKey k).keys := by
      ext a
      simp only [storeRange, Finmap.mem_keys, Finmap.mem_insert, Finset.mem_insert]
    rw [grown, ih, skipSlots, skipSlots, Finset.range_add_one, Finset.image_insert,
      Finset.union_insert]

theorem skippedLen_iterate (s : RatchetState P) (k : Nat) (chain : s.receivingChainKey.isSome = true) :
    (storeSkippedKey^[k] s).skippedLen =
      (skipSlots s.skippedKeys.keys s.receivingSlot s.recvCounter k).card := by
  obtain ⟨chainKey, found⟩ := Option.isSome_iff_exists.mp chain
  rw [store_iterate s chainKey found, skippedLen, storeRange_keys]

def TooFar (s : RatchetState P) (target : UInt32) : Prop :=
  s.recvCounter.toNat + maxSkip.toNat < target.toNat

/-- The next `k` keys find room in the map. -/
def Room (s : RatchetState P) (k : Nat) : Prop :=
  ∀ j, j < k → (storeSkippedKey^[j] s).skippedLen < maxSkippedKeys

variable {s : RatchetState P} {peer : Block 32} {next len : Nat}

theorem Room.cons {k : Nat} (first : s.skippedLen < maxSkippedKeys)
    (rest : s.storeSkippedKey.Room k) : s.Room (k + 1) := by
  intro j hj
  cases j with
  | zero => exact first
  | succ j => exact rest j (Nat.lt_of_succ_lt_succ hj)

theorem skipLoop_cases (target : UInt32) (fuel : Nat) (s : RatchetState P)
    (reach : s.recvCounter.toNat + fuel = target.toNat)
    (chain : s.receivingChainKey.isSome = true) :
    (s.Room fuel ∧ skipLoop target fuel s = (.ok (), storeSkippedKey^[fuel] s)) ∨
    ∃ e k, k < fuel ∧ s.Room k ∧ maxSkippedKeys ≤ (storeSkippedKey^[k] s).skippedLen ∧
      skipLoop target fuel s = (.error e, storeSkippedKey^[k] s) := by
  induction fuel generalizing s with
  | zero => exact .inl ⟨fun j hj => absurd hj (Nat.not_lt_zero j), rfl⟩
  | succ fuel ih =>
    have below : s.recvCounter < target := by
      rw [UInt32.lt_iff_toNat_lt]
      omega
    rw [skipLoop, if_pos below]
    by_cases full : s.skippedLen ≥ maxSkippedKeys
    · rw [if_pos full]
      exact .inr ⟨_, 0, Nat.succ_pos fuel, fun j hj => absurd hj (Nat.not_lt_zero j), full, rfl⟩
    · rw [if_neg full]
      obtain ⟨chainKey, found⟩ := Option.isSome_iff_exists.mp chain
      have bound : target.toNat < 2 ^ 32 := target.toNat_lt
      have step : s.storeSkippedKey.recvCounter = s.recvCounter + 1 := by
        rw [storeSkippedKey, found]
      have still : s.storeSkippedKey.receivingChainKey.isSome = true := by
        rw [storeSkippedKey, found]; rfl
      have reach' : s.storeSkippedKey.recvCounter.toNat + fuel = target.toNat := by
        rw [step, UInt32.toNat_add, UInt32.toNat_one]
        omega
      have first : s.skippedLen < maxSkippedKeys := Nat.lt_of_not_ge full
      rcases ih s.storeSkippedKey reach' still with ⟨room, done⟩ | ⟨e, k, early, room, full', stopped⟩
      · exact .inl ⟨room.cons first, done⟩
      · exact .inr ⟨e, k + 1, Nat.succ_lt_succ early, room.cons first, full', stopped⟩

theorem skipMessageKeys_cases (s : RatchetState P) (target : UInt32) :
    (s.TooFar target ∧ ∃ e, s.skipMessageKeys target = (.error e, s)) ∨
    (¬ s.TooFar target ∧ (s.receivingChainKey = none ∨ target.toNat ≤ s.recvCounter.toNat) ∧
      s.skipMessageKeys target = (.ok (), s)) ∨
    (¬ s.TooFar target ∧ s.receivingChainKey.isSome = true ∧ s.recvCounter.toNat < target.toNat ∧
      ((s.Room (target.toNat - s.recvCounter.toNat) ∧ s.skipMessageKeys target =
          (.ok (), storeSkippedKey^[target.toNat - s.recvCounter.toNat] s)) ∨
        ∃ e k, k < target.toNat - s.recvCounter.toNat ∧ s.Room k ∧
          maxSkippedKeys ≤ (storeSkippedKey^[k] s).skippedLen ∧
          s.skipMessageKeys target = (.error e, storeSkippedKey^[k] s))) := by
  have guard : saturatingAdd s.recvCounter maxSkip < target ↔ s.TooFar target :=
    saturatingAdd_lt s.recvCounter maxSkip target
  by_cases far : s.TooFar target
  · refine .inl ⟨far, ?_⟩
    rw [skipMessageKeys, if_pos (guard.mpr far)]
    exact ⟨_, rfl⟩
  · have near : ¬ saturatingAdd s.recvCounter maxSkip < target := fun h => far (guard.mp h)
    refine .inr ?_
    rw [skipMessageKeys, if_neg near]
    cases chain : s.receivingChainKey with
    | none => exact .inl ⟨far, .inl rfl, rfl⟩
    | some chainKey =>
      by_cases behind : target.toNat ≤ s.recvCounter.toNat
      · have none : target.toNat - s.recvCounter.toNat = 0 := by omega
        refine .inl ⟨far, .inr behind, ?_⟩
        simp only [none]
        rfl
      · refine .inr ⟨far, rfl, by omega, ?_⟩
        exact skipLoop_cases target _ s (by omega) (by rw [chain]; rfl)

theorem skipMessageKeys_keys {t : RatchetState P} {target : UInt32}
    (chain : s.receivingChainKey.isSome = true) (done : s.skipMessageKeys target = (.ok (), t)) :
    t.skippedKeys.keys = skipSlots s.skippedKeys.keys s.receivingSlot s.recvCounter
      (target.toNat - s.recvCounter.toNat) := by
  rcases skipMessageKeys_cases s target with
    ⟨_, e, eq⟩ | ⟨_, idle, eq⟩ | ⟨_, _, _, ⟨_, eq⟩ | ⟨e, k, _, _, _, eq⟩⟩
  · rw [eq] at done
    cases done
  · rw [eq] at done
    cases done
    rcases idle with none | behind
    · rw [none] at chain
      cases chain
    · have stop : target.toNat - s.recvCounter.toNat = 0 := by omega
      simp [stop, skipSlots]
  · rw [eq] at done
    cases done
    obtain ⟨chainKey, found⟩ := Option.isSome_iff_exists.mp chain
    rw [store_iterate s chainKey found, storeRange_keys]
  · rw [eq] at done
    cases done

def SkipWithin (s : RatchetState P) (target : UInt32) : Prop :=
  target.toNat - s.recvCounter.toNat ≤ maxSkip.toNat ∧
  s.skippedLen + (target.toNat - s.recvCounter.toNat) ≤ maxSkippedKeys

instance (s : RatchetState P) (target : UInt32) : Decidable (s.SkipWithin target) :=
  inferInstanceAs (Decidable (_ ∧ _))

/-- Every skip `decrypt` would make stays inside the limits. -/
def DecryptWithin (s : RatchetState P) (fresh : P.Secret) (header : MessageHeader) : Prop :=
  (s.skippedKeys.lookup (header.ratchetPublicKey, header.messageNumber)).isNone = true →
    (s.needDhRatchet header = true → s.receivingChainKey.isSome = true →
      s.SkipWithin header.prevChainLength) ∧
    (s.turnRatchet fresh header).2.SkipWithin header.messageNumber

instance (s : RatchetState P) (fresh : P.Secret) (header : MessageHeader) :
    Decidable (s.DecryptWithin fresh header) := inferInstanceAs (Decidable (_ → _))

theorem skipMessageKeys_within (s : RatchetState P) (target : UInt32) (within : s.SkipWithin target)
    (chain : s.receivingChainKey.isSome = true) :
    s.skipMessageKeys target =
      (.ok (), storeSkippedKey^[target.toNat - s.recvCounter.toNat] s) := by
  obtain ⟨short, room⟩ := within
  have near : ¬ s.TooFar target := by
    unfold TooFar
    omega
  rcases skipMessageKeys_cases s target with
    ⟨far, _⟩ | ⟨_, idle, done⟩ | ⟨_, _, ahead, ⟨_, done⟩ | ⟨e, k, early, _, full, _⟩⟩
  · exact absurd far near
  · rcases idle with none | behind
    · rw [none] at chain
      cases chain
    · have zero : target.toNat - s.recvCounter.toNat = 0 := by omega
      rw [done, zero]
      rfl
  · exact done
  · have bound := skippedLen_iterate_le s k chain
    omega

theorem storeRange_keys_card (stored : SkippedKeys P) (slot : Block 32) (first : UInt32)
    (chainKey : P.Key) (k : Nat) (fits : first.toNat + k ≤ 2 ^ 32)
    (free : ∀ n : UInt32, first.toNat ≤ n.toNat → stored.lookup (slot, n) = none) :
    (storeRange stored slot first chainKey k).keys.card = stored.keys.card + k := by
  induction k with
  | zero => rfl
  | succ k ih =>
    have last : (first + UInt32.ofNat k).toNat = first.toNat + k := by
      rw [UInt32.toNat_add, UInt32.toNat_ofNat']
      omega
    have absent : (slot, first + UInt32.ofNat k) ∉ (storeRange stored slot first chainKey k).keys := by
      rw [Finmap.mem_keys, ← Finmap.lookup_eq_none,
        storeRange_lookup _ _ _ _ _ (by omega), if_neg (by omega)]
      exact free _ (by omega)
    have grown : (storeRange stored slot first chainKey (k + 1)).keys =
        insert (slot, first + UInt32.ofNat k) (storeRange stored slot first chainKey k).keys := by
      ext a
      simp only [storeRange, Finmap.mem_keys, Finmap.mem_insert, Finset.mem_insert]
    rw [grown, Finset.card_insert_of_notMem absent, ih (by omega)]
    omega

/-- The state once message `n` of the chain `chainKey` has been read from `s`. -/
def readTo (s : RatchetState P) (chainKey : P.Key) (n : UInt32) : RatchetState P :=
  { s with
    receivingChainKey := some (chainAt P chainKey (n.toNat - s.recvCounter.toNat + 1))
    recvCounter := s.recvCounter + UInt32.ofNat (n.toNat - s.recvCounter.toNat) + 1
    skippedKeys := storeRange s.skippedKeys s.receivingSlot s.recvCounter chainKey
      (n.toNat - s.recvCounter.toNat) }

theorem readChain_within (s : RatchetState P) {chainKey : P.Key} (n : UInt32)
    (chain : s.receivingChainKey = some chainKey) (within : s.SkipWithin n) :
    (Outcome.andThen (s.skipMessageKeys n) fun _ s => s.advanceReceiving) =
      (.ok (messageKeyAt P chainKey (n.toNat - s.recvCounter.toNat)), s.readTo chainKey n) := by
  rw [skipMessageKeys_within s n within (by rw [chain]; rfl), Outcome.andThen_ok,
    store_iterate s chainKey chain]
  simp only [advanceReceiving, messageKeyAt, readTo, chainAt_succ]

theorem readTo_recvCounter (s : RatchetState P) (chainKey : P.Key) {n : UInt32}
    (ahead : s.recvCounter.toNat ≤ n.toNat) : (s.readTo chainKey n).recvCounter = n + 1 := by
  have reached : s.recvCounter + UInt32.ofNat (n.toNat - s.recvCounter.toNat) = n := by
    apply UInt32.toNat_inj.mp
    have top : n.toNat < 2 ^ 32 := n.toNat_lt
    rw [UInt32.toNat_add, UInt32.toNat_ofNat']
    omega
  rw [readTo, reached]

theorem readTo_skippedLen (s : RatchetState P) (chainKey : P.Key) {n : UInt32}
    (free : ∀ m : UInt32, s.recvCounter.toNat ≤ m.toNat →
      s.skippedKeys.lookup (s.receivingSlot, m) = none) :
    (s.readTo chainKey n).skippedLen = s.skippedLen + (n.toNat - s.recvCounter.toNat) := by
  have top : n.toNat < 2 ^ 32 := n.toNat_lt
  have low : s.recvCounter.toNat < 2 ^ 32 := s.recvCounter.toNat_lt
  exact storeRange_keys_card _ _ _ _ _ (by omega) free

theorem takeMessageKey_current (s : RatchetState P) {chainKey : P.Key} (header : MessageHeader)
    (fresh : P.Secret)
    (unstored : s.skippedKeys.lookup (header.ratchetPublicKey, header.messageNumber) = none)
    (same : s.receivingRatchetKey = some header.ratchetPublicKey)
    (chain : s.receivingChainKey = some chainKey) (within : s.SkipWithin header.messageNumber) :
    s.takeMessageKey fresh header =
      (.ok (messageKeyAt P chainKey (header.messageNumber.toNat - s.recvCounter.toNat)),
        s.readTo chainKey header.messageNumber) := by
  have still : s.needDhRatchet header = false := by
    rw [← Bool.not_eq_true, needDhRatchet_iff, same]
    exact fun differ => differ rfl
  rw [takeMessageKey_unstored unstored, turnRatchet, still]
  exact readChain_within s header.messageNumber chain within

theorem takeMessageKey_first (s : RatchetState P) (header : MessageHeader) (fresh : P.Secret)
    (unstored : s.skippedKeys.lookup (header.ratchetPublicKey, header.messageNumber) = none)
    (other : s.receivingRatchetKey ≠ some header.ratchetPublicKey)
    (noChain : s.receivingChainKey = none)
    (within : (s.dhRatchetStep fresh header.ratchetPublicKey).SkipWithin header.messageNumber) :
    ∃ chainKey, (s.dhRatchetStep fresh header.ratchetPublicKey).receivingChainKey = some chainKey ∧
      s.takeMessageKey fresh header = (.ok (messageKeyAt P chainKey header.messageNumber.toNat),
        (s.dhRatchetStep fresh header.ratchetPublicKey).readTo chainKey header.messageNumber) := by
  have need := (needDhRatchet_iff s header).mpr other
  refine ⟨_, rfl, ?_⟩
  rw [takeMessageKey_unstored unstored, turnRatchet, if_pos need, noChain]
  exact readChain_within _ header.messageNumber rfl within

/-- A state that reads the chain of `peer`: the next number, the number of stored keys, and
no stored key of this chain from the next number on. -/
structure ReadingAt (s : RatchetState P) (peer : Block 32) (next len : Nat) : Prop where
  current : s.receivingRatchetKey = some peer
  chain : s.receivingChainKey.isSome = true
  counter : s.recvCounter.toNat = next
  size : s.skippedLen = len
  free : ∀ m : UInt32, next ≤ m.toNat → s.skippedKeys.lookup (peer, m) = none

theorem ReadingAt.slot
    (h : s.ReadingAt peer next len) : s.receivingSlot = peer := by
  rw [receivingSlot, h.current]
  rfl

theorem ReadingAt.readTo
    (h : s.ReadingAt peer next len) (chainKey : P.Key) (n : UInt32) (ahead : next ≤ n.toNat)
    (below : n.toNat + 1 < 2 ^ 32) :
    (s.readTo chainKey n).ReadingAt peer (n.toNat + 1) (len + (n.toNat - next)) := by
  have counter := h.counter
  refine ⟨h.current, rfl, ?_, ?_, ?_⟩
  · rw [readTo_recvCounter s chainKey (by omega), UInt32.toNat_add, UInt32.toNat_one,
      Nat.mod_eq_of_lt below]
  · have free : ∀ m : UInt32, s.recvCounter.toNat ≤ m.toNat →
        s.skippedKeys.lookup (s.receivingSlot, m) = none := by
      intro m past
      rw [h.slot]
      exact h.free m (by omega)
    rw [readTo_skippedLen s chainKey free, h.size, h.counter]
  · intro m past
    refine (storeRange_lookup _ _ _ _ _ (by omega) _ _).trans ?_
    rw [if_neg (by omega)]
    exact h.free m (by omega)

theorem ReadingAt.read
    (h : s.ReadingAt peer next len) (fresh : P.Secret) (prev n : UInt32) (ahead : next ≤ n.toNat)
    (near : n.toNat - next ≤ maxSkip.toNat) (room : len + (n.toNat - next) ≤ maxSkippedKeys)
    (below : n.toNat + 1 < 2 ^ 32) :
    ∃ key t, s.takeMessageKey fresh ⟨peer, prev, n⟩ = (.ok key, t) ∧
      t.ReadingAt peer (n.toNat + 1) (len + (n.toNat - next)) := by
  obtain ⟨chainKey, chain⟩ := Option.isSome_iff_exists.mp h.chain
  have within : s.SkipWithin n := by
    unfold SkipWithin
    rw [h.counter, h.size]
    exact ⟨near, room⟩
  exact ⟨_, _, takeMessageKey_current s ⟨peer, prev, n⟩ fresh (h.free n ahead) h.current chain within,
    h.readTo chainKey n ahead below⟩

theorem ReadingAt.need
    (h : s.ReadingAt peer next len) (prev n : UInt32) : s.needDhRatchet ⟨peer, prev, n⟩ = false := by
  rw [← Bool.not_eq_true, needDhRatchet_iff, h.current]
  exact fun differ => differ rfl

theorem ReadingAt.full
    (h : s.ReadingAt peer next len) (fresh : P.Secret) (prev n : UInt32) (ahead : next < n.toNat)
    (near : n.toNat - next ≤ maxSkip.toNat) (full : maxSkippedKeys ≤ len) :
    ∃ e, s.takeMessageKey fresh ⟨peer, prev, n⟩ = (.error e, s) := by
  have counter := h.counter
  have turned : s.turnRatchet fresh ⟨peer, prev, n⟩ = (.ok (), s) := by
    rw [turnRatchet, h.need]
    rfl
  have unstored : s.skippedKeys.lookup (peer, n) = none := h.free n (Nat.le_of_lt ahead)
  rw [takeMessageKey_unstored unstored, turned, Outcome.andThen_ok]
  rcases skipMessageKeys_cases s n with
    ⟨far, e, eq⟩ | ⟨_, idle, _⟩ | ⟨_, _, more, ⟨room, _⟩ | ⟨e, k, _, room, _, eq⟩⟩
  · unfold TooFar at far
    omega
  · rcases idle with none | behind
    · have chain := h.chain
      rw [none] at chain
      cases chain
    · omega
  · have first := room 0 (by omega)
    rw [Function.iterate_zero_apply, h.size] at first
    omega
  · cases k with
    | zero =>
      rw [eq]
      exact ⟨e, rfl⟩
    | succ k =>
      have first := room 0 (Nat.succ_pos k)
      rw [Function.iterate_zero_apply, h.size] at first
      omega

theorem initBob_read (sharedSecret : P.Key) (own fresh : P.Secret) (peer : Block 32) (prev n : UInt32)
    (near : n.toNat ≤ maxSkip.toNat) :
    ∃ key t, (initBob sharedSecret own).takeMessageKey fresh ⟨peer, prev, n⟩ = (.ok key, t) ∧
      t.ReadingAt peer (n.toNat + 1) n.toNat := by
  have limit : maxSkip.toNat = 1000 := rfl
  have room : maxSkippedKeys = 2000 := rfl
  have started : ((initBob sharedSecret own).dhRatchetStep fresh peer).ReadingAt peer 0 0 :=
    ⟨rfl, rfl, rfl, rfl, fun _ _ => Finmap.lookup_empty _⟩
  have within : ((initBob sharedSecret own).dhRatchetStep fresh peer).SkipWithin n := by
    unfold SkipWithin
    rw [started.counter, started.size]
    omega
  obtain ⟨chainKey, _, first⟩ := takeMessageKey_first (initBob sharedSecret own) ⟨peer, prev, n⟩ fresh
    rfl (Option.some_ne_none _ ∘ Eq.symm) rfl within
  have read := started.readTo chainKey n (Nat.zero_le _) (by omega)
  rw [Nat.sub_zero, Nat.zero_add] at read
  exact ⟨_, _, first, read⟩

end Echo.Signal.RatchetState
