import Echo.Signal.Schedule
import Echo.Signal.Skipping

/- One honest party at its place in the key schedule, and what `encrypt` and `decrypt` do
to that place. `opened d n` says message `n` of epoch `d` has been delivered. -/
namespace Echo.Signal
open Echo.Lib
variable {P : Primitives}

/-- A receiver in epoch `e` with counter `r` has derived the key of message `n` of epoch `d`. -/
def Passed (count : Nat → Nat) (e r d n : Nat) : Prop :=
  d % 2 ≠ e % 2 ∧ d < e ∧ n < if d + 1 = e then r else count d

theorem Passed.mono {count : Nat → Nat} {e r r' d n : Nat} (passed : Passed count e r d n)
    (grow : r ≤ r') : Passed count e r' d n := by
  obtain ⟨parity, below, bound⟩ := passed
  refine ⟨parity, below, ?_⟩
  split
  · rename_i last
    rw [if_pos last] at bound
    exact Nat.lt_of_lt_of_le bound grow
  · rename_i last
    rw [if_neg last] at bound
    exact bound

structure InEpoch (sharedSecret : P.Key) (secret : Nat → P.Secret) (count : Nat → Nat)
    (opened : Nat → Nat → Prop) (e : Nat) (s : RatchetState P) : Prop where
  root : s.rootKey = epochRoot P sharedSecret secret e
  ownPrivate : s.sendingRatchetPrivate = secret e
  ownPublic : s.sendingRatchetPublic = epochPublic P secret e
  sending : s.sendingChainKey = chainAt P (epochChain P sharedSecret secret e) (count e)
  sent : s.sendCounter.toNat = count e
  prev : s.prevSendCounter.toNat = count (e - 2)
  peer : s.receivingRatchetKey = if e = 0 then none else some (epochPublic P secret (e - 1))
  receiving : s.receivingChainKey =
    if 2 ≤ e then some (chainAt P (epochChain P sharedSecret secret (e - 1)) s.recvCounter.toNat)
    else none
  received : s.recvCounter.toNat ≤ if 2 ≤ e then count (e - 1) else 0
  stored : ∀ peer n key, s.skippedKeys.lookup (peer, n) = some key ↔
    ∃ d, Passed count e s.recvCounter.toNat d n.toNat ∧ ¬ opened d n.toNat ∧
      peer = epochPublic P secret d ∧ key = messageKeyAt P (epochChain P sharedSecret secret d) n.toNat
  seen : ∀ d n, opened d n → d % 2 ≠ e % 2 → Passed count e s.recvCounter.toNat d n

def DistinctUpTo (secret : Nat → P.Secret) (e : Nat) : Prop :=
  ∀ i j, i ≤ e → j ≤ e → epochPublic P secret i = epochPublic P secret j → i = j

theorem DistinctUpTo.mono {secret : Nat → P.Secret} {e e' : Nat} (distinct : DistinctUpTo secret e)
    (le : e' ≤ e) : DistinctUpTo secret e' :=
  fun i j hi hj => distinct i j (Nat.le_trans hi le) (Nat.le_trans hj le)

theorem DistinctUpTo.extend {secret : Nat → P.Secret} {e : Nat} (distinct : DistinctUpTo secret e)
    {fresh : P.Secret} (new : ∀ i, i ≤ e → epochPublic P secret i ≠ P.publicKey fresh) :
    DistinctUpTo (Function.update secret (e + 1) fresh) (e + 1) := by
  have old : ∀ i, i ≤ e → epochPublic P (Function.update secret (e + 1) fresh) i =
      epochPublic P secret i :=
    fun i hi => congrArg P.publicKey (Function.update_of_ne (by omega) _ _)
  have last : epochPublic P (Function.update secret (e + 1) fresh) (e + 1) = P.publicKey fresh :=
    congrArg P.publicKey (Function.update_self _ _ _)
  intro i j hi hj same
  rcases Nat.lt_or_eq_of_le hi with hi | rfl
  · rcases Nat.lt_or_eq_of_le hj with hj | rfl
    · rw [old i (by omega), old j (by omega)] at same
      exact distinct i j (by omega) (by omega) same
    · rw [old i (by omega), last] at same
      exact absurd same (new i (by omega))
  · rcases Nat.lt_or_eq_of_le hj with hj | rfl
    · rw [old j (by omega), last] at same
      exact absurd same.symm (new j (by omega))
    · rfl

/-- `opened` after the delivery of one more message. -/
def alsoOpened (opened : Nat → Nat → Prop) (d n : Nat) : Nat → Nat → Prop :=
  fun d' n' => opened d' n' ∨ (d' = d ∧ n' = n)

namespace InEpoch
variable {sharedSecret : P.Key} {secret : Nat → P.Secret} {count : Nat → Nat}
  {opened : Nat → Nat → Prop} {e : Nat} {s : RatchetState P}

theorem recount (h : InEpoch sharedSecret secret count opened e s) (count' : Nat → Nat)
    (own : count' e = count e) (before : count' (e - 2) = count (e - 2))
    (older : ∀ d, d % 2 ≠ e % 2 → d + 1 < e → count' d = count d)
    (current : 2 ≤ e → count (e - 1) ≤ count' (e - 1)) :
    InEpoch sharedSecret secret count' opened e s := by
  have passed : ∀ d n, Passed count' e s.recvCounter.toNat d n ↔
      Passed count e s.recvCounter.toNat d n := by
    intro d n
    unfold Passed
    by_cases last : d + 1 = e
    · simp only [if_pos last]
    · by_cases inside : d % 2 ≠ e % 2 ∧ d < e
      · simp only [if_neg last, older d inside.1 (by omega)]
      · constructor
        · rintro ⟨parity, below, _⟩
          exact absurd ⟨parity, below⟩ inside
        · rintro ⟨parity, below, _⟩
          exact absurd ⟨parity, below⟩ inside
  refine ⟨h.root, h.ownPrivate, h.ownPublic, ?_, ?_, ?_, h.peer, h.receiving, ?_, ?_, ?_⟩
  · rw [own]
    exact h.sending
  · rw [own]
    exact h.sent
  · rw [before]
    exact h.prev
  · have bound := h.received
    split at bound
    · rename_i two
      rw [if_pos two]
      exact Nat.le_trans bound (current two)
    · rename_i two
      rw [if_neg two]
      exact bound
  · intro peer n key
    simp only [passed]
    exact h.stored peer n key
  · intro d n done parity
    exact (passed d n).mpr (h.seen d n done parity)

theorem transport (h : InEpoch sharedSecret secret count opened e s) (secret' : Nat → P.Secret)
    (opened' : Nat → Nat → Prop) (same : ∀ i, i ≤ e → secret' i = secret i)
    (mine : ∀ d n, d % 2 ≠ e % 2 → (opened' d n ↔ opened d n)) :
    InEpoch sharedSecret secret' count opened' e s := by
  have keys : ∀ d, d ≤ e → epochKeys P sharedSecret secret' d = epochKeys P sharedSecret secret d :=
    fun d hd => epochKeys_congr (fun i hi => same i (Nat.le_trans hi hd))
  have chain : ∀ d, d ≤ e → epochChain P sharedSecret secret' d = epochChain P sharedSecret secret d :=
    fun d hd => congrArg Prod.snd (keys d hd)
  have public_ : ∀ d, d ≤ e → epochPublic P secret' d = epochPublic P secret d :=
    fun d hd => congrArg P.publicKey (same d hd)
  have here := Nat.le_refl e
  have last : e - 1 ≤ e := Nat.sub_le e 1
  refine ⟨?_, ?_, ?_, ?_, h.sent, h.prev, ?_, ?_, h.received, ?_, ?_⟩
  · rw [h.root]
    exact (congrArg Prod.fst (keys e here)).symm
  · rw [h.ownPrivate, same e here]
  · rw [h.ownPublic, public_ e here]
  · rw [h.sending, chain e here]
  · rw [h.peer, public_ (e - 1) last]
  · rw [h.receiving, chain (e - 1) last]
  · intro peer n key
    rw [h.stored peer n key]
    constructor
    · rintro ⟨d, passed, fresh, hp, hk⟩
      have le : d ≤ e := Nat.le_of_lt passed.2.1
      exact ⟨d, passed, fun done => fresh ((mine d _ passed.1).mp done), by rw [public_ d le, hp],
        by rw [chain d le, hk]⟩
    · rintro ⟨d, passed, fresh, hp, hk⟩
      have le : d ≤ e := Nat.le_of_lt passed.2.1
      exact ⟨d, passed, fun done => fresh ((mine d _ passed.1).mpr done), by rw [hp, public_ d le],
        by rw [hk, chain d le]⟩
  · intro d n done parity
    exact h.seen d n ((mine d n parity).mp done) parity

theorem encrypt (h : InEpoch sharedSecret secret count opened e s) (begun : e ≠ 0)
    (below : s.sendCounter.toNat + 1 < 2 ^ 32) (nonce : Block 12) (plaintext : Bytes) :
    InEpoch sharedSecret secret (Function.update count e (count e + 1)) opened e
      (s.encrypt nonce plaintext).2 := by
  have counter : (s.sendCounter + 1).toNat = count e + 1 := by
    rw [UInt32.toNat_add, UInt32.toNat_one, Nat.mod_eq_of_lt below, h.sent]
  rw [RatchetState.encrypt_state]
  -- the counts the other fields read belong to other epochs
  have elsewhere : ∀ d, d ≠ e → Function.update count e (count e + 1) d = count d :=
    fun d apart => Function.update_of_ne apart _ _
  have passed : ∀ d n, Passed (Function.update count e (count e + 1)) e s.recvCounter.toNat d n ↔
      Passed count e s.recvCounter.toNat d n := by
    intro d n
    unfold Passed
    constructor
    · rintro ⟨parity, below, bound⟩
      rw [elsewhere d (Nat.ne_of_lt below)] at bound
      exact ⟨parity, below, bound⟩
    · rintro ⟨parity, below, bound⟩
      rw [elsewhere d (Nat.ne_of_lt below)]
      exact ⟨parity, below, bound⟩
  refine ⟨h.root, h.ownPrivate, h.ownPublic, ?_, ?_, ?_, h.peer, h.receiving, ?_, ?_, ?_⟩
  · simp only [Function.update_self, chainAt_succ]
    rw [h.sending]
  · rw [Function.update_self]
    exact counter
  · rw [elsewhere (e - 2) (by omega)]
    exact h.prev
  · rw [elsewhere (e - 1) (by omega)]
    exact h.received
  · intro peer n key
    simp only [passed]
    exact h.stored peer n key
  · intro d n done parity
    exact (passed d n).mpr (h.seen d n done parity)

theorem takeStored (h : InEpoch sharedSecret secret count opened e s) (distinct : DistinctUpTo secret e)
    {header : MessageHeader} {d : Nat} (from_ : header.ratchetPublicKey = epochPublic P secret d)
    (passed : Passed count e s.recvCounter.toNat d header.messageNumber.toNat)
    (fresh : ¬ opened d header.messageNumber.toNat) (unused : P.Secret) :
    ∃ t, s.takeMessageKey unused header =
        (.ok (messageKeyAt P (epochChain P sharedSecret secret d) header.messageNumber.toNat), t) ∧
      InEpoch sharedSecret secret count (alsoOpened opened d header.messageNumber.toNat) e t := by
  have found := (h.stored header.ratchetPublicKey header.messageNumber _).mpr ⟨d, passed, fresh, from_, rfl⟩
  have le : d ≤ e := Nat.le_of_lt passed.2.1
  refine ⟨_, RatchetState.takeMessageKey_stored found unused, ?_⟩
  refine ⟨h.root, h.ownPrivate, h.ownPublic, h.sending, h.sent, h.prev, h.peer, h.receiving, h.received,
    ?_, ?_⟩
  · intro peer n key
    by_cases here : (peer, n) = (header.ratchetPublicKey, header.messageNumber)
    · obtain ⟨rfl, rfl⟩ := Prod.mk.inj here
      rw [Finmap.lookup_erase]
      constructor
      · intro impossible
        cases impossible
      · rintro ⟨d', passed', fresh', same, _⟩
        have here : d' = d :=
          distinct d' d (Nat.le_of_lt passed'.2.1) le (same.symm.trans from_)
        exact absurd (.inr ⟨here, rfl⟩) fresh'
    · rw [Finmap.lookup_erase_ne here, h.stored peer n key]
      constructor
      · rintro ⟨d', passed', fresh', rfl, hk⟩
        refine ⟨d', passed', ?_, rfl, hk⟩
        rintro (done | ⟨rfl, number⟩)
        · exact fresh' done
        · exact here (Prod.ext from_.symm (UInt32.toNat_inj.mp number))
      · rintro ⟨d', passed', fresh', hp, hk⟩
        exact ⟨d', passed', fun done => fresh' (.inl done), hp, hk⟩
  · rintro d' n (done | ⟨rfl, rfl⟩) parity
    · exact h.seen d' n done parity
    · exact passed

theorem skipTo (h : InEpoch sharedSecret secret count opened e s) (distinct : DistinctUpTo secret e)
    (two : 2 ≤ e) {n : UInt32} (ahead : s.recvCounter.toNat ≤ n.toNat) (sent : n.toNat ≤ count (e - 1))
    (within : s.SkipWithin n) :
    ∃ t, s.skipMessageKeys n = (.ok (), t) ∧ t.recvCounter = n ∧
      InEpoch sharedSecret secret count opened e t := by
  have chain := h.receiving
  rw [if_pos two] at chain
  have slot : s.receivingSlot = epochPublic P secret (e - 1) := by
    rw [RatchetState.receivingSlot, h.peer, if_neg (by omega)]
    rfl
  have reached : s.recvCounter.toNat + (n.toNat - s.recvCounter.toNat) = n.toNat := by omega
  have counter : s.recvCounter + UInt32.ofNat (n.toNat - s.recvCounter.toNat) = n := by
    apply UInt32.toNat_inj.mp
    have top : n.toNat < 2 ^ 32 := n.toNat_lt
    rw [UInt32.toNat_add, UInt32.toNat_ofNat']
    omega
  have skipped := RatchetState.skipMessageKeys_within s n within (by rw [chain]; rfl)
  rw [RatchetState.store_iterate s _ chain] at skipped
  simp only [chainAt_add, reached, slot, counter] at skipped
  refine ⟨_, skipped, rfl, ?_⟩
  refine ⟨h.root, h.ownPrivate, h.ownPublic, h.sending, h.sent, h.prev, h.peer, ?_, ?_, ?_, ?_⟩
  · rw [if_pos two]
  · rw [if_pos two]
    exact sent
  · intro peer m key
    have top : n.toNat < 2 ^ 32 := n.toNat_lt
    rw [RatchetState.storeRange_lookup _ _ _ _ _ (by omega), reached]
    by_cases inside : peer = epochPublic P secret (e - 1) ∧
        s.recvCounter.toNat ≤ m.toNat ∧ m.toNat < n.toNat
    · rw [if_pos inside]
      obtain ⟨rfl, low, high⟩ := inside
      have shift : messageKeyAt P (chainAt P (epochChain P sharedSecret secret (e - 1)) s.recvCounter.toNat)
          (m.toNat - s.recvCounter.toNat) =
          messageKeyAt P (epochChain P sharedSecret secret (e - 1)) m.toNat := by
        rw [messageKeyAt, messageKeyAt, chainAt_add, Nat.add_sub_cancel' low]
      rw [shift]
      constructor
      · intro same
        refine ⟨e - 1, ⟨by omega, by omega, ?_⟩, ?_, rfl, (Option.some.inj same).symm⟩
        · rw [if_pos (by omega)]
          exact high
        · -- an opened message of this chain is one the counter has passed
          intro done
          have passed := (h.seen _ _ done (by omega)).2.2
          rw [if_pos (by omega)] at passed
          omega
      · rintro ⟨d, passed, _, hp, hk⟩
        have here : e - 1 = d := distinct _ _ (Nat.sub_le e 1) (Nat.le_of_lt passed.2.1) hp
        rw [hk, here]
    · rw [if_neg inside, h.stored peer m key]
      constructor
      · rintro ⟨d, passed, rest⟩
        exact ⟨d, passed.mono ahead, rest⟩
      · rintro ⟨d, ⟨parity, before, bound⟩, fresh, hp, hk⟩
        refine ⟨d, ⟨parity, before, ?_⟩, fresh, hp, hk⟩
        split
        · rename_i last
          rw [if_pos last] at bound
          have passed : m.toNat < n.toNat := bound
          have here : d = e - 1 := by omega
          subst here
          have early : ¬ (s.recvCounter.toNat ≤ m.toNat ∧ m.toNat < n.toNat) :=
            fun range => inside ⟨hp, range⟩
          omega
        · rename_i last
          rw [if_neg last] at bound
          exact bound
  · intro d m done parity
    exact (h.seen d m done parity).mono ahead

theorem advance (h : InEpoch sharedSecret secret count opened e s) (two : 2 ≤ e)
    (sent : s.recvCounter.toNat < count (e - 1)) (below : s.recvCounter.toNat + 1 < 2 ^ 32) :
    ∃ t, s.advanceReceiving =
        (.ok (messageKeyAt P (epochChain P sharedSecret secret (e - 1)) s.recvCounter.toNat), t) ∧
      InEpoch sharedSecret secret count (alsoOpened opened (e - 1) s.recvCounter.toNat) e t := by
  have chain := h.receiving
  rw [if_pos two] at chain
  have counter : (s.recvCounter + 1).toNat = s.recvCounter.toNat + 1 := by
    rw [UInt32.toNat_add, UInt32.toNat_one, Nat.mod_eq_of_lt below]
  -- the counter passes one more message, and that message is opened rather than stored
  have passed : ∀ d m, Passed count e (s.recvCounter.toNat + 1) d m ↔
      Passed count e s.recvCounter.toNat d m ∨ (d = e - 1 ∧ m = s.recvCounter.toNat) := by
    intro d m
    unfold Passed
    constructor
    · rintro ⟨parity, before, bound⟩
      split at bound
      · rename_i last
        rw [if_pos last]
        omega
      · rename_i last
        rw [if_neg last]
        exact .inl ⟨parity, before, bound⟩
    · rintro (⟨parity, before, bound⟩ | ⟨rfl, rfl⟩)
      · refine ⟨parity, before, ?_⟩
        split at bound <;> rename_i last
        · rw [if_pos last]
          omega
        · rw [if_neg last]
          exact bound
      · rw [if_pos (by omega)]
        omega
  unfold RatchetState.advanceReceiving
  simp only [chain]
  refine ⟨_, rfl, ?_⟩
  refine ⟨h.root, h.ownPrivate, h.ownPublic, h.sending, h.sent, h.prev, h.peer, ?_, ?_, ?_, ?_⟩
  · rw [if_pos two, counter, chainAt_succ]
  · rw [if_pos two, counter]
    exact sent
  · intro peer m key
    simp only [counter, h.stored peer m key, passed]
    constructor
    · rintro ⟨d, before, fresh, rest⟩
      refine ⟨d, .inl before, ?_, rest⟩
      rintro (done | ⟨rfl, number⟩)
      · exact fresh done
      · have bound := before.2.2
        rw [if_pos (by omega)] at bound
        omega
    · rintro ⟨d, before | last, fresh, rest⟩
      · exact ⟨d, before, fun done => fresh (.inl done), rest⟩
      · exact absurd (.inr last) fresh
  · rintro d m (done | last) parity
    · simp only [counter, passed]
      exact .inl (h.seen d m done parity)
    · simp only [counter, passed]
      exact .inr last

theorem readChain (h : InEpoch sharedSecret secret count opened e s) (distinct : DistinctUpTo secret e)
    (two : 2 ≤ e) {n : UInt32} (ahead : s.recvCounter.toNat ≤ n.toNat) (sent : n.toNat < count (e - 1))
    (below : n.toNat + 1 < 2 ^ 32) (within : s.SkipWithin n) :
    ∃ t, (Outcome.andThen (s.skipMessageKeys n) fun _ s => s.advanceReceiving) =
        (.ok (messageKeyAt P (epochChain P sharedSecret secret (e - 1)) n.toNat), t) ∧
      InEpoch sharedSecret secret count (alsoOpened opened (e - 1) n.toNat) e t := by
  obtain ⟨t, skipped, rfl, inside⟩ := h.skipTo distinct two ahead (Nat.le_of_lt sent) within
  rw [skipped, Outcome.andThen_ok]
  exact inside.advance two sent below

/-- The DH step: with the old receiving chain read to its end, the party enters its next
sending epoch, whose private key is the fresh one. -/
theorem dhStep (h : InEpoch sharedSecret secret count opened e s) (lawful : P.Lawful)
    (fresh : P.Secret)
    (finished : 2 ≤ e → s.recvCounter.toNat = count (e - 1)) (first : count 0 = 0)
    (unsent : count (e + 2) = 0) :
    InEpoch sharedSecret (Function.update secret (e + 2) fresh) count opened (e + 2)
      (s.dhRatchetStep fresh (epochPublic P secret (e + 1))) := by
  have early : ∀ i, i ≤ e + 1 → Function.update secret (e + 2) fresh i = secret i :=
    fun i hi => Function.update_of_ne (by omega) _ _
  have here : Function.update secret (e + 2) fresh (e + 2) = fresh := Function.update_self _ _ _
  have keys : ∀ d, d ≤ e + 1 → epochKeys P sharedSecret (Function.update secret (e + 2) fresh) d =
      epochKeys P sharedSecret secret d :=
    fun d hd => epochKeys_congr (fun i hi => early i (Nat.le_trans hi hd))
  have chain : ∀ d, d ≤ e + 1 → epochChain P sharedSecret (Function.update secret (e + 2) fresh) d =
      epochChain P sharedSecret secret d := fun d hd => congrArg Prod.snd (keys d hd)
  have public_ : ∀ d, d ≤ e + 1 → epochPublic P (Function.update secret (e + 2) fresh) d =
      epochPublic P secret d := fun d hd => congrArg P.publicKey (early d hd)
  have receive := @epochKeys_receiver P sharedSecret lawful secret e
  have send : kdfRk P (epochRoot P sharedSecret secret (e + 1))
      (P.diffieHellman fresh (epochPublic P secret (e + 1))) =
      epochKeys P sharedSecret (Function.update secret (e + 2) fresh) (e + 2) := by
    rw [epochKeys, keys (e + 1) (Nat.le_refl _), here, public_ (e + 1) (Nat.le_refl _)]
    rfl
  have passed : ∀ d n, Passed count (e + 2) 0 d n ↔ Passed count e s.recvCounter.toNat d n := by
    intro d n
    have bound := h.received
    unfold Passed
    by_cases two : 2 ≤ e
    · have all := finished two
      by_cases last : d + 1 = e
      · have prior : d = e - 1 := by omega
        subst prior
        rw [if_pos last, if_neg (by omega)]
        omega
      · rw [if_neg last]
        by_cases new : d = e + 1
        · rw [if_pos (by omega)]
          omega
        · rw [if_neg (by omega)]
          omega
    · rw [if_neg two] at bound
      constructor
      · rintro ⟨parity, below, number⟩
        split at number
        · omega
        · have zero : d = 0 := by omega
          subst zero
          omega
      · rintro ⟨parity, below, number⟩
        rw [if_pos (by omega)] at number
        omega
  simp only [RatchetState.dhRatchetStep, h.root, h.ownPrivate, receive, send]
  refine ⟨rfl, here.symm, congrArg P.publicKey here.symm, ?_, ?_, ?_, ?_, ?_, ?_, ?_, ?_⟩
  · rw [unsent]
    rfl
  · rw [unsent]
    rfl
  · exact h.sent
  · rw [if_neg (by omega), public_ _ (by omega)]
    rfl
  · rw [if_pos (by omega), chain _ (by omega)]
    rfl
  · exact Nat.zero_le _
  · intro peer n key
    rw [h.stored peer n key]
    constructor
    · rintro ⟨d, before, rest, hp, hk⟩
      have le : d ≤ e + 1 := Nat.le_succ_of_le (Nat.le_of_lt before.2.1)
      exact ⟨d, (passed d _).mpr before, rest, by rw [public_ d le, hp], by rw [chain d le, hk]⟩
    · rintro ⟨d, after, rest, hp, hk⟩
      have before := (passed d _).mp after
      have le : d ≤ e + 1 := Nat.le_succ_of_le (Nat.le_of_lt before.2.1)
      exact ⟨d, before, rest, by rw [hp, public_ d le], by rw [hk, chain d le]⟩
  · intro d n done parity
    exact (passed d n).mpr (h.seen d n done (by omega))

theorem needDhRatchet_next (h : InEpoch sharedSecret secret count opened e s)
    (distinct : DistinctUpTo secret (e + 1)) {header : MessageHeader}
    (from_ : header.ratchetPublicKey = epochPublic P secret (e + 1)) :
    s.needDhRatchet header = true := by
  rw [RatchetState.needDhRatchet_iff, h.peer, from_]
  split
  · exact Option.some_ne_none _ ∘ Eq.symm
  · intro same
    have clash := distinct (e - 1) (e + 1) (by omega) (Nat.le_refl _) (Option.some.inj same)
    omega

theorem turn (h : InEpoch sharedSecret secret count opened e s) (lawful : P.Lawful)
    (distinct : DistinctUpTo secret (e + 1)) (fresh : P.Secret) {header : MessageHeader}
    (from_ : header.ratchetPublicKey = epochPublic P secret (e + 1))
    (announced : header.prevChainLength.toNat = count (e - 1)) (first : count 0 = 0)
    (unsent : count (e + 2) = 0)
    (within : s.receivingChainKey.isSome = true → s.SkipWithin header.prevChainLength) :
    ∃ t, s.turnRatchet fresh header = (.ok (), t) ∧ t.recvCounter = 0 ∧
      InEpoch sharedSecret (Function.update secret (e + 2) fresh) count opened (e + 2) t := by
  have need := h.needDhRatchet_next distinct from_
  have apart := distinct.mono (Nat.le_succ e)
  unfold RatchetState.turnRatchet
  rw [if_pos need, from_]
  by_cases two : 2 ≤ e
  · have chain : s.receivingChainKey.isSome = true := by
      rw [h.receiving, if_pos two]
      rfl
    have bound := h.received
    rw [if_pos two] at bound
    obtain ⟨t, skipped, reached, inside⟩ := h.skipTo apart two (announced.symm ▸ bound)
      (Nat.le_of_eq announced) (within chain)
    rw [if_pos chain, skipped, Outcome.andThen_ok]
    refine ⟨_, rfl, rfl, ?_⟩
    exact inside.dhStep lawful fresh (fun _ => by rw [reached, announced]) first unsent
  · have chain : s.receivingChainKey.isSome = false := by
      rw [h.receiving, if_neg two]
      rfl
    rw [chain]
    exact ⟨_, rfl, rfl, h.dhStep lawful fresh (fun h => absurd h two) first unsent⟩

theorem lookup_none (h : InEpoch sharedSecret secret count opened e s) {d : Nat} {n : UInt32}
    (distinct : DistinctUpTo secret (max e d))
    (ahead : ¬ Passed count e s.recvCounter.toNat d n.toNat) :
    s.skippedKeys.lookup (epochPublic P secret d, n) = none := by
  cases found : s.skippedKeys.lookup (epochPublic P secret d, n) with
  | none => rfl
  | some key =>
    obtain ⟨d', passed, _, same, _⟩ := (h.stored _ _ _).mp found
    have le : d' ≤ max e d := Nat.le_trans (Nat.le_of_lt passed.2.1) (Nat.le_max_left e d)
    have here : d = d' := distinct d d' (Nat.le_max_right e d) le same
    subst here
    exact absurd passed ahead

/-- What a party does with an honest message it has not opened, wherever in the schedule the
message comes from: it finds its key, and turns the ratchet when the epoch is new to it. -/
theorem receive (h : InEpoch sharedSecret secret count opened e s) (lawful : P.Lawful) {d : Nat}
    (distinct : DistinctUpTo secret (max e d)) (fresh : P.Secret) {header : MessageHeader}
    (from_ : header.ratchetPublicKey = epochPublic P secret d)
    (announced : header.prevChainLength.toNat = count (d - 2))
    (sent : header.messageNumber.toNat < count d) (parity : d % 2 ≠ e % 2) (reach : d ≤ e + 1)
    (unopened : ¬ opened d header.messageNumber.toNat) (first : count 0 = 0)
    (unsent : d = e + 1 → count (e + 2) = 0) (bounded : ∀ i, count i < 2 ^ 32)
    (new : d = e + 1 → ∀ i, i ≤ e + 1 → epochPublic P secret i ≠ P.publicKey fresh)
    (within : s.DecryptWithin fresh header) :
    ∃ t, s.takeMessageKey fresh header =
        (.ok (messageKeyAt P (epochChain P sharedSecret secret d) header.messageNumber.toNat), t) ∧
      (d ≤ e → InEpoch sharedSecret secret count
        (alsoOpened opened d header.messageNumber.toNat) e t) ∧
      (d = e + 1 → InEpoch sharedSecret (Function.update secret (e + 2) fresh) count
        (alsoOpened opened d header.messageNumber.toNat) (e + 2) t) := by
  by_cases passed : Passed count e s.recvCounter.toNat d header.messageNumber.toNat
  · have le : d ≤ e := Nat.le_of_lt passed.2.1
    rw [Nat.max_eq_left le] at distinct
    obtain ⟨t, taken, inside⟩ := h.takeStored distinct from_ passed unopened fresh
    exact ⟨t, taken, fun _ => inside, fun new => by omega⟩
  · have unstored : s.skippedKeys.lookup (header.ratchetPublicKey, header.messageNumber) = none := by
      rw [from_]
      exact h.lookup_none distinct passed
    obtain ⟨before, limit⟩ := within (by rw [unstored]; rfl)
    have last : d + 1 = e ∨ d = e + 1 := by
      unfold Passed at passed
      by_cases last : d + 1 = e
      · exact .inl last
      · rw [if_neg last] at passed
        omega
    have top := bounded d
    rw [RatchetState.takeMessageKey_unstored unstored fresh]
    rcases last with rfl | rfl
    · -- the chain being read
      have two : 2 ≤ d + 1 := by
        rcases Nat.eq_zero_or_pos d with rfl | positive
        · omega
        · omega
      have same : s.needDhRatchet header = false := by
        rw [← Bool.not_eq_true, RatchetState.needDhRatchet_iff, h.peer, if_neg (by omega), from_]
        exact fun differ => differ rfl
      have ahead : s.recvCounter.toNat ≤ header.messageNumber.toNat := by
        unfold Passed at passed
        rw [if_pos rfl] at passed
        omega
      have still : s.turnRatchet fresh header = (.ok (), s) := by
        rw [RatchetState.turnRatchet, same]
        rfl
      rw [still] at limit
      rw [Nat.max_eq_left (Nat.le_succ d)] at distinct
      obtain ⟨t, read, inside⟩ := h.readChain distinct two ahead sent (by omega) limit
      rw [still, Outcome.andThen_ok]
      exact ⟨t, read, fun _ => inside, fun new => by omega⟩
    · -- the first message of an epoch to arrive
      rw [Nat.max_eq_right (Nat.le_succ e)] at distinct
      have need := h.needDhRatchet_next distinct from_
      obtain ⟨t, turned, start, inside⟩ := h.turn lawful distinct fresh from_ announced first
        (unsent rfl) (before need)
      have later := distinct.extend (new rfl)
      rw [turned] at limit
      obtain ⟨u, read, after⟩ := inside.readChain later (Nat.le_add_left 2 e) (n := header.messageNumber)
        (by rw [start]; exact Nat.zero_le _) sent (by omega) limit
      have same : epochChain P sharedSecret (Function.update secret (e + 2) fresh) (e + 1) =
          epochChain P sharedSecret secret (e + 1) :=
        congrArg Prod.snd (epochKeys_congr fun i hi => Function.update_of_ne (by omega) _ _)
      rw [turned, Outcome.andThen_ok, ← same]
      exact ⟨u, read, fun le => by omega, fun _ => after⟩

end InEpoch
end Echo.Signal
