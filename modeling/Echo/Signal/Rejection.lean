import Echo.Signal.Skipping

/-! When a rejected message leaves the ratchet as it was. `decrypt` works on the live
state and does not put it back on an error, so only the rejections that come before the
first write are free of effect. -/
namespace Echo.Signal.RatchetState
open Echo.Lib
variable {P : Primitives}

/-- The skip to `target` fails before it stores a key. -/
def SkipRefused (s : RatchetState P) (target : UInt32) : Prop :=
  s.TooFar target ∨ (s.receivingChainKey.isSome = true ∧ s.recvCounter.toNat < target.toNat ∧
    maxSkippedKeys ≤ s.skippedLen)

/-- No stored key is claimed, and the first skip is refused or there is no chain to read. -/
def RejectedUntouched (s : RatchetState P) (header : MessageHeader) : Prop :=
  s.skippedKeys.lookup (header.ratchetPublicKey, header.messageNumber) = none ∧
  if s.needDhRatchet header then
    s.receivingChainKey.isSome = true ∧ s.SkipRefused header.prevChainLength
  else s.receivingChainKey = none ∨ s.SkipRefused header.messageNumber

/-- A skip keeps the peer's key. It leaves the state alone when it is refused or has
nothing to do, and otherwise moves the counter. -/
theorem skip_state (s : RatchetState P) (target : UInt32) :
    (s.skipMessageKeys target).2.receivingRatchetKey = s.receivingRatchetKey ∧
    (s.skipMessageKeys target).2.receivingChainKey.isSome = s.receivingChainKey.isSome ∧
    (s.SkipRefused target ∧ (∃ e, s.skipMessageKeys target = (.error e, s)) ∨
      ¬ s.SkipRefused target ∧ (s.skipMessageKeys target = (.ok (), s) ∨
        (s.recvCounter.toNat < (s.skipMessageKeys target).2.recvCounter.toNat ∧
          (s.skipMessageKeys target).2.recvCounter.toNat ≤ s.recvCounter.toNat + maxSkip.toNat))) := by
  have top : target.toNat < 2 ^ 32 := target.toNat_lt
  have reach : ¬ s.TooFar target → target.toNat ≤ s.recvCounter.toNat + maxSkip.toNat :=
    Nat.le_of_not_lt
  rcases skipMessageKeys_cases s target with
    ⟨far, e, eq⟩ | ⟨near, idle, eq⟩ | ⟨near, chain, ahead, ⟨room, eq⟩ | ⟨e, k, early, room, full, eq⟩⟩
  · rw [eq]
    exact ⟨rfl, rfl, .inl ⟨.inl far, e, rfl⟩⟩
  · have free : ¬ s.SkipRefused target := by
      rintro (far | ⟨chain, ahead, _⟩)
      · exact near far
      · rcases idle with none | behind
        · rw [none] at chain
          cases chain
        · omega
    rw [eq]
    exact ⟨rfl, rfl, .inr ⟨free, .inl rfl⟩⟩
  · have moved := recvCounter_iterate s (target.toNat - s.recvCounter.toNat) chain (by omega)
    have free : ¬ s.SkipRefused target := by
      rintro (far | ⟨_, _, full⟩)
      · exact near far
      · exact Nat.not_le_of_lt (room 0 (by omega)) full
    rw [eq]
    refine ⟨receivingRatchetKey_iterate s _, receivingChainKey_iterate s _, .inr ⟨free, .inr ?_⟩⟩
    have close := reach near
    simp only [moved]
    omega
  · have moved := recvCounter_iterate s k chain (by omega)
    rw [eq]
    refine ⟨receivingRatchetKey_iterate s k, receivingChainKey_iterate s k, ?_⟩
    cases k with
    | zero => exact .inl ⟨.inr ⟨chain, ahead, full⟩, e, rfl⟩
    | succ k =>
      have free : ¬ s.SkipRefused target := by
        rintro (far | ⟨_, _, full'⟩)
        · exact near far
        · exact Nat.not_le_of_lt (room 0 (Nat.succ_pos k)) full'
      have close := reach near
      refine .inr ⟨free, .inr ?_⟩
      simp only [moved]
      omega

theorem advance_receivingRatchetKey (s : RatchetState P) :
    s.advanceReceiving.2.receivingRatchetKey = s.receivingRatchetKey := by
  unfold advanceReceiving
  split <;> rfl

theorem readChain_receivingRatchetKey (s : RatchetState P) (target : UInt32) :
    (Outcome.andThen (s.skipMessageKeys target) fun _ s => s.advanceReceiving).2.receivingRatchetKey =
      s.receivingRatchetKey := by
  have first := (skip_state s target).1
  refine Outcome.andThen_state _ _ (fun t : RatchetState P => t.receivingRatchetKey = s.receivingRatchetKey) first ?_
  intro _ t same
  rw [advance_receivingRatchetKey, same]

theorem readChain_unchanged_iff (s : RatchetState P) (target : UInt32) :
    (Outcome.andThen (s.skipMessageKeys target) fun _ s => s.advanceReceiving).2 = s ↔
      s.receivingChainKey = none ∨ s.SkipRefused target := by
  obtain ⟨_, chainKept, ⟨refused, e, eq⟩ | ⟨free, eq | ⟨moved, limit⟩⟩⟩ := skip_state s target
  · rw [eq]
    exact ⟨fun _ => .inr refused, fun _ => rfl⟩
  · rw [eq, Outcome.andThen_ok]
    cases chain : s.receivingChainKey with
    | none =>
      have idle : s.advanceReceiving.2 = s := by rw [advanceReceiving, chain]
      exact ⟨fun _ => .inl rfl, fun _ => idle⟩
    | some chainKey =>
      have next : s.advanceReceiving.2.recvCounter = s.recvCounter + 1 := by
        rw [advanceReceiving, chain]
      constructor
      · intro same
        rw [same] at next
        have differ : s.recvCounter.toNat = (s.recvCounter.toNat + 1) % 2 ^ 32 := by
          simpa using congrArg UInt32.toNat next
        have bound : s.recvCounter.toNat < 2 ^ 32 := s.recvCounter.toNat_lt
        omega
      · rintro (impossible | refused)
        · cases impossible
        · exact absurd refused free
  · have bound : s.recvCounter.toNat < 2 ^ 32 := s.recvCounter.toNat_lt
    have small : maxSkip.toNat = 1000 := rfl
    constructor
    · intro same
      refine False.elim ?_
      rcases result : s.skipMessageKeys target with ⟨r, t⟩
      rw [result] at moved limit same
      simp only at moved limit
      have top : t.recvCounter.toNat < 2 ^ 32 := t.recvCounter.toNat_lt
      cases r with
      | error e =>
        rw [Outcome.andThen_error] at same
        rw [show t = s from same] at moved
        exact Nat.lt_irrefl _ moved
      | ok u =>
        rw [Outcome.andThen_ok, advanceReceiving] at same
        split at same
        · rw [show t = s from same] at moved
          exact Nat.lt_irrefl _ moved
        · have counter : (t.recvCounter + 1).toNat = s.recvCounter.toNat :=
            congrArg (fun q : RatchetState P => q.recvCounter.toNat) same
          rw [UInt32.toNat_add, UInt32.toNat_one] at counter
          -- a wrap to 0 needs a counter near 2^32, a thousand past the old one at most
          omega
    · rintro (none | refused)
      · refine absurd moved ?_
        rcases skipMessageKeys_cases s target with
          ⟨_, e, eq⟩ | ⟨_, _, eq⟩ | ⟨_, chain, _⟩
        · rw [eq]
          exact Nat.lt_irrefl _
        · rw [eq]
          exact Nat.lt_irrefl _
        · rw [none] at chain
          cases chain
      · exact absurd refused free

/-- The state after `decrypt` is the state it was called on exactly when the message is
turned away before the first write; a message that is accepted always moves it. -/
theorem takeMessageKey_unchanged_iff (s : RatchetState P) (fresh : P.Secret) (header : MessageHeader) :
    (s.takeMessageKey fresh header).2 = s ↔ s.RejectedUntouched header := by
  cases stored : s.skippedKeys.lookup (header.ratchetPublicKey, header.messageNumber) with
  | some messageKey =>
    rw [takeMessageKey_stored stored, RejectedUntouched, stored]
    simp only [reduceCtorEq, false_and, iff_false]
    intro same
    have erased := congrArg (fun t : RatchetState P =>
      t.skippedKeys.lookup (header.ratchetPublicKey, header.messageNumber)) same
    simp only [Finmap.lookup_erase, stored] at erased
    cases erased
  | none =>
    rw [takeMessageKey_unstored stored, RejectedUntouched]
    simp only [stored, true_and]
    by_cases need : s.needDhRatchet header = true
    · rw [if_pos need, turnRatchet, if_pos need]
      have other := (needDhRatchet_iff s header).mp need
      -- with the DH step taken, the peer's key has changed for good
      have stepped : ∀ t : RatchetState P,
          (Outcome.andThen ((.ok (), t.dhRatchetStep fresh header.ratchetPublicKey) :
              Outcome CoreError (RatchetState P) Unit) fun _ s =>
            Outcome.andThen (s.skipMessageKeys header.messageNumber) fun _ s =>
              s.advanceReceiving).2 ≠ s := by
        intro t same
        have key := readChain_receivingRatchetKey (t.dhRatchetStep fresh header.ratchetPublicKey)
          header.messageNumber
        rw [Outcome.andThen_ok] at same
        rw [same] at key
        exact other key
      cases chain : s.receivingChainKey with
      | none =>
        simp only [Option.isSome_none, Bool.false_eq_true, if_false, false_and, iff_false]
        exact stepped s
      | some chainKey =>
        simp only [Option.isSome_some, if_true, true_and]
        obtain ⟨_, _, ⟨refused, e, eq⟩ | ⟨free, eq | ⟨moved, _⟩⟩⟩ := skip_state s header.prevChainLength
        · rw [eq]
          exact ⟨fun _ => refused, fun _ => rfl⟩
        · rw [eq]
          exact ⟨fun same => absurd same (stepped s), fun refused => absurd refused free⟩
        · refine ⟨fun same => False.elim ?_, fun refused => absurd refused free⟩
          rcases result : s.skipMessageKeys header.prevChainLength with ⟨r, t⟩
          rw [result] at moved same
          cases r with
          | error e =>
            simp only [Outcome.andThen_error] at same moved
            rw [same] at moved
            exact Nat.lt_irrefl _ moved
          | ok u => exact stepped t same
    · rw [if_neg need, turnRatchet, if_neg need]
      exact readChain_unchanged_iff s header.messageNumber

/- Runs in which some of the calls, marked `true`, are wires an attacker slipped in. -/
def genuineOps (run : List (Bool × Op P)) : List (Op P) :=
  (run.filter (fun call => !call.1)).map Prod.snd

def genuineReplies : RatchetState P → List (Bool × Op P) → List Reply
  | _, [] => []
  | s, (forged, op) :: rest =>
    if forged then genuineReplies (s.apply op).2 rest
    else (s.apply op).1 :: genuineReplies (s.apply op).2 rest

/-- Each forged call, at the state it meets, is a message turned away untouched. -/
def ForgeriesUntouched : RatchetState P → List (Bool × Op P) → Prop
  | _, [] => True
  | s, (forged, op) :: rest =>
    (forged = true → ∃ fresh header ciphertext, op = .decrypt fresh header ciphertext ∧
      s.RejectedUntouched header) ∧ ForgeriesUntouched (s.apply op).2 rest

theorem apply_decrypt_untouched {s : RatchetState P} {fresh : P.Secret} {header : MessageHeader}
    (ciphertext : Bytes) (untouched : s.RejectedUntouched header) :
    (s.apply (.decrypt fresh header ciphertext)).2 = s := by
  change (s.decrypt fresh header ciphertext).2 = s
  rw [decrypt_state]
  exact (takeMessageKey_unchanged_iff s fresh header).mpr untouched

theorem genuineReplies_eq (run : List (Bool × Op P)) (s : RatchetState P)
    (untouched : s.ForgeriesUntouched run) :
    s.genuineReplies run = s.replies (genuineOps run) := by
  induction run generalizing s with
  | nil => rfl
  | cons call rest ih =>
    obtain ⟨forged, op⟩ := call
    have tail := ih (s.apply op).2 untouched.2
    cases forged with
    | false =>
      simp only [genuineReplies, Bool.false_eq_true, if_false, tail]
      rfl
    | true =>
      obtain ⟨fresh, header, ciphertext, rfl, here⟩ := untouched.1 rfl
      simp only [genuineReplies, if_true, tail]
      rw [apply_decrypt_untouched ciphertext here]
      rfl

/-- A rejected message leaves every field as it was exactly when it is turned away before
the first write; and forged wires of that kind do not change any reply of a run. -/
theorem rejection_untouched (P : Primitives) :
    (∀ (s : RatchetState P) fresh header ciphertext e,
      (s.decrypt fresh header ciphertext).1 = .error e →
        ((s.decrypt fresh header ciphertext).2 = s ↔ s.RejectedUntouched header)) ∧
    ∀ (s : RatchetState P) run, s.ForgeriesUntouched run →
      s.genuineReplies run = s.replies (genuineOps run) := by
  refine ⟨?_, fun s run untouched => genuineReplies_eq run s untouched⟩
  intro s fresh header ciphertext e _
  rw [decrypt_state]
  exact takeMessageKey_unchanged_iff s fresh header

/-- Alice's first wire, then the same header with no ciphertext: the copy is rejected as too
short, yet it moves Bob's ratchet, and the genuine wire no longer decrypts. -/
theorem truncated_copy_moves_ratchet :
    let nonce : Block 12 := ⟨List.replicate 12 0, rfl⟩
    let alice : RatchetState .counting := initAlice 3 7 (Primitives.counting.publicKey 5)
    let bob : RatchetState .counting := initBob 7 5
    let header : MessageHeader := ⟨Primitives.counting.publicKey 3, 0, 0⟩
    let wire : Bytes := nonce.toList ++ [104, 105] ++ Primitives.countingTag 17 header.serialize
    (alice.encrypt nonce [104, 105]).1 = .ok (wire, header) ∧
    (bob.decrypt 9 header wire).1 = .ok [104, 105] ∧
    (bob.decrypt 9 header []).1 =
      .error (.crypto "Ciphertext too short for AES-GCM (need >= 28 bytes)") ∧
    (bob.decrypt 9 header []).2 ≠ bob ∧
    ((bob.decrypt 9 header []).2.decrypt 11 header wire).1 =
      .error (.crypto "AES-GCM decrypt failed: aead::Error") := by
  refine ⟨by rfl, by rfl, by rfl, ?_, by rfl⟩
  intro same
  have counter := congrArg RatchetState.recvCounter same
  revert counter
  decide

end Echo.Signal.RatchetState
