import Echo.Signal.Persistence

/-! The ratchet as a debug build runs it: a counter that would wrap panics. Every chain-key
derivation and every key that is stored or taken out is written down as it happens. -/
namespace Echo.Signal.RatchetState
open Echo.Lib
variable {P : Primitives}

/-- `stored`, `advanced` and `sent` are one call of `kdf_ck` each, `taken` is none. -/
inductive Event (P : Primitives) where
  | stored (slot : Block 32 × UInt32) (messageKey : P.Key)
  | taken (slot : Block 32 × UInt32) (messageKey : P.Key)
  | advanced
  | sent

namespace Event

@[simp] def slot : Event P → Option (Block 32 × UInt32)
  | .stored slot _ | .taken slot _ => some slot
  | .advanced | .sent => none

@[simp] def isStored : Event P → Bool
  | .stored _ _ => true
  | .taken _ _ | .advanced | .sent => false

@[simp] def isLast : Event P → Bool
  | .stored _ _ => false
  | .taken _ _ | .advanced | .sent => true

@[simp] def isDerivation : Event P → Bool
  | .taken _ _ => false
  | .stored _ _ | .advanced | .sent => true

end Event

/-- What was done and how it ended; nothing when an addition overflowed. -/
abbrev Work (P : Primitives) (A : Type) := Option (List (Event P) × Outcome CoreError (RatchetState P) A)

namespace Work
variable {A B : Type}

def pure (o : Outcome CoreError (RatchetState P) A) : Work P A := some ([], o)

def andThen (work : Work P A) (next : A → RatchetState P → Work P B) : Work P B :=
  match work with
  | none => none
  | some (events, .error e, s) => some (events, .error e, s)
  | some (events, .ok a, s) => (next a s).map fun rest => (events ++ rest.1, rest.2)

end Work

/-- `+= 1` on a counter. -/
def increment (counter : UInt32) : Option UInt32 :=
  if counter = 0xFFFFFFFF then none else some (counter + 1)

def meteredStore (s : RatchetState P) : Work P Unit :=
  match s.receivingChainKey with
  | none => .pure (.ok (), s)
  | some chainKey =>
    let (newCk, messageKey) := kdfCk P chainKey
    (increment s.recvCounter).map fun recvCounter =>
      ([.stored (s.receivingSlot, s.recvCounter) messageKey], .ok (), { s with
        skippedKeys := s.skippedKeys.insert (s.receivingSlot, s.recvCounter) messageKey
        receivingChainKey := some newCk
        recvCounter })

def meteredSkipLoop (target : UInt32) : Nat → RatchetState P → Work P Unit
  | 0, s => .pure (.ok (), s)
  | fuel + 1, s =>
    if s.recvCounter < target then
      if s.skippedLen ≥ maxSkippedKeys then
        .pure (.error (.crypto ("Skipped-keys map full (" ++ toString maxSkippedKeys ++
          "); refusing to grow")), s)
      else Work.andThen s.meteredStore fun _ s => meteredSkipLoop target fuel s
    else .pure (.ok (), s)

def meteredSkip (s : RatchetState P) (target : UInt32) : Work P Unit :=
  if saturatingAdd s.recvCounter maxSkip < target then
    .pure (.error (.crypto ("Too many skipped messages (recv_counter=" ++ toString s.recvCounter ++
      ", target=" ++ toString target ++ ")")), s)
  else
    match s.receivingChainKey with
    | none => .pure (.ok (), s)
    | some _ => meteredSkipLoop target (target.toNat - s.recvCounter.toNat) s

def meteredTurn (s : RatchetState P) (fresh : P.Secret) (header : MessageHeader) : Work P Unit :=
  if s.needDhRatchet header then
    let finished :=
      if s.receivingChainKey.isSome then s.meteredSkip header.prevChainLength else .pure (.ok (), s)
    finished.andThen fun _ s => .pure (.ok (), s.dhRatchetStep fresh header.ratchetPublicKey)
  else .pure (.ok (), s)

def meteredAdvance (s : RatchetState P) : Work P P.Key :=
  match s.receivingChainKey with
  | none => .pure (.error (.crypto "No receiving chain key"), s)
  | some receivingChain =>
    let (newChainKey, messageKey) := kdfCk P receivingChain
    (increment s.recvCounter).map fun recvCounter =>
      ([.advanced], .ok messageKey, { s with receivingChainKey := some newChainKey, recvCounter })

def meteredTake (s : RatchetState P) (fresh : P.Secret) (header : MessageHeader) : Work P P.Key :=
  let slot := (header.ratchetPublicKey, header.messageNumber)
  match s.skippedKeys.lookup slot with
  | some messageKey =>
    some ([.taken slot messageKey], .ok messageKey, { s with skippedKeys := s.skippedKeys.erase slot })
  | none =>
    (s.meteredTurn fresh header).andThen fun _ s =>
      (s.meteredSkip header.messageNumber).andThen fun _ s => s.meteredAdvance

def meteredDecrypt (s : RatchetState P) (fresh : P.Secret) (header : MessageHeader) (ciphertext : Bytes) :
    Work P Bytes :=
  (s.meteredTake fresh header).map fun work =>
    (work.1, work.2.andThen fun messageKey s =>
      (decryptWithAd P messageKey ciphertext header.serialize, s))

def meteredEncrypt (s : RatchetState P) (nonce : Block 12) (plaintext : Bytes) :
    Work P (Bytes × MessageHeader) :=
  let (newChainKey, messageKey) := kdfCk P s.sendingChainKey
  let header : MessageHeader :=
    { ratchetPublicKey := s.sendingRatchetPublic
      prevChainLength := s.prevSendCounter
      messageNumber := s.sendCounter }
  (increment s.sendCounter).map fun sendCounter =>
    let after := { s with sendingChainKey := newChainKey, sendCounter }
    match encryptWithAd P messageKey nonce plaintext header.serialize with
    | .ok ciphertext => ([.sent], .ok (ciphertext, header), after)
    | .error e => ([.sent], .error e, after)

def meteredApply (s : RatchetState P) : Op P → Option (List (Event P) × RatchetState P)
  | .encrypt nonce plaintext => (s.meteredEncrypt nonce plaintext).map fun work => (work.1, work.2.2)
  | .decrypt fresh header ciphertext =>
    (s.meteredDecrypt fresh header ciphertext).map fun work => (work.1, work.2.2)

def meteredRun (s : RatchetState P) : List (Op P) → Option (List (List (Event P)) × RatchetState P)
  | [] => some ([], s)
  | op :: ops =>
    match s.meteredApply op with
    | none => none
    | some (events, t) => (t.meteredRun ops).map fun rest => (events :: rest.1, rest.2)

/- What the events of a call can be, one constructor for each thing it does to the state. -/
inductive Path : RatchetState P → List (Event P) → RatchetState P → Prop
  | nil (s : RatchetState P) : Path s [] s
  | stored {s t : RatchetState P} {events : List (Event P)} {chainKey : P.Key}
      (chain : s.receivingChainKey = some chainKey) (below : s.recvCounter ≠ 0xFFFFFFFF)
      (room : s.skippedLen < maxSkippedKeys) (rest : Path s.storeSkippedKey events t) :
      Path s (.stored (s.receivingSlot, s.recvCounter) (kdfCk P chainKey).2 :: events) t
  | taken {s t : RatchetState P} {events : List (Event P)} {slot : Block 32 × UInt32} {key : P.Key}
      (found : s.skippedKeys.lookup slot = some key)
      (rest : Path { s with skippedKeys := s.skippedKeys.erase slot } events t) :
      Path s (.taken slot key :: events) t
  | turned {s t : RatchetState P} {events : List (Event P)} (fresh : P.Secret) (peer : Block 32)
      (rest : Path (s.dhRatchetStep fresh peer) events t) : Path s events t
  | advanced {s t : RatchetState P} {events : List (Event P)} {chainKey : P.Key}
      (chain : s.receivingChainKey = some chainKey) (below : s.recvCounter ≠ 0xFFFFFFFF)
      (rest : Path s.advanceReceiving.2 events t) : Path s (.advanced :: events) t
  | sent {s t : RatchetState P} {events : List (Event P)} (below : s.sendCounter ≠ 0xFFFFFFFF)
      (rest : Path { s with sendingChainKey := (kdfCk P s.sendingChainKey).1,
                            sendCounter := s.sendCounter + 1 } events t) :
      Path s (.sent :: events) t

variable {s t : RatchetState P} {counter : UInt32} {op : Op P} {log : List (Event P)}

theorem Path.append {u : RatchetState P} {events more : List (Event P)} (first : Path s events t)
    (second : Path t more u) : Path s (events ++ more) u := by
  induction first with
  | nil s => exact second
  | stored chain below room _ ih => exact .stored chain below room (ih second)
  | taken found _ ih => exact .taken found (ih second)
  | turned fresh peer _ ih => exact .turned fresh peer (ih second)
  | advanced chain below _ ih => exact .advanced chain below (ih second)
  | sent below _ ih => exact .sent below (ih second)

def turns (events : List (Event P)) : Nat := events.countP Event.isLast
def stores (events : List (Event P)) : Nat := events.countP Event.isStored
def derivations (events : List (Event P)) : Nat := events.countP Event.isDerivation

/-- A piece of work that stands for the release build's `o`: it stores and ends at most so much,
and where it panics a counter had reached the top before the call ended. -/
def Work.Meters {A : Type} (s : RatchetState P) (work : Work P A) (o : Outcome CoreError (RatchetState P) A)
    (most ends : Nat) : Prop :=
  match work with
  | some (events, o') => o' = o ∧ Path s events o.2 ∧ stores events ≤ most ∧ turns events ≤ ends
  | none => ∃ events t, Path s events t ∧ turns events = 0 ∧
      (t.recvCounter = 0xFFFFFFFF ∨ t.sendCounter = 0xFFFFFFFF)

namespace Work.Meters
variable {A B : Type} {s : RatchetState P}

theorem pure (o : Outcome CoreError (RatchetState P) A) (same : o.2 = s) :
    Work.Meters s (.pure o) o 0 0 := by
  refine ⟨rfl, ?_, Nat.le_refl 0, Nat.le_refl 0⟩
  rw [same]
  exact .nil s

theorem andThen {work : Work P A} {o : Outcome CoreError (RatchetState P) A} {most : Nat}
    (first : Work.Meters s work o most 0) {next : A → RatchetState P → Work P B}
    {next' : A → RatchetState P → Outcome CoreError (RatchetState P) B} {more ends : Nat}
    (second : ∀ a t, o = (.ok a, t) → Work.Meters t (next a t) (next' a t) more ends) :
    Work.Meters s (work.andThen next) (o.andThen next') (most + more) ends := by
  cases work with
  | none => exact first
  | some done =>
    obtain ⟨events, o'⟩ := done
    obtain ⟨rfl, path, few, none⟩ := first
    obtain ⟨result, t⟩ := o'
    cases result with
    | error e =>
      exact ⟨rfl, path, Nat.le_add_right_of_le few, Nat.le_trans none (Nat.zero_le _)⟩
    | ok a =>
      have rest := second a t rfl
      change Work.Meters s ((next a t).map _) (next' a t) (most + more) ends
      cases step : next a t with
      | none =>
        rw [step] at rest
        obtain ⟨later, u, onward, still, top⟩ := rest
        refine ⟨events ++ later, u, path.append onward, ?_, top⟩
        rw [turns, List.countP_append]
        rw [turns] at none still
        omega
      | some done =>
        rw [step] at rest
        obtain ⟨same, onward, fewer, one⟩ := rest
        refine ⟨same, path.append onward, ?_, ?_⟩
        · rw [stores, List.countP_append]
          rw [stores] at few fewer
          omega
        · rw [turns, List.countP_append]
          rw [turns] at none one
          omega

theorem mono {work : Work P A} {o : Outcome CoreError (RatchetState P) A} {most more ends : Nat}
    (metered : Work.Meters s work o most ends) (less : most ≤ more) : Work.Meters s work o more ends := by
  cases work with
  | none => exact metered
  | some done =>
    obtain ⟨same, path, few, one⟩ := metered
    exact ⟨same, path, Nat.le_trans few less, one⟩

end Work.Meters

theorem ne_top_of_lt {a b : UInt32} (less : a < b) : a ≠ 0xFFFFFFFF := by
  rintro rfl
  have top : b.toNat < 2 ^ 32 := b.toNat_lt
  have bound := UInt32.lt_iff_toNat_lt.mp less
  have value : (0xFFFFFFFF : UInt32).toNat = 4294967295 := rfl
  omega

theorem increment_below (below : counter ≠ 0xFFFFFFFF) :
    increment counter = some (counter + 1) := if_neg below

theorem meteredStore_meters (chain : s.receivingChainKey.isSome = true)
    (below : s.recvCounter ≠ 0xFFFFFFFF) (room : s.skippedLen < maxSkippedKeys) :
    s.meteredStore.Meters s (.ok (), s.storeSkippedKey) 1 0 := by
  obtain ⟨chainKey, found⟩ := Option.isSome_iff_exists.mp chain
  have path : Path s [.stored (s.receivingSlot, s.recvCounter) (kdfCk P chainKey).2] s.storeSkippedKey :=
    .stored found below room (.nil _)
  rw [meteredStore, found, increment_below below]
  refine ⟨?_, path, Nat.le_refl 1, Nat.le_refl 0⟩
  rw [storeSkippedKey, found]
  rfl

theorem meteredSkipLoop_meters (target : UInt32) (fuel : Nat) (s : RatchetState P)
    (chain : s.receivingChainKey.isSome = true) :
    (meteredSkipLoop target fuel s).Meters s (skipLoop target fuel s) fuel 0 := by
  induction fuel generalizing s with
  | zero => exact .pure _ rfl
  | succ fuel ih =>
    rw [meteredSkipLoop, skipLoop]
    by_cases below : s.recvCounter < target
    · rw [if_pos below, if_pos below]
      by_cases full : s.skippedLen ≥ maxSkippedKeys
      · rw [if_pos full, if_pos full]
        exact (Work.Meters.pure _ rfl).mono (Nat.zero_le _)
      · rw [if_neg full, if_neg full]
        have still : s.storeSkippedKey.receivingChainKey.isSome = true := by
          rw [← chain]
          exact receivingChainKey_iterate s 1
        have first := meteredStore_meters chain (ne_top_of_lt below) (Nat.lt_of_not_ge full)
        have later : ∀ a t, ((Except.ok () : Except CoreError Unit), s.storeSkippedKey) = (.ok a, t) →
            (meteredSkipLoop target fuel t).Meters t (skipLoop target fuel t) fuel 0 := by
          intro a t reached
          cases reached
          exact ih _ still
        rw [Nat.add_comm fuel 1]
        exact first.andThen later
    · rw [if_neg below, if_neg below]
      exact (Work.Meters.pure _ rfl).mono (Nat.zero_le _)

theorem meteredSkip_meters (s : RatchetState P) (target : UInt32) :
    (s.meteredSkip target).Meters s (s.skipMessageKeys target) maxSkip.toNat 0 := by
  rw [meteredSkip, skipMessageKeys]
  by_cases far : saturatingAdd s.recvCounter maxSkip < target
  · rw [if_pos far, if_pos far]
    exact (Work.Meters.pure _ rfl).mono (Nat.zero_le _)
  · rw [if_neg far, if_neg far]
    cases chain : s.receivingChainKey with
    | none => exact (Work.Meters.pure _ rfl).mono (Nat.zero_le _)
    | some chainKey =>
      refine (meteredSkipLoop_meters target _ s (by rw [chain]; rfl)).mono ?_
      have near := mt (saturatingAdd_lt s.recvCounter maxSkip target).mpr far
      omega

theorem meteredTurn_meters (s : RatchetState P) (fresh : P.Secret) (header : MessageHeader) :
    (s.meteredTurn fresh header).Meters s (s.turnRatchet fresh header) maxSkip.toNat 0 := by
  rw [meteredTurn, turnRatchet]
  by_cases need : s.needDhRatchet header
  · rw [if_pos need, if_pos need]
    have step (t : RatchetState P) : Work.Meters t (.pure (.ok (), t.dhRatchetStep fresh header.ratchetPublicKey))
        (.ok (), t.dhRatchetStep fresh header.ratchetPublicKey) 0 0 :=
      ⟨rfl, .turned fresh header.ratchetPublicKey (.nil _), Nat.le_refl 0, Nat.le_refl 0⟩
    have finished : Work.Meters s
        (if s.receivingChainKey.isSome then s.meteredSkip header.prevChainLength else .pure (.ok (), s))
        (if s.receivingChainKey.isSome then s.skipMessageKeys header.prevChainLength else (.ok (), s))
        maxSkip.toNat 0 := by
      split
      · exact meteredSkip_meters s header.prevChainLength
      · exact (Work.Meters.pure _ rfl).mono (Nat.zero_le _)
    exact finished.andThen fun _ t _ => step t
  · rw [if_neg need, if_neg need]
    exact (Work.Meters.pure _ rfl).mono (Nat.zero_le _)

theorem meteredAdvance_meters (s : RatchetState P) : s.meteredAdvance.Meters s s.advanceReceiving 0 1 := by
  rw [meteredAdvance]
  cases chain : s.receivingChainKey with
  | none =>
    rw [advanceReceiving, chain]
    exact ⟨rfl, .nil s, Nat.le_refl 0, Nat.zero_le 1⟩
  | some chainKey =>
    by_cases top : s.recvCounter = 0xFFFFFFFF
    · rw [increment, if_pos top]
      exact ⟨[], s, .nil s, rfl, .inl top⟩
    · rw [increment_below top]
      refine ⟨?_, .advanced chain top (.nil _), Nat.le_refl 0, Nat.le_refl 1⟩
      rw [advanceReceiving, chain]
      rfl

theorem meteredTake_meters (s : RatchetState P) (fresh : P.Secret) (header : MessageHeader) :
    (s.meteredTake fresh header).Meters s (s.takeMessageKey fresh header) (2 * maxSkip.toNat) 1 := by
  rw [meteredTake]
  cases stored : s.skippedKeys.lookup (header.ratchetPublicKey, header.messageNumber) with
  | some messageKey =>
    rw [takeMessageKey_stored stored]
    exact ⟨rfl, .taken stored (.nil _), Nat.zero_le _, Nat.le_refl 1⟩
  | none =>
    rw [takeMessageKey_unstored stored, Nat.two_mul]
    exact (meteredTurn_meters s fresh header).andThen fun _ t _ =>
      (meteredSkip_meters t header.messageNumber).andThen fun _ u _ => meteredAdvance_meters u

theorem meteredDecrypt_meters (s : RatchetState P) (fresh : P.Secret) (header : MessageHeader)
    (ciphertext : Bytes) :
    (s.meteredDecrypt fresh header ciphertext).Meters s (s.decrypt fresh header ciphertext)
      (2 * maxSkip.toNat) 1 := by
  have taken := meteredTake_meters s fresh header
  have after := decrypt_state s fresh header ciphertext
  rw [meteredDecrypt]
  cases work : s.meteredTake fresh header with
  | none =>
    rw [work] at taken
    exact taken
  | some done =>
    rw [work] at taken
    obtain ⟨same, path, few, one⟩ := taken
    refine ⟨?_, ?_, few, one⟩
    · rw [decrypt, ← same]
    · rw [after]
      exact path

theorem meteredEncrypt_meters (s : RatchetState P) (nonce : Block 12) (plaintext : Bytes) :
    (s.meteredEncrypt nonce plaintext).Meters s (s.encrypt nonce plaintext) 0 1 := by
  by_cases top : s.sendCounter = 0xFFFFFFFF
  · rw [meteredEncrypt, increment, if_pos top]
    exact ⟨[], s, .nil s, rfl, .inr top⟩
  · have path : Path s [.sent] (s.encrypt nonce plaintext).2 := by
      rw [encrypt_state]
      exact .sent top (.nil _)
    have work : s.meteredEncrypt nonce plaintext = some ([.sent], s.encrypt nonce plaintext) := by
      rw [meteredEncrypt, increment_below top, encrypt]
      simp only [Option.map_some]
      cases encryptWithAd P (kdfCk P s.sendingChainKey).2 nonce plaintext
        (MessageHeader.mk s.sendingRatchetPublic s.prevSendCounter s.sendCounter).serialize <;> rfl
    rw [work]
    exact ⟨rfl, path, Nat.le_refl 0, Nat.le_refl 1⟩

theorem meteredApply_some {events : List (Event P)}
    (called : s.meteredApply op = some (events, t)) :
    t = (s.apply op).2 ∧ Path s events t ∧ stores events ≤ 2 * maxSkip.toNat ∧ turns events ≤ 1 := by
  cases op with
  | encrypt nonce plaintext =>
    have metered := meteredEncrypt_meters s nonce plaintext
    rw [meteredApply] at called
    obtain ⟨⟨events', o⟩, work, same⟩ := Option.map_eq_some_iff.mp called
    rw [work] at metered
    obtain ⟨rfl, path, few, one⟩ := metered
    cases same
    exact ⟨rfl, path, Nat.le_trans few (Nat.zero_le _), one⟩
  | decrypt fresh header ciphertext =>
    have metered := meteredDecrypt_meters s fresh header ciphertext
    rw [meteredApply] at called
    obtain ⟨⟨events', o⟩, work, same⟩ := Option.map_eq_some_iff.mp called
    rw [work] at metered
    obtain ⟨rfl, path, few, one⟩ := metered
    cases same
    exact ⟨rfl, path, few, one⟩

theorem meteredApply_none (panicked : s.meteredApply op = none) :
    ∃ events t, Path s events t ∧ turns events = 0 ∧
      (t.recvCounter = 0xFFFFFFFF ∨ t.sendCounter = 0xFFFFFFFF) := by
  cases op with
  | encrypt nonce plaintext =>
    have metered := meteredEncrypt_meters s nonce plaintext
    rw [Option.map_eq_none_iff.mp panicked] at metered
    exact metered
  | decrypt fresh header ciphertext =>
    have metered := meteredDecrypt_meters s fresh header ciphertext
    rw [Option.map_eq_none_iff.mp panicked] at metered
    exact metered

theorem derivations_le (events : List (Event P)) : derivations events ≤ stores events + turns events := by
  induction events with
  | nil => exact Nat.le_refl 0
  | cons e events ih =>
    rw [derivations, stores, turns] at ih ⊢
    rw [List.countP_cons, List.countP_cons, List.countP_cons]
    cases e <;> simp <;> omega

/-- The stored keys of the chain being read that lie behind the counter. -/
def storedBehind (s : RatchetState P) : Finset (Block 32 × UInt32) :=
  s.skippedKeys.keys.filter fun slot => slot.1 = s.receivingSlot ∧ slot.2 < s.recvCounter

/-- Entry `j` of the log stored this key, and the slot was not touched since. -/
def Holds (log : List (Event P)) (slot : Block 32 × UInt32) (key : P.Key) (j : Nat) : Prop :=
  log[j]? = some (.stored slot key) ∧ ∀ m e, j < m → log[m]? = some e → e.slot ≠ some slot

def Traced (log : List (Event P)) : Prop :=
  ∀ i slot key, log[i]? = some (.taken slot key) → ∃ j < i, Holds (log.take i) slot key j

structure Accounted (log : List (Event P)) (s : RatchetState P) : Prop where
  size : s.skippedLen ≤ maxSkippedKeys
  received : s.recvCounter.toNat ≤ turns log + s.storedBehind.card
  sent : s.sendCounter.toNat ≤ turns log
  held : ∀ slot key, s.skippedKeys.lookup slot = some key → ∃ j, Holds log slot key j
  traced : Traced log

theorem toNat_next (below : counter ≠ 0xFFFFFFFF) :
    (counter + 1).toNat = counter.toNat + 1 := by
  have top : counter.toNat < 2 ^ 32 := counter.toNat_lt
  have apart : counter.toNat ≠ 4294967295 := fun same => below (UInt32.toNat_inj.mp same)
  rw [UInt32.toNat_add, UInt32.toNat_one]
  omega

theorem lt_next {n : UInt32} (below : counter ≠ 0xFFFFFFFF) (behind : n < counter) :
    n < counter + 1 := by
  have less := UInt32.lt_iff_toNat_lt.mp behind
  rw [UInt32.lt_iff_toNat_lt, toNat_next below]
  omega

theorem mem_storedBehind {slot : Block 32 × UInt32} :
    slot ∈ s.storedBehind ↔
      slot ∈ s.skippedKeys ∧ slot.1 = s.receivingSlot ∧ slot.2 < s.recvCounter := by
  rw [storedBehind, Finset.mem_filter, Finmap.mem_keys]

theorem storedBehind_store {chainKey : P.Key} (chain : s.receivingChainKey = some chainKey)
    (below : s.recvCounter ≠ 0xFFFFFFFF) : s.storedBehind.card + 1 ≤ s.storeSkippedKey.storedBehind.card := by
  have fresh : (s.receivingSlot, s.recvCounter) ∉ s.storedBehind := by
    rw [mem_storedBehind]
    rintro ⟨-, -, self⟩
    exact absurd self (UInt32.lt_irrefl _)
  rw [← Finset.card_insert_of_notMem fresh]
  refine Finset.card_le_card fun slot inside => ?_
  rw [storeSkippedKey, chain, mem_storedBehind]
  rcases Finset.mem_insert.mp inside with rfl | old
  · refine ⟨Finmap.mem_insert.mpr (.inl rfl), rfl, ?_⟩
    rw [UInt32.lt_iff_toNat_lt, toNat_next below]
    exact Nat.lt_succ_self _
  · obtain ⟨stored, same, behind⟩ := mem_storedBehind.mp old
    exact ⟨Finmap.mem_insert.mpr (.inr stored), same, lt_next below behind⟩

theorem storedBehind_take (s : RatchetState P) (slot : Block 32 × UInt32) :
    s.storedBehind.card ≤ ({ s with skippedKeys := s.skippedKeys.erase slot } : RatchetState P).storedBehind.card +
        1 := by
  have rest : s.storedBehind.erase slot ⊆
      ({ s with skippedKeys := s.skippedKeys.erase slot } : RatchetState P).storedBehind := by
    intro other inside
    obtain ⟨apart, old⟩ := Finset.mem_erase.mp inside
    obtain ⟨stored, same, behind⟩ := mem_storedBehind.mp old
    exact mem_storedBehind.mpr ⟨Finmap.mem_erase.mpr ⟨apart, stored⟩, same, behind⟩
  have smaller := Finset.card_le_card rest
  have one := Finset.pred_card_le_card_erase (s := s.storedBehind) (a := slot)
  omega

theorem storedBehind_advance {chainKey : P.Key} (chain : s.receivingChainKey = some chainKey)
    (below : s.recvCounter ≠ 0xFFFFFFFF) : s.storedBehind.card ≤ s.advanceReceiving.2.storedBehind.card := by
  refine Finset.card_le_card fun slot old => ?_
  obtain ⟨stored, same, behind⟩ := mem_storedBehind.mp old
  rw [advanceReceiving, chain, mem_storedBehind]
  exact ⟨stored, same, lt_next below behind⟩

theorem turns_snoc (log : List (Event P)) (e : Event P) :
    turns (log ++ [e]) = turns log + if e.isLast then 1 else 0 := by
  rw [turns, List.countP_append, List.countP_singleton]
  rfl

theorem Holds.snoc {log : List (Event P)} {slot : Block 32 × UInt32} {key : P.Key} {j : Nat}
    (h : Holds log slot key j) {e : Event P} (aside : e.slot ≠ some slot) : Holds (log ++ [e]) slot key j := by
  obtain ⟨stored, since⟩ := h
  have inside : j < log.length := (List.getElem?_eq_some_iff.mp stored).1
  refine ⟨?_, ?_⟩
  · rw [List.getElem?_append_left inside]
    exact stored
  · intro m f later found
    rcases Nat.lt_or_ge m log.length with old | new
    · rw [List.getElem?_append_left old] at found
      exact since m f later found
    · rw [List.getElem?_append_right new] at found
      have last := List.mem_singleton.mp (List.mem_of_getElem? found)
      rw [last]
      exact aside

theorem Holds.last (log : List (Event P)) (slot : Block 32 × UInt32) (key : P.Key) :
    Holds (log ++ [.stored slot key]) slot key log.length := by
  refine ⟨List.getElem?_concat_length, ?_⟩
  intro m e later found
  rw [List.getElem?_append_right (Nat.le_of_lt later)] at found
  have bound := (List.getElem?_eq_some_iff.mp found).1
  rw [List.length_singleton] at bound
  omega

theorem Traced.snoc {log : List (Event P)} (h : Traced log) {e : Event P}
    (source : ∀ slot key, e = .taken slot key → ∃ j, Holds log slot key j) : Traced (log ++ [e]) := by
  intro i slot key found
  rcases Nat.lt_or_ge i log.length with old | new
  · rw [List.getElem?_append_left old] at found
    rw [List.take_append_of_le_length (Nat.le_of_lt old)]
    exact h i slot key found
  · rw [List.getElem?_append_right new] at found
    have bound := (List.getElem?_eq_some_iff.mp found).1
    rw [List.length_singleton] at bound
    have here : i = log.length := by omega
    subst here
    have last := List.mem_singleton.mp (List.mem_of_getElem? found)
    obtain ⟨j, held⟩ := source slot key last.symm
    refine ⟨j, (List.getElem?_eq_some_iff.mp held.1).1, ?_⟩
    rw [List.take_left]
    exact held

namespace Accounted
variable {log : List (Event P)} {s t : RatchetState P}

theorem stored (h : Accounted log s) {chainKey : P.Key} (chain : s.receivingChainKey = some chainKey)
    (below : s.recvCounter ≠ 0xFFFFFFFF) (room : s.skippedLen < maxSkippedKeys) :
    Accounted (log ++ [.stored (s.receivingSlot, s.recvCounter) (kdfCk P chainKey).2]) s.storeSkippedKey := by
  have behind := storedBehind_store chain below
  have received := h.received
  have store : s.storeSkippedKey = { s with
      skippedKeys := s.skippedKeys.insert (s.receivingSlot, s.recvCounter) (kdfCk P chainKey).2
      receivingChainKey := some (kdfCk P chainKey).1
      recvCounter := s.recvCounter + 1 } := by rw [storeSkippedKey, chain]
  refine ⟨?_, ?_, ?_, ?_, ?_⟩
  · have grow := insert_keys_card_le s.skippedKeys (s.receivingSlot, s.recvCounter) (kdfCk P chainKey).2
    rw [store]
    exact Nat.le_trans grow room
  · rw [turns_snoc]
    rw [store] at behind ⊢
    rw [toNat_next below]
    simp only [Event.isLast, Bool.false_eq_true, if_false]
    omega
  · rw [turns_snoc, store]
    exact Nat.le_add_right_of_le h.sent
  · intro slot key found
    rw [store] at found
    by_cases here : slot = (s.receivingSlot, s.recvCounter)
    · subst here
      rw [Finmap.lookup_insert] at found
      cases found
      exact ⟨log.length, Holds.last log _ _⟩
    · rw [Finmap.lookup_insert_of_ne _ here] at found
      obtain ⟨j, held⟩ := h.held slot key found
      exact ⟨j, held.snoc fun same => here (Option.some.inj same).symm⟩
  · exact h.traced.snoc fun _ _ impossible => by cases impossible

theorem taken (h : Accounted log s) {slot : Block 32 × UInt32} {key : P.Key}
    (found : s.skippedKeys.lookup slot = some key) :
    Accounted (log ++ [.taken slot key]) { s with skippedKeys := s.skippedKeys.erase slot } := by
  have behind := storedBehind_take s slot
  have received := h.received
  refine ⟨?_, ?_, ?_, ?_, ?_⟩
  · refine Nat.le_trans (Finset.card_le_card fun other inside => ?_) h.size
    rw [Finmap.mem_keys] at inside ⊢
    exact (Finmap.mem_erase.mp inside).2
  · rw [turns_snoc]
    simp only [Event.isLast, if_true]
    omega
  · rw [turns_snoc]
    exact Nat.le_add_right_of_le h.sent
  · intro other key' left
    by_cases here : other = slot
    · subst here
      rw [Finmap.lookup_erase] at left
      cases left
    · rw [Finmap.lookup_erase_ne here] at left
      obtain ⟨j, held⟩ := h.held other key' left
      exact ⟨j, held.snoc fun same => here (Option.some.inj same).symm⟩
  · refine h.traced.snoc fun other key' same => ?_
    cases same
    exact h.held slot key found

theorem turned (h : Accounted log s) (fresh : P.Secret) (peer : Block 32) :
    Accounted log (s.dhRatchetStep fresh peer) :=
  ⟨h.size, Nat.zero_le _, Nat.zero_le _, h.held, h.traced⟩

theorem aside (h : Accounted log s) {e : Event P} (untouched : e.slot = none) (ends : e.isLast = true)
    (keys : t.skippedKeys = s.skippedKeys) (received : t.recvCounter.toNat ≤ turns log + t.storedBehind.card + 1)
    (sent : t.sendCounter.toNat ≤ turns log + 1) : Accounted (log ++ [e]) t := by
  refine ⟨?_, ?_, ?_, ?_, ?_⟩
  · rw [skippedLen, keys]
    exact h.size
  · rw [turns_snoc, if_pos ends]
    omega
  · rw [turns_snoc, if_pos ends]
    exact sent
  · intro slot key found
    rw [keys] at found
    obtain ⟨j, held⟩ := h.held slot key found
    refine ⟨j, held.snoc ?_⟩
    rw [untouched]
    exact (Option.some_ne_none slot).symm
  · refine h.traced.snoc fun slot key same => ?_
    rw [same] at untouched
    cases untouched

theorem advanced (h : Accounted log s) {chainKey : P.Key} (chain : s.receivingChainKey = some chainKey)
    (below : s.recvCounter ≠ 0xFFFFFFFF) : Accounted (log ++ [.advanced]) s.advanceReceiving.2 := by
  have behind := storedBehind_advance chain below
  have received := h.received
  have moved : s.advanceReceiving.2 = { s with
      receivingChainKey := some (kdfCk P chainKey).1, recvCounter := s.recvCounter + 1 } := by
    rw [advanceReceiving, chain]
  rw [moved] at behind ⊢
  refine h.aside rfl rfl rfl ?_ (Nat.le_add_right_of_le h.sent)
  rw [toNat_next below]
  omega

theorem send (h : Accounted log s) (below : s.sendCounter ≠ 0xFFFFFFFF) :
    Accounted (log ++ [.sent])
      { s with sendingChainKey := (kdfCk P s.sendingChainKey).1, sendCounter := s.sendCounter + 1 } := by
  refine h.aside rfl rfl rfl (Nat.le_add_right_of_le h.received) ?_
  rw [toNat_next below]
  exact Nat.succ_le_succ h.sent

theorem path (h : Accounted log s) {events : List (Event P)} (path : Path s events t) :
    Accounted (log ++ events) t := by
  induction path generalizing log with
  | nil s =>
    rw [List.append_nil]
    exact h
  | stored chain below room _ ih =>
    rw [List.append_cons]
    exact ih (h.stored chain below room)
  | taken found _ ih =>
    rw [List.append_cons]
    exact ih (h.taken found)
  | turned fresh peer _ ih => exact ih (h.turned fresh peer)
  | advanced chain below _ ih =>
    rw [List.append_cons]
    exact ih (h.advanced chain below)
  | sent below _ ih =>
    rw [List.append_cons]
    exact ih (h.send below)

theorem top (h : Accounted log s) (top : s.recvCounter = 0xFFFFFFFF ∨ s.sendCounter = 0xFFFFFFFF) :
    2 ^ 32 - maxSkippedKeys ≤ turns log + 1 := by
  have room : maxSkippedKeys = 2000 := rfl
  have value : (0xFFFFFFFF : UInt32).toNat = 4294967295 := rfl
  have behind : s.storedBehind.card ≤ maxSkippedKeys :=
    Nat.le_trans (Finset.card_filter_le _ _) h.size
  have received := h.received
  have sent := h.sent
  rcases top with received' | sent'
  · rw [received', value] at received
    omega
  · rw [sent', value] at sent
    omega

end Accounted

theorem Accounted.run {ops : List (Op P)} (h : Accounted log s)
    {calls : List (List (Event P))} (run : s.meteredRun ops = some (calls, t)) :
    t = s.afterOps ops ∧ Accounted (log ++ calls.flatten) t ∧
      ∀ events ∈ calls, derivations events ≤ 2 * maxSkip.toNat + 1 := by
  induction ops generalizing log s calls with
  | nil =>
    cases run
    rw [List.flatten_nil, List.append_nil]
    refine ⟨rfl, h, ?_⟩
    intro events impossible
    cases impossible
  | cons op ops ih =>
    rw [meteredRun] at run
    cases called : s.meteredApply op with
    | none =>
      rw [called] at run
      cases run
    | some done =>
      obtain ⟨events, u⟩ := done
      rw [called] at run
      obtain ⟨⟨later, t'⟩, rest, same⟩ := Option.map_eq_some_iff.mp run
      cases same
      obtain ⟨rfl, path, stored, ends⟩ := meteredApply_some called
      obtain ⟨reached, accounted, work⟩ := ih (h.path path) rest
      rw [List.append_assoc] at accounted
      refine ⟨reached, accounted, ?_⟩
      intro other inside
      rcases List.mem_cons.mp inside with rfl | old
      · exact Nat.le_trans (derivations_le _) (Nat.add_le_add stored ends)
      · exact work other old

theorem Accounted.unpanicked (ops : List (Op P))
    (h : Accounted log s) (few : turns log + ops.length < 2 ^ 32 - maxSkippedKeys) :
    ∃ calls t, s.meteredRun ops = some (calls, t) := by
  induction ops generalizing log s with
  | nil => exact ⟨[], s, rfl⟩
  | cons op ops ih =>
    rw [List.length_cons] at few
    rw [meteredRun]
    cases called : s.meteredApply op with
    | none =>
      obtain ⟨events, t, path, still, top⟩ := meteredApply_none called
      have bound := (h.path path).top top
      rw [turns, List.countP_append] at bound
      rw [turns] at still few
      omega
    | some done =>
      obtain ⟨events, t⟩ := done
      obtain ⟨-, path, -, ends⟩ := meteredApply_some called
      have fewer : turns (log ++ events) + ops.length < 2 ^ 32 - maxSkippedKeys := by
        rw [turns, List.countP_append]
        rw [turns] at few ends
        omega
      obtain ⟨calls, u, run⟩ := ih (h.path path) fewer
      exact ⟨events :: calls, u, Option.map_eq_some_iff.mpr ⟨_, run, rfl⟩⟩

/-- Every key taken out goes back to the entry that stored it, and no entry is used twice. -/
def RetrievedOnce (log : List (Event P)) : Prop :=
  ∃ source : Nat → Nat,
    (∀ i slot key, log[i]? = some (.taken slot key) →
      source i < i ∧ log[source i]? = some (.stored slot key)) ∧
    ∀ i j slot slot' key key', log[i]? = some (.taken slot key) → log[j]? = some (.taken slot' key') →
      source i = source j → i = j

theorem Traced.retrievedOnce (h : Traced log) : RetrievedOnce log := by
  have traced : ∀ i, ∃ j, ∀ slot key, log[i]? = some (.taken slot key) →
      j < i ∧ Holds (log.take i) slot key j := by
    intro i
    by_cases takes : ∃ slot key, log[i]? = some (.taken slot key)
    · obtain ⟨slot, key, found⟩ := takes
      obtain ⟨j, earlier, held⟩ := h i slot key found
      refine ⟨j, fun slot' key' found' => ?_⟩
      rw [found] at found'
      cases found'
      exact ⟨earlier, held⟩
    · exact ⟨0, fun slot key found => absurd ⟨slot, key, found⟩ takes⟩
  choose source entry using traced
  -- A later retrieval from the same entry would find the earlier one in between.
  have apart : ∀ i j slot slot' key key', log[i]? = some (.taken slot key) →
      log[j]? = some (.taken slot' key') → source i = source j → ¬ i < j := by
    intro i j slot slot' key key' first second same less
    obtain ⟨before, held⟩ := entry i slot key first
    obtain ⟨-, held'⟩ := entry j slot' key' second
    have stored := held.1
    have stored' := held'.1
    rw [List.getElem?_take_of_lt before] at stored
    rw [← same, List.getElem?_take_of_lt (Nat.lt_trans before less), stored] at stored'
    cases stored'
    refine held'.2 i (.taken slot key) (same ▸ before) ?_ rfl
    rw [List.getElem?_take_of_lt less]
    exact first
  refine ⟨source, ?_, ?_⟩
  · intro i slot key found
    obtain ⟨earlier, held⟩ := entry i slot key found
    refine ⟨earlier, ?_⟩
    rw [← List.getElem?_take_of_lt earlier]
    exact held.1
  · intro i j slot slot' key key' first second same
    rcases Nat.lt_trichotomy i j with less | equal | more
    · exact absurd less (apart i j slot slot' key key' first second same)
    · exact equal
    · exact absurd more (apart j i slot' slot key' key second first same.symm)

/-- A ratchet as `init_alice` or `init_bob` returns it. -/
def Initial (s : RatchetState P) : Prop :=
  (∃ fresh sharedSecret bobRatchetPublic, s = initAlice fresh sharedSecret bobRatchetPublic) ∨
    ∃ sharedSecret bobRatchetPrivate, s = initBob sharedSecret bobRatchetPrivate

theorem Initial.accounted (initial : s.Initial) : Accounted [] s := by
  rcases initial with ⟨fresh, sharedSecret, peer, rfl⟩ | ⟨sharedSecret, own, rfl⟩
  · refine ⟨Nat.zero_le _, Nat.zero_le _, Nat.zero_le _, ?_, ?_⟩
    · intro slot key found
      cases found
    · intro i slot key found
      cases found
  · refine ⟨Nat.zero_le _, Nat.zero_le _, Nat.zero_le _, ?_, ?_⟩
    · intro slot key found
      cases found
    · intro i slot key found
      cases found

/-- Whatever headers and ciphertexts arrive, work and memory stay inside the limits for as long as
the counters last, and that is `2 ^ 32 - MAX_SKIPPED_KEYS` calls at least. -/
theorem bounded_under_hostile_headers {s : RatchetState P} (initial : s.Initial) (ops : List (Op P)) :
    (∀ calls t, s.meteredRun ops = some (calls, t) →
      t = s.afterOps ops ∧ t.skippedLen ≤ maxSkippedKeys ∧
      (∀ events ∈ calls, derivations events ≤ 2 * maxSkip.toNat + 1) ∧ RetrievedOnce calls.flatten) ∧
    (ops.length < 2 ^ 32 - maxSkippedKeys → s.meteredRun ops ≠ none) := by
  constructor
  · intro calls t run
    obtain ⟨reached, accounted, work⟩ := initial.accounted.run run
    rw [List.nil_append] at accounted
    exact ⟨reached, accounted.size, work, accounted.traced.retrievedOnce⟩
  · intro few panicked
    have start : turns ([] : List (Event P)) + ops.length < 2 ^ 32 - maxSkippedKeys := by
      rw [turns, List.countP_nil, Nat.zero_add]
      exact few
    obtain ⟨calls, t, run⟩ := initial.accounted.unpanicked ops start
    rw [panicked] at run
    cases run

theorem meteredRun_panics (ops : List (Op P)) {calls : List (List (Event P))}
    (run : s.meteredRun ops = some (calls, t)) (panics : t.meteredApply op = none) :
    s.meteredRun (ops ++ [op]) = none := by
  induction ops generalizing s calls with
  | nil =>
    cases run
    rw [List.nil_append, meteredRun, panics]
  | cons first ops ih =>
    rw [meteredRun] at run
    rw [List.cons_append, meteredRun]
    cases called : s.meteredApply first with
    | none => rfl
    | some done =>
      rw [called] at run
      obtain ⟨⟨calls', t'⟩, rest, same⟩ := Option.map_eq_some_iff.mp run
      cases same
      simp only [ih rest, Option.map_none]

/-- Messages `first`, `first + 1`, … of the chain of `peer`, each in its turn. -/
def inOrder (fresh : P.Secret) (peer : Block 32) (first : Nat) : Nat → List (Op P)
  | 0 => []
  | k + 1 => .decrypt fresh ⟨peer, 0, UInt32.ofNat first⟩ [] :: inOrder fresh peer (first + 1) k

theorem inOrder_length (fresh : P.Secret) (peer : Block 32) (first k : Nat) :
    (inOrder fresh peer first k).length = k := by
  induction k generalizing first with
  | zero => rfl
  | succ k ih => rw [inOrder, List.length_cons, ih]

theorem ReadingAt.inOrder {peer : Block 32} {next len : Nat}
    (h : s.ReadingAt peer next len) (fresh : P.Secret) (room : len ≤ maxSkippedKeys) (k : Nat)
    (fits : next + k < 2 ^ 32) : (s.afterOps (inOrder fresh peer next k)).ReadingAt peer (next + k) len := by
  induction k generalizing s next with
  | zero => exact h
  | succ k ih =>
    have small : next < 2 ^ 32 := by omega
    have number : (UInt32.ofNat next).toNat = next := UInt32.toNat_ofNat_of_lt' small
    have read := h.read fresh 0 (UInt32.ofNat next)
    rw [number, Nat.sub_self, Nat.add_zero] at read
    obtain ⟨key, t, took, reading⟩ := read (Nat.le_refl _) (Nat.zero_le _) room (by omega)
    rw [RatchetState.inOrder, afterOps_decrypt, took, Nat.add_comm k 1, ← Nat.add_assoc]
    exact ih reading (by omega)

theorem ReadingAt.panics {peer : Block 32} {len : Nat}
    (h : s.ReadingAt peer 4294967295 len) (fresh : P.Secret) :
    s.meteredApply (.decrypt fresh ⟨peer, 0, 0xFFFFFFFF⟩ []) = none := by
  obtain ⟨chainKey, chain⟩ := Option.isSome_iff_exists.mp h.chain
  have top : s.recvCounter = 0xFFFFFFFF := UInt32.toNat_inj.mp h.counter
  have free : s.skippedKeys.lookup (peer, 0xFFFFFFFF) = none := h.free 0xFFFFFFFF (Nat.le_refl _)
  have still : s.meteredTurn fresh ⟨peer, 0, 0xFFFFFFFF⟩ = .pure (.ok (), s) := by
    rw [meteredTurn, h.need]
    rfl
  have near : ¬ saturatingAdd s.recvCounter maxSkip < 0xFFFFFFFF := by
    rw [saturatingAdd_lt, h.counter]
    decide
  have none : s.meteredSkip 0xFFFFFFFF = .pure (.ok (), s) := by
    rw [meteredSkip, if_neg near, chain, h.counter]
    rfl
  have last : s.meteredAdvance = Option.none := by
    rw [meteredAdvance, chain, increment, if_pos top]
    rfl
  have stopped : s.meteredTake fresh ⟨peer, 0, 0xFFFFFFFF⟩ = Option.none := by
    rw [meteredTake, free, still]
    change Work.andThen (.pure (.ok (), s)) _ = Option.none
    simp only [Work.andThen, Work.pure, none, last, Option.map_none]
  rw [meteredApply, meteredDecrypt, stopped]
  rfl

/- A chain whose counter is ahead of the calls by all the keys the map can hold. -/
def racing (k : Nat) : List (Op .plain) :=
  .decrypt zeroBlock ⟨zeroBlock, 0, 1000⟩ [] :: .decrypt zeroBlock ⟨zeroBlock, 0, 2001⟩ [] ::
    inOrder zeroBlock zeroBlock 2002 k

def raceStart : RatchetState .plain := initBob zeroBlock zeroBlock

theorem racing_reading (k : Nat) (fits : 2002 + k < 2 ^ 32) :
    (raceStart.afterOps (racing k)).ReadingAt zeroBlock (2002 + k) 2000 := by
  obtain ⟨key, s, took, first⟩ := initBob_read (P := .plain) zeroBlock zeroBlock zeroBlock
    zeroBlock 0 1000 (by decide)
  obtain ⟨key', t, took', second⟩ := first.read zeroBlock 0 2001 (by decide) (by decide) (by decide) (by decide)
  have started : raceStart.takeMessageKey zeroBlock ⟨zeroBlock, 0, 1000⟩ = (.ok key, s) := took
  rw [racing, afterOps_decrypt, started, afterOps_decrypt, took']
  exact second.inOrder zeroBlock (by decide) k fits

theorem racing_panics (k : Nat) (last : 2002 + k = 4294967295) :
    raceStart.meteredRun (racing k ++ [.decrypt zeroBlock ⟨zeroBlock, 0, 0xFFFFFFFF⟩ []]) = none := by
  have few : turns ([] : List (Event .plain)) + (racing k).length < 2 ^ 32 - maxSkippedKeys := by
    have room : maxSkippedKeys = 2000 := rfl
    rw [turns, List.countP_nil, racing, List.length_cons, List.length_cons, inOrder_length, room]
    omega
  have initial : raceStart.Initial := .inr ⟨_, _, rfl⟩
  obtain ⟨calls, t, run⟩ := initial.accounted.unpanicked (racing k) few
  obtain ⟨rfl, -⟩ := initial.accounted.run run
  have reading := racing_reading k (by omega)
  rw [last] at reading
  exact meteredRun_panics (racing k) run (reading.panics zeroBlock)

theorem counter_overflows :
    ¬ ∀ (s : RatchetState .plain) (ops : List (Op .plain)), s.Initial → ops.length < 2 ^ 32 →
      s.meteredRun ops ≠ none := by
  intro claimed
  obtain ⟨k, last⟩ : ∃ k, 2002 + k = 4294967295 := ⟨4294965293, rfl⟩
  have few : (racing k ++ [Op.decrypt zeroBlock ⟨zeroBlock, 0, 0xFFFFFFFF⟩ []]).length < 2 ^ 32 := by
    rw [List.length_append, racing, List.length_cons, List.length_cons, inOrder_length, List.length_singleton]
    omega
  exact claimed raceStart _ (.inr ⟨_, _, rfl⟩) few (racing_panics k last)

theorem bounded_skip :
    (∀ calls t, raceStart.meteredRun (racing 0) = some (calls, t) →
      t = raceStart.afterOps (racing 0) ∧ t.skippedLen ≤ maxSkippedKeys ∧
      (∀ events ∈ calls, derivations events ≤ 2 * maxSkip.toNat + 1) ∧ RetrievedOnce calls.flatten) ∧
    raceStart.meteredRun (racing 0) ≠ none :=
  have bounded := bounded_under_hostile_headers (.inr ⟨_, _, rfl⟩) (racing 0)
  ⟨bounded.1, bounded.2 (by decide)⟩

end Echo.Signal.RatchetState
