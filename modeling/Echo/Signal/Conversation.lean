import Echo.Signal.Epoch

/- Two honest parties and the wires between them: any interleaving, any order, any loss. -/
namespace Echo.Signal
open Echo.Lib

inductive Party where
  | alice
  | bob
  deriving DecidableEq

namespace Party

def other : Party → Party
  | alice => bob
  | bob => alice

def parity : Party → Nat
  | alice => 1
  | bob => 0

theorem other_other (p : Party) : p.other.other = p := by cases p <;> rfl
theorem other_ne (p : Party) : p.other ≠ p := by cases p <;> decide
theorem parity_le_one (p : Party) : p.parity ≤ 1 := by cases p <;> decide
theorem parity_adjacent (p : Party) : p.parity ≤ p.other.parity + 1 := by cases p <;> decide
theorem parity_ne (p : Party) : p.parity ≠ p.other.parity := by cases p <;> decide
theorem eq_or_other (p q : Party) : q = p ∨ q = p.other := by
  cases p <;> cases q <;> decide

end Party

structure Wire where
  sender : Party
  header : MessageHeader
  ciphertext : Bytes
  plaintext : Bytes

/-- Both ratchets, the wires produced so far, the result of each delivery by wire index, and
the public keys of the DH pairs generated so far. -/
structure Conversation (P : Primitives) where
  state : Party → RatchetState P
  wires : List Wire
  log : List (Nat × Except CoreError Bytes)
  publicKeys : List (Block 32)

inductive Action (P : Primitives) where
  | encrypt (sender : Party) (nonce : Block 12) (plaintext : Bytes)
  | deliver (index : Nat) (fresh : P.Secret)

namespace Conversation
variable {P : Primitives}

def start (sharedSecret : P.Key) (alicePrivate bobPrivate : P.Secret) : Conversation P where
  state
    | .alice => .initAlice alicePrivate sharedSecret (P.publicKey bobPrivate)
    | .bob => .initBob sharedSecret bobPrivate
  wires := []
  log := []
  publicKeys := [P.publicKey alicePrivate, P.publicKey bobPrivate]

/-- `decrypt` generates a key pair exactly when it has no stored key and sees a new peer key. -/
def generatesKey (s : RatchetState P) (header : MessageHeader) : Bool :=
  (s.skippedKeys.lookup (header.ratchetPublicKey, header.messageNumber)).isNone && s.needDhRatchet header

def act (c : Conversation P) : Action P → Conversation P
  | .encrypt sender nonce plaintext =>
    let (result, after) := (c.state sender).encrypt nonce plaintext
    { c with
      state := Function.update c.state sender after
      wires := match result with
        | .ok (ciphertext, header) => c.wires ++ [⟨sender, header, ciphertext, plaintext⟩]
        | .error _ => c.wires }
  | .deliver index fresh =>
    match c.wires[index]? with
    | none => c
    | some wire =>
      let receiver := wire.sender.other
      let (result, after) := (c.state receiver).decrypt fresh wire.header wire.ciphertext
      { c with
        state := Function.update c.state receiver after
        log := c.log ++ [(index, result)]
        publicKeys :=
          if generatesKey (c.state receiver) wire.header then c.publicKeys ++ [P.publicKey fresh]
          else c.publicKeys }

def after (c : Conversation P) (run : List (Action P)) : Conversation P := run.foldl act c

def bobMayEncrypt (c : Conversation P) : Bool :=
  c.log.any fun entry => entry.2.toBool && c.wires[entry.1]?.any (fun wire => wire.sender == .alice)

def Allowed (c : Conversation P) : Action P → Prop
  | .encrypt sender _ _ => sender = .bob → c.bobMayEncrypt = true
  | .deliver index fresh =>
    match c.wires[index]? with
    | none => False
    | some wire =>
      index ∉ c.log.map Prod.fst ∧
      (c.state wire.sender.other).DecryptWithin fresh wire.header ∧
      (generatesKey (c.state wire.sender.other) wire.header = true →
        P.publicKey fresh ∉ c.publicKeys)

instance (c : Conversation P) (a : Action P) : Decidable (c.Allowed a) :=
  match a with
  | .encrypt sender _ _ => inferInstanceAs (Decidable (sender = .bob → c.bobMayEncrypt = true))
  | .deliver index fresh =>
    match found : c.wires[index]? with
    | none => .isFalse (by simp only [Allowed, found, not_false_eq_true])
    | some wire => decidable_of_iff
        (index ∉ c.log.map Prod.fst ∧ (c.state wire.sender.other).DecryptWithin fresh wire.header ∧
          (generatesKey (c.state wire.sender.other) wire.header = true →
            P.publicKey fresh ∉ c.publicKeys))
        (by simp only [Allowed, found])

def Admissible : Conversation P → List (Action P) → Prop
  | _, [] => True
  | c, a :: run => c.Allowed a ∧ (c.act a).Admissible run

/-- No send counter is at its last value when `encrypt` is called, so none wraps to 0. -/
def CounterFits (c : Conversation P) : Action P → Prop
  | .encrypt sender _ _ => (c.state sender).sendCounter.toNat + 1 < 2 ^ 32
  | .deliver _ _ => True

instance (c : Conversation P) (a : Action P) : Decidable (c.CounterFits a) :=
  match a with
  | .encrypt sender _ _ => inferInstanceAs (Decidable ((c.state sender).sendCounter.toNat + 1 < 2 ^ 32))
  | .deliver _ _ => .isTrue trivial

def Unwrapped : Conversation P → List (Action P) → Prop
  | _, [] => True
  | c, a :: run => c.CounterFits a ∧ (c.act a).Unwrapped run

instance decidableAdmissible (c : Conversation P) (run : List (Action P)) : Decidable (c.Admissible run) :=
  match run with
  | [] => .isTrue trivial
  | a :: run => @instDecidableAnd _ _ _ (decidableAdmissible (c.act a) run)

instance decidableUnwrapped (c : Conversation P) (run : List (Action P)) : Decidable (c.Unwrapped run) :=
  match run with
  | [] => .isTrue trivial
  | a :: run => @instDecidableAnd _ _ _ (decidableUnwrapped (c.act a) run)

def DeliveredIntact (c : Conversation P) : Prop :=
  ∀ index result, (index, result) ∈ c.log →
    ∃ wire, c.wires[index]? = some wire ∧ result = .ok wire.plaintext

end Conversation

/- What the proof remembers of a run and the parties do not: the private key and the number
of `encrypt` calls of each epoch, each party's epoch, and where each wire was sent. -/
structure Ledger (P : Primitives) where
  secret : Nat → P.Secret
  count : Nat → Nat
  epoch : Party → Nat
  place : Nat → Nat × Nat

variable {P : Primitives}

def Ledger.start (alicePrivate bobPrivate : P.Secret) : Ledger P where
  secret e := if e = 0 then bobPrivate else alicePrivate
  count _ := 0
  epoch := Party.parity
  place _ := (0, 0)

structure SentAt (sharedSecret : P.Key) (l : Ledger P) (wire : Wire) (d n : Nat) : Prop where
  side : d % 2 = wire.sender.parity
  begun : d ≤ l.epoch wire.sender
  sent : n < l.count d
  key : wire.header.ratchetPublicKey = epochPublic P l.secret d
  announced : wire.header.prevChainLength.toNat = l.count (d - 2)
  number : wire.header.messageNumber.toNat = n
  opens : decryptWithAd P (messageKeyAt P (epochChain P sharedSecret l.secret d) n) wire.ciphertext
    wire.header.serialize = .ok wire.plaintext

theorem SentAt.keep {sharedSecret : P.Key} {l l' : Ledger P} {wire : Wire} {d n : Nat}
    (h : SentAt sharedSecret l wire d n) (secret : ∀ i, i ≤ d → l'.secret i = l.secret i)
    (epoch : l.epoch wire.sender ≤ l'.epoch wire.sender) (count : l.count d ≤ l'.count d)
    (before : l'.count (d - 2) = l.count (d - 2)) : SentAt sharedSecret l' wire d n := by
  have chain : epochChain P sharedSecret l'.secret d = epochChain P sharedSecret l.secret d :=
    congrArg Prod.snd (epochKeys_congr secret)
  refine ⟨h.side, Nat.le_trans h.begun epoch, Nat.lt_of_lt_of_le h.sent count, ?_, ?_, h.number, ?_⟩
  · rw [h.key, epochPublic, epochPublic, secret d (Nat.le_refl d)]
  · rw [h.announced, before]
  · rw [chain]
    exact h.opens

namespace Conversation

/-- Message `n` of epoch `d` is among the deliveries. -/
def Opened (c : Conversation P) (place : Nat → Nat × Nat) (d n : Nat) : Prop :=
  ∃ index result, (index, result) ∈ c.log ∧ place index = (d, n)

/-- The two parties, one epoch apart in one schedule, and every wire at its own place in it. -/
structure Joined (sharedSecret : P.Key) (c : Conversation P) (l : Ledger P) : Prop where
  side : ∀ p, l.epoch p % 2 = p.parity
  adjacent : ∀ p, l.epoch p ≤ l.epoch p.other + 1
  inEpoch : ∀ p, InEpoch sharedSecret l.secret l.count (c.Opened l.place) (l.epoch p) (c.state p)
  distinct : ∀ p, DistinctUpTo l.secret (l.epoch p)
  known : ∀ p i, i ≤ l.epoch p → epochPublic P l.secret i ∈ c.publicKeys
  first : l.count 0 = 0
  unused : ∀ d, (∀ p, l.epoch p < d) → l.count d = 0
  bounded : ∀ d, l.count d < 2 ^ 32
  wire : ∀ index wire, c.wires[index]? = some wire →
    SentAt sharedSecret l wire (l.place index).1 (l.place index).2
  apart : ∀ i j, i < c.wires.length → j < c.wires.length → l.place i = l.place j → i = j
  intact : c.DeliveredIntact

theorem start_joined (sharedSecret : P.Key) {alicePrivate bobPrivate : P.Secret}
    (differ : P.publicKey alicePrivate ≠ P.publicKey bobPrivate) :
    Joined sharedSecret (start sharedSecret alicePrivate bobPrivate)
      (Ledger.start alicePrivate bobPrivate) := by
  have zeroOrOne : ∀ (p : Party) i, i ≤ (Ledger.start alicePrivate bobPrivate).epoch p → i = 0 ∨ i = 1 := by
    intro p i hi
    have small : i ≤ 1 := Nat.le_trans hi p.parity_le_one
    omega
  have nothing : ∀ (p : Party) d n, ¬ Passed (fun _ => 0) p.parity 0 d n := by
    rintro p d n ⟨_, _, bound⟩
    split at bound <;> exact Nat.not_lt_zero n bound
  have unseen : ∀ d n, ¬ (start sharedSecret alicePrivate bobPrivate).Opened
      (Ledger.start alicePrivate bobPrivate).place d n := by
    rintro d n ⟨index, result, logged, _⟩
    cases logged
  have empty : ∀ (p : Party) (peer : Block 32) (n : UInt32) key,
      (∅ : SkippedKeys P).lookup (peer, n) = some key ↔
        ∃ d, Passed (fun _ => 0) p.parity 0 d n.toNat ∧
          ¬ (start sharedSecret alicePrivate bobPrivate).Opened
            (Ledger.start alicePrivate bobPrivate).place d n.toNat ∧
          peer = epochPublic P (Ledger.start alicePrivate bobPrivate).secret d ∧
          key = messageKeyAt P
            (epochChain P sharedSecret (Ledger.start alicePrivate bobPrivate).secret d) n.toNat := by
    intro p peer n key
    rw [Finmap.lookup_empty]
    constructor
    · intro impossible
      cases impossible
    · rintro ⟨d, passed, _⟩
      exact absurd passed (nothing p d n.toNat)
  refine ⟨?_, Party.parity_adjacent, ?_, ?_, ?_, rfl, fun _ _ => rfl, fun _ => Nat.two_pow_pos 32,
    ?_, ?_, ?_⟩
  · intro p
    cases p <;> rfl
  · intro p
    cases p with
    | alice =>
      exact ⟨rfl, rfl, rfl, rfl, rfl, rfl, rfl, rfl, Nat.le_refl 0, empty .alice,
        fun d n done _ => absurd done (unseen d n)⟩
    | bob =>
      exact ⟨rfl, rfl, rfl, rfl, rfl, rfl, rfl, rfl, Nat.le_refl 0, empty .bob,
        fun d n done _ => absurd done (unseen d n)⟩
  · intro p i j hi hj same
    rcases zeroOrOne p i hi with rfl | rfl <;> rcases zeroOrOne p j hj with rfl | rfl
    · rfl
    · exact absurd same.symm differ
    · exact absurd same differ
    · rfl
  · intro p i hi
    rcases zeroOrOne p i hi with rfl | rfl
    · exact List.mem_cons_of_mem _ List.mem_cons_self
    · exact List.mem_cons_self
  · intro index wire found
    cases found
  · intro i j hi
    exact absurd hi (Nat.not_lt_zero i)
  · intro index result logged
    cases logged

theorem Opened.append {c : Conversation P} (place : Nat → Nat × Nat) {index : Nat}
    {result : Except CoreError Bytes} (after : Conversation P)
    (logged : after.log = c.log ++ [(index, result)]) (d n : Nat) :
    after.Opened place d n ↔ alsoOpened (c.Opened place) (place index).1 (place index).2 d n := by
  unfold Opened alsoOpened
  rw [logged]
  constructor
  · rintro ⟨i, r, found, at_⟩
    rcases List.mem_append.mp found with old | new
    · exact .inl ⟨i, r, old, at_⟩
    · cases List.mem_singleton.mp new
      exact .inr ⟨congrArg Prod.fst at_.symm, congrArg Prod.snd at_.symm⟩
  · rintro (⟨i, r, old, at_⟩ | ⟨rfl, rfl⟩)
    · exact ⟨i, r, List.mem_append_left _ old, at_⟩
    · exact ⟨index, result, List.mem_append_right _ List.mem_cons_self, rfl⟩

theorem act_encrypt_wires (c : Conversation P) (p : Party) (nonce : Block 12) (plaintext : Bytes) :
    (c.act (.encrypt p nonce plaintext)).wires = c.wires ∨
    ∃ ciphertext header, ((c.state p).encrypt nonce plaintext).1 = .ok (ciphertext, header) ∧
      (c.act (.encrypt p nonce plaintext)).wires = c.wires ++ [⟨p, header, ciphertext, plaintext⟩] := by
  unfold act
  cases result : ((c.state p).encrypt nonce plaintext).1 with
  | error e =>
    left
    simp only [result]
  | ok sealed =>
    right
    exact ⟨sealed.1, sealed.2, rfl, by simp only [result]⟩

namespace Joined
variable {sharedSecret : P.Key} {c : Conversation P} {l : Ledger P}

variable {index : Nat} {wire : Wire} {fresh : P.Secret}

theorem logged_lt (h : Joined sharedSecret c l) {result : Except CoreError Bytes}
    (logged : (index, result) ∈ c.log) : index < c.wires.length := by
  obtain ⟨wire, found, _⟩ := h.intact index result logged
  exact (List.getElem?_eq_some_iff.mp found).1

theorem begun (h : Joined sharedSecret c l) (p : Party) (may : p = .bob → c.bobMayEncrypt = true) :
    l.epoch p ≠ 0 := by
  have side := h.side p
  cases p with
  | alice =>
    intro zero
    rw [zero] at side
    cases side
  | bob =>
    obtain ⟨⟨index, result⟩, logged, both⟩ := List.any_eq_true.mp (may rfl)
    obtain ⟨wire, found, sender⟩ := (Option.any_eq_true _ _).mp (Bool.and_eq_true_iff.mp both).2
    have fromAlice : wire.sender = .alice := eq_of_beq sender
    have sent := (h.wire index wire found).side
    rw [fromAlice] at sent
    have passed := (h.inEpoch .bob).seen _ _ ⟨index, _, logged, rfl⟩ (by rw [side, sent]; decide)
    exact Nat.ne_of_gt (Nat.zero_lt_of_lt passed.2.1)

/-- The ledger after one more `encrypt`. -/
def sentOne (c : Conversation P) (l : Ledger P) (p : Party) : Ledger P :=
  { l with
    count := Function.update l.count (l.epoch p) (l.count (l.epoch p) + 1)
    place := Function.update l.place c.wires.length (l.epoch p, l.count (l.epoch p)) }

theorem encrypt (h : Joined sharedSecret c l) (lawful : P.Lawful) (p : Party) (nonce : Block 12)
    (plaintext : Bytes) (may : p = .bob → c.bobMayEncrypt = true)
    (below : (c.state p).sendCounter.toNat + 1 < 2 ^ 32) :
    Joined sharedSecret (c.act (.encrypt p nonce plaintext)) (sentOne c l p) := by
  have begun := h.begun p may
  have mine := h.inEpoch p
  have fits : l.count (l.epoch p) + 1 < 2 ^ 32 := by rw [← mine.sent]; exact below
  have elsewhere : ∀ d, d ≠ l.epoch p → (sentOne c l p).count d = l.count d :=
    fun d apart => Function.update_of_ne apart _ _
  have here : (sentOne c l p).count (l.epoch p) = l.count (l.epoch p) + 1 := Function.update_self _ _ _
  have grows : ∀ d, l.count d ≤ (sentOne c l p).count d := by
    intro d
    by_cases same : d = l.epoch p
    · rw [same, here]
      omega
    · rw [elsewhere d same]
  have place : ∀ i, i < c.wires.length → (sentOne c l p).place i = l.place i :=
    fun i hi => Function.update_of_ne (Nat.ne_of_lt hi) _ _
  have log : (c.act (.encrypt p nonce plaintext)).log = c.log := rfl
  have opened : ∀ d n, (c.act (.encrypt p nonce plaintext)).Opened (sentOne c l p).place d n ↔
      c.Opened l.place d n := by
    intro d n
    unfold Opened
    rw [log]
    constructor
    · rintro ⟨i, r, found, at_⟩
      exact ⟨i, r, found, (place i (h.logged_lt found)) ▸ at_⟩
    · rintro ⟨i, r, found, at_⟩
      exact ⟨i, r, found, (place i (h.logged_lt found)).trans at_⟩
  -- a wire already sent keeps its place: only the current epoch's count moves
  have old : ∀ index wire, c.wires[index]? = some wire →
      SentAt sharedSecret (sentOne c l p) wire ((sentOne c l p).place index).1
        ((sentOne c l p).place index).2 := by
    intro index wire found
    have at_ := h.wire index wire found
    rw [place index (List.getElem?_eq_some_iff.mp found).1]
    refine at_.keep (fun _ _ => rfl) (Nat.le_refl _) (grows _) (elsewhere _ ?_)
    have le := at_.begun
    have otherSide := h.adjacent wire.sender
    rcases p.eq_or_other wire.sender with same | other
    · rw [same] at le
      omega
    · have up := h.adjacent p
      have sideP := h.side p
      have sideW := at_.side
      rw [other] at le otherSide sideW
      have differ := p.parity_ne
      omega
  refine ⟨h.side, h.adjacent, ?_, h.distinct, h.known, ?_, ?_, ?_, ?_, ?_, ?_⟩
  · intro q
    rcases p.eq_or_other q with rfl | rfl
    · have sent := mine.encrypt begun below nonce plaintext
      have state : (c.act (.encrypt q nonce plaintext)).state q = ((c.state q).encrypt nonce plaintext).2 :=
        Function.update_self _ _ _
      rw [state]
      exact sent.transport _ _ (fun _ _ => rfl) (fun d n _ => opened d n)
    · have state : (c.act (.encrypt p nonce plaintext)).state p.other = c.state p.other :=
        Function.update_of_ne p.other_ne _ _
      have up := h.adjacent p
      have down := h.adjacent p.other
      rw [p.other_other] at down
      have sideP := h.side p
      have sideQ := h.side p.other
      have differ := p.parity_ne
      have peer := (h.inEpoch p.other).recount (sentOne c l p).count (elsewhere _ (by omega))
        (elsewhere _ (by omega)) (fun d _ _ => elsewhere d (by omega)) (fun _ => grows _)
      rw [state]
      exact peer.transport _ _ (fun _ _ => rfl) (fun d n _ => opened d n)
  · rw [elsewhere 0 (Ne.symm begun)]
    exact h.first
  · intro d later
    rw [elsewhere d (Nat.ne_of_gt (later p))]
    exact h.unused d later
  · intro d
    by_cases same : d = l.epoch p
    · rw [same, here]
      exact fits
    · rw [elsewhere d same]
      exact h.bounded d
  · intro index wire found
    rcases act_encrypt_wires c p nonce plaintext with same | ⟨ciphertext, header, sealed, grown⟩
    · rw [same] at found
      exact old index wire found
    · rw [grown] at found
      rcases Nat.lt_trichotomy index c.wires.length with before | rfl | beyond
      · rw [List.getElem?_append_left before] at found
        exact old index wire found
      · rw [List.getElem?_concat_length] at found
        cases found
        obtain ⟨rfl, body⟩ := RatchetState.encrypt_ok sealed
        have at_ : (sentOne c l p).place c.wires.length = (l.epoch p, l.count (l.epoch p)) :=
          Function.update_self _ _ _
        rw [at_]
        refine ⟨h.side p, Nat.le_refl _, by rw [here]; exact Nat.lt_succ_self _, mine.ownPublic, ?_,
          mine.sent, ?_⟩
        · rw [elsewhere _ (by omega)]
          exact mine.prev
        · rw [mine.sending] at body
          exact decrypt_encrypt_withAd P lawful body
      · rw [List.getElem?_eq_none (by simp only [List.length_append, List.length_singleton]; omega)] at found
        cases found
  · have at_ : (sentOne c l p).place c.wires.length = (l.epoch p, l.count (l.epoch p)) :=
      Function.update_self _ _ _
    have fresh : ∀ j, j < c.wires.length → l.place j ≠ (l.epoch p, l.count (l.epoch p)) := by
      intro j hj same
      have sent := (h.wire j c.wires[j] (List.getElem?_eq_getElem hj)).sent
      rw [same] at sent
      exact Nat.lt_irrefl _ sent
    have range : ∀ i, i < (c.act (.encrypt p nonce plaintext)).wires.length →
        i < c.wires.length ∨ i = c.wires.length := by
      intro i hi
      rcases act_encrypt_wires c p nonce plaintext with kept | ⟨_, _, _, grown⟩
      · rw [kept] at hi
        exact .inl hi
      · rw [grown, List.length_append, List.length_singleton] at hi
        omega
    intro i j hi hj same
    rcases range i hi with hi | rfl <;> rcases range j hj with hj | rfl
    · rw [place i hi, place j hj] at same
      exact h.apart i j hi hj same
    · rw [place i hi, at_] at same
      exact absurd same (fresh i hi)
    · rw [place j hj, at_] at same
      exact absurd same.symm (fresh j hj)
    · rfl
  · intro index result logged
    obtain ⟨wire, found, same⟩ := h.intact index result logged
    refine ⟨wire, ?_, same⟩
    rcases act_encrypt_wires c p nonce plaintext with kept | ⟨_, _, _, grown⟩
    · rw [kept]
      exact found
    · rw [grown, List.getElem?_append_left (h.logged_lt logged)]
      exact found

/-- The ledger after a delivery that turned the ratchet of `p`. -/
def turned (l : Ledger P) (p : Party) (fresh : P.Secret) : Ledger P :=
  { l with
    secret := Function.update l.secret (l.epoch p + 2) fresh
    epoch := Function.update l.epoch p (l.epoch p + 2) }

theorem distinct_both (h : Joined sharedSecret c l) {p : Party} {d : Nat} (begun : d ≤ l.epoch p) :
    DistinctUpTo l.secret (max (l.epoch p.other) d) := by
  rcases Nat.le_total d (l.epoch p.other) with le | ge
  · rw [Nat.max_eq_left le]
    exact h.distinct p.other
  · rw [Nat.max_eq_right ge]
    exact (h.distinct p).mono begun

theorem generates (h : Joined sharedSecret c l)
    (found : c.wires[index]? = some wire)
    (next : (l.place index).1 = l.epoch wire.sender.other + 1) :
    generatesKey (c.state wire.sender.other) wire.header = true := by
  have sent := h.wire index wire found
  have receiver := h.inEpoch wire.sender.other
  have distinct := h.distinct_both sent.begun
  have ahead : ¬ Passed l.count (l.epoch wire.sender.other)
      (c.state wire.sender.other).recvCounter.toNat (l.place index).1 wire.header.messageNumber.toNat :=
    fun passed => absurd passed.2.1 (by omega)
  have unstored := receiver.lookup_none distinct ahead
  rw [next, Nat.max_eq_right (Nat.le_succ _)] at distinct
  have need := receiver.needDhRatchet_next distinct (next ▸ sent.key)
  rw [generatesKey, need, sent.key, unstored]
  rfl

/-- The receiver of an allowed delivery gets the plaintext, and its place in the schedule moves
on by two epochs or not at all. -/
theorem receive (h : Joined sharedSecret c l) (lawful : P.Lawful)
    (found : c.wires[index]? = some wire)
    (once : ∀ result, (index, result) ∉ c.log)
    (within : (c.state wire.sender.other).DecryptWithin fresh wire.header)
    (new : generatesKey (c.state wire.sender.other) wire.header = true →
      P.publicKey fresh ∉ c.publicKeys) :
    ∃ t, (c.state wire.sender.other).decrypt fresh wire.header wire.ciphertext = (.ok wire.plaintext, t) ∧
      ((l.place index).1 ≤ l.epoch wire.sender.other ∧
        InEpoch sharedSecret l.secret l.count
          (alsoOpened (c.Opened l.place) (l.place index).1 (l.place index).2)
          (l.epoch wire.sender.other) t ∨
      (l.place index).1 = l.epoch wire.sender.other + 1 ∧
        InEpoch sharedSecret (turned l wire.sender.other fresh).secret l.count
          (alsoOpened (c.Opened l.place) (l.place index).1 (l.place index).2)
          (l.epoch wire.sender.other + 2) t) := by
  have sent := h.wire index wire found
  have inRange := (List.getElem?_eq_some_iff.mp found).1
  have receiver := h.inEpoch wire.sender.other
  have up := h.adjacent wire.sender
  have side : (l.place index).1 % 2 ≠ l.epoch wire.sender.other % 2 := by
    rw [sent.side, h.side]
    exact wire.sender.parity_ne
  have reach : (l.place index).1 ≤ l.epoch wire.sender.other + 1 := Nat.le_trans sent.begun up
  have unopened : ¬ c.Opened l.place (l.place index).1 (l.place index).2 := by
    rintro ⟨i, r, logged, same⟩
    have here := h.apart i index (h.logged_lt logged) inRange same
    subst here
    exact once r logged
  have unknown : (l.place index).1 = l.epoch wire.sender.other + 1 →
      ∀ i, i ≤ l.epoch wire.sender.other + 1 → epochPublic P l.secret i ≠ P.publicKey fresh := by
    intro next i hi same
    have old := h.known wire.sender i (Nat.le_trans hi (next ▸ sent.begun))
    exact new (h.generates found next) (same ▸ old)
  have unsent : (l.place index).1 = l.epoch wire.sender.other + 1 →
      l.count (l.epoch wire.sender.other + 2) = 0 := by
    intro next
    refine h.unused _ fun q => ?_
    rcases wire.sender.eq_or_other q with rfl | rfl <;> omega
  obtain ⟨t, taken, stays, moves⟩ := receiver.receive lawful (h.distinct_both sent.begun) fresh sent.key
    sent.announced (by rw [sent.number]; exact sent.sent) side reach
    (by rw [sent.number]; exact unopened) h.first unsent h.bounded unknown within
  rw [sent.number] at stays moves
  refine ⟨t, ?_, ?_⟩
  · rw [RatchetState.decrypt, taken, Outcome.andThen_ok, sent.number, sent.opens]
  · rcases Nat.lt_or_eq_of_le reach with early | next
    · exact .inl ⟨Nat.le_of_lt_succ early, stays (Nat.le_of_lt_succ early)⟩
    · exact .inr ⟨next, moves next⟩

theorem allowed_deliver {c : Conversation P}
    (allowed : c.Allowed (.deliver index fresh)) :
    ∃ wire, c.wires[index]? = some wire ∧ (∀ result, (index, result) ∉ c.log) ∧
      (c.state wire.sender.other).DecryptWithin fresh wire.header ∧
      (generatesKey (c.state wire.sender.other) wire.header = true →
        P.publicKey fresh ∉ c.publicKeys) := by
  unfold Allowed at allowed
  cases found : c.wires[index]? with
  | none => simp only [found] at allowed
  | some wire =>
    simp only [found] at allowed
    obtain ⟨once, within, new⟩ := allowed
    exact ⟨wire, rfl, fun result logged => once (List.mem_map_of_mem logged), within, new⟩

theorem act_deliver {c : Conversation P} (found : c.wires[index]? = some wire)
    (fresh : P.Secret) :
    c.act (.deliver index fresh) = { c with
      state := Function.update c.state wire.sender.other
        ((c.state wire.sender.other).decrypt fresh wire.header wire.ciphertext).2
      log := c.log ++ [(index, ((c.state wire.sender.other).decrypt fresh wire.header wire.ciphertext).1)]
      publicKeys := if generatesKey (c.state wire.sender.other) wire.header
        then c.publicKeys ++ [P.publicKey fresh] else c.publicKeys } := by
  unfold act
  simp only [found]

theorem deliver (h : Joined sharedSecret c l) (lawful : P.Lawful)
    (allowed : c.Allowed (.deliver index fresh)) :
    ∃ l', Joined sharedSecret (c.act (.deliver index fresh)) l' := by
  obtain ⟨wire, found, once, within, new⟩ := allowed_deliver allowed
  obtain ⟨t, decrypted, place⟩ := h.receive lawful found once within new
  have sent := h.wire index wire found
  have after := act_deliver found fresh
  rw [decrypted] at after
  have logged : (c.act (.deliver index fresh)).log = c.log ++ [(index, .ok wire.plaintext)] := by
    rw [after]
  have opened := Opened.append l.place _ logged
  have intact : (c.act (.deliver index fresh)).DeliveredIntact := by
    intro i r entry
    rw [logged] at entry
    rw [after]
    rcases List.mem_append.mp entry with old | last
    · exact h.intact i r old
    · cases List.mem_singleton.mp last
      exact ⟨wire, found, rfl⟩
  have stateR : (c.act (.deliver index fresh)).state wire.sender.other = t := by
    rw [after]
    exact Function.update_self _ _ _
  have stateS : (c.act (.deliver index fresh)).state wire.sender = c.state wire.sender := by
    rw [after]
    exact Function.update_of_ne wire.sender.other_ne.symm _ _
  have wires : (c.act (.deliver index fresh)).wires = c.wires := by rw [after]
  -- the delivered message belongs to the sender's side, so the sender does not see the change
  have senders : ∀ d n, d % 2 ≠ l.epoch wire.sender % 2 →
      ((c.act (.deliver index fresh)).Opened l.place d n ↔ c.Opened l.place d n) := by
    intro d n side
    rw [opened d n]
    constructor
    · rintro (old | ⟨rfl, _⟩)
      · exact old
      · rw [sent.side, h.side wire.sender] at side
        exact absurd rfl side
    · exact .inl
  have keysKept : ∀ k, k ∈ c.publicKeys → k ∈ (c.act (.deliver index fresh)).publicKeys := by
    intro k old
    rw [after]
    simp only
    split
    · exact List.mem_append_left _ old
    · exact old
  rcases place with ⟨early, stays⟩ | ⟨next, moves⟩
  · refine ⟨l, h.side, h.adjacent, ?_, h.distinct, fun p i hi => keysKept _ (h.known p i hi), h.first,
      h.unused, h.bounded, ?_, ?_, intact⟩
    · intro q
      rcases wire.sender.eq_or_other q with rfl | rfl
      · rw [stateS]
        exact (h.inEpoch _).transport _ _ (fun _ _ => rfl) senders
      · rw [stateR]
        exact stays.transport _ _ (fun _ _ => rfl) (fun d n _ => opened d n)
    · rw [wires]
      exact h.wire
    · rw [wires]
      exact h.apart
  · have senderEpoch : l.epoch wire.sender = l.epoch wire.sender.other + 1 :=
      Nat.le_antisymm (h.adjacent wire.sender) (next ▸ sent.begun)
    have epochR : (turned l wire.sender.other fresh).epoch wire.sender.other =
        l.epoch wire.sender.other + 2 := Function.update_self _ _ _
    have epochS : (turned l wire.sender.other fresh).epoch wire.sender = l.epoch wire.sender :=
      Function.update_of_ne wire.sender.other_ne.symm _ _
    have early : ∀ i, i ≤ l.epoch wire.sender.other + 1 →
        (turned l wire.sender.other fresh).secret i = l.secret i :=
      fun i hi => Function.update_of_ne (by omega) _ _
    have distinct : DistinctUpTo (turned l wire.sender.other fresh).secret
        (l.epoch wire.sender.other + 2) := by
      refine DistinctUpTo.extend (senderEpoch ▸ h.distinct wire.sender) ?_
      intro i hi same
      have old := h.known wire.sender i (by omega)
      exact new (h.generates found next) (same ▸ old)
    have reach : ∀ q, l.epoch q ≤ l.epoch wire.sender.other + 1 := by
      intro q
      rcases wire.sender.eq_or_other q with rfl | rfl <;> omega
    refine ⟨turned l wire.sender.other fresh, ?_, ?_, ?_, ?_, ?_, h.first, ?_, h.bounded, ?_, ?_, intact⟩
    · intro q
      have side := h.side q
      rcases wire.sender.eq_or_other q with rfl | rfl
      · rw [epochS, side]
      · rw [epochR]
        omega
    · intro q
      rcases wire.sender.eq_or_other q with rfl | rfl
      · rw [epochS, epochR]
        omega
      · rw [wire.sender.other_other, epochS, epochR]
        omega
    · intro q
      rcases wire.sender.eq_or_other q with rfl | rfl
      · rw [stateS, epochS]
        exact (h.inEpoch _).transport _ _ (fun i hi => early i (by omega)) senders
      · rw [stateR, epochR]
        exact moves.transport _ _ (fun _ _ => rfl) (fun d n _ => opened d n)
    · intro q
      refine distinct.mono ?_
      rcases wire.sender.eq_or_other q with rfl | rfl
      · rw [epochS]
        omega
      · exact Nat.le_of_eq epochR
    · intro q i hi
      have bound : i ≤ l.epoch wire.sender.other + 2 := by
        rcases wire.sender.eq_or_other q with rfl | rfl
        · rw [epochS] at hi
          omega
        · rw [epochR] at hi
          exact hi
      rcases Nat.lt_or_eq_of_le bound with old | rfl
      · rw [epochPublic, early i (by omega)]
        exact keysKept _ (h.known wire.sender i (by omega))
      · have last : epochPublic P (turned l wire.sender.other fresh).secret
            (l.epoch wire.sender.other + 2) = P.publicKey fresh :=
          congrArg P.publicKey (Function.update_self _ _ _)
        rw [last, after]
        simp only [h.generates found next, if_true]
        exact List.mem_append_right _ List.mem_cons_self
    · intro d later
      refine h.unused d fun q => ?_
      have bound := later wire.sender.other
      rw [epochR] at bound
      have le := reach q
      omega
    · intro i w at_
      rw [wires] at at_
      have before := h.wire i w at_
      have le := reach w.sender
      refine before.keep (fun k hk => early k ?_) ?_ (Nat.le_refl _) rfl
      · have begun := before.begun
        omega
      · rcases wire.sender.eq_or_other w.sender with same | same
        · rw [same, epochS]
        · rw [same, epochR]
          omega
    · rw [wires]
      exact h.apart

theorem act (h : Joined sharedSecret c l) (lawful : P.Lawful) (a : Action P) (allowed : c.Allowed a)
    (fits : c.CounterFits a) : ∃ l', Joined sharedSecret (c.act a) l' := by
  cases a with
  | encrypt sender nonce plaintext =>
    exact ⟨_, h.encrypt lawful sender nonce plaintext allowed fits⟩
  | deliver index fresh => exact h.deliver lawful allowed

theorem run (h : Joined sharedSecret c l) (lawful : P.Lawful) (run : List (Action P))
    (admissible : c.Admissible run) (unwrapped : c.Unwrapped run) :
    ∃ l', Joined sharedSecret (c.after run) l' := by
  induction run generalizing c l with
  | nil => exact ⟨l, h⟩
  | cons a run ih =>
    obtain ⟨l', joined⟩ := h.act lawful a admissible.1 unwrapped.1
    exact ih joined admissible.2 unwrapped.2

end Joined

/-- Under the limits, and while no send counter wraps, every delivered wire decrypts to what
was encrypted, in every order and with any of the others lost. -/
theorem delivered_intact (lawful : P.Lawful) (sharedSecret : P.Key) (alicePrivate bobPrivate : P.Secret)
    (differ : P.publicKey alicePrivate ≠ P.publicKey bobPrivate) (run : List (Action P))
    (admissible : (start sharedSecret alicePrivate bobPrivate).Admissible run)
    (unwrapped : (start sharedSecret alicePrivate bobPrivate).Unwrapped run) :
    ((start sharedSecret alicePrivate bobPrivate).after run).DeliveredIntact := by
  obtain ⟨l, joined⟩ := (start_joined sharedSecret differ).run lawful run admissible unwrapped
  exact joined.intact

/- Two wires of Alice arrive in the other order, Bob answers in between, and his answer turns
Alice's ratchet. -/
def zeroNonce : Block 12 := ⟨List.replicate 12 0, zeros12_length⟩

def reorderedRun : List (Action .counting) :=
  [.encrypt .alice zeroNonce [1], .encrypt .alice zeroNonce [2], .deliver 1 11,
    .encrypt .bob zeroNonce [3], .deliver 2 13, .deliver 0 17, .encrypt .alice zeroNonce [4], .deliver 3 19]

theorem reordered_intact :
    (start (P := .counting) 7 3 5).Admissible reorderedRun ∧
    (start (P := .counting) 7 3 5).Unwrapped reorderedRun ∧
    ((start (P := .counting) 7 3 5).after reorderedRun).log.length = 4 ∧
    ((start (P := .counting) 7 3 5).after reorderedRun).DeliveredIntact := by
  have differ : Primitives.counting.publicKey 3 ≠ Primitives.counting.publicKey 5 := by decide
  have admissible : (start (P := .counting) 7 3 5).Admissible reorderedRun := by decide
  have unwrapped : (start (P := .counting) 7 3 5).Unwrapped reorderedRun := by decide
  exact ⟨admissible, unwrapped, by decide,
    delivered_intact Primitives.counting_lawful 7 3 5 differ reorderedRun admissible unwrapped⟩

theorem admissible_append (c : Conversation P) (first second : List (Action P)) :
    c.Admissible (first ++ second) ↔ c.Admissible first ∧ (c.after first).Admissible second := by
  induction first generalizing c with
  | nil => exact ⟨fun rest => ⟨trivial, rest⟩, And.right⟩
  | cons a first ih => exact (and_congr_right fun _ => ih (c.act a)).trans and_assoc.symm

theorem after_append (c : Conversation P) (first second : List (Action P)) :
    c.after (first ++ second) = (c.after first).after second := List.foldl_append

/- Alice sends more messages on one chain than `send_counter` can count. -/
def burst (k : Nat) : List (Action .counting) :=
  List.replicate k (.encrypt .alice zeroNonce [])

def burstAlice (k : Nat) : RatchetState .counting :=
  { RatchetState.initAlice (P := .counting) 3 7 (Primitives.counting.publicKey 5) with
    sendingChainKey := 16 + 2 * k
    sendCounter := UInt32.ofNat k }

def burstWire (k : Nat) : Wire :=
  let header : MessageHeader := ⟨Primitives.counting.publicKey 3, 0, UInt32.ofNat k⟩
  ⟨.alice, header, zeroNonce.toList ++ Primitives.countingTag (17 + 2 * k) header.serialize, []⟩

def burstState (k : Nat) (wires : List Wire) : Conversation .counting :=
  { start (P := .counting) 7 3 5 with
    state
      | .alice => burstAlice k
      | .bob => .initBob (P := .counting) 7 5
    wires }

theorem burst_admissible (k : Nat) (c : Conversation .counting) : c.Admissible (burst k) := by
  induction k generalizing c with
  | zero => trivial
  | succ k ih =>
    refine ⟨?_, ih _⟩
    intro impossible
    cases impossible

theorem burst_step (k : Nat) (wires : List Wire) :
    (burstState k wires).act (.encrypt .alice zeroNonce []) =
      burstState (k + 1) (wires ++ [burstWire k]) := by
  have key : 16 + 2 * k + 1 = 17 + 2 * k := by omega
  have counter : (burstAlice k).sendCounter + 1 = UInt32.ofNat (k + 1) := (UInt32.ofNat_add k 1).symm
  have reply : ((burstAlice k).encrypt zeroNonce []).1 =
      .ok ((burstWire k).ciphertext, (burstWire k).header) := by
    rw [burstWire, ← key]
    rfl
  have moved : ((burstAlice k).encrypt zeroNonce []).2 = burstAlice (k + 1) := by
    rw [RatchetState.encrypt_state, counter]
    rfl
  have state : Function.update (burstState k wires).state .alice (burstAlice (k + 1)) =
      (burstState (k + 1) (wires ++ [burstWire k])).state := by
    funext p
    cases p <;> rfl
  unfold act
  simp only [show (burstState k wires).state .alice = burstAlice k from rfl, reply, moved, state]
  rfl

theorem burst_after (k : Nat) :
    ∃ wires, wires.length = k ∧ (start (P := .counting) 7 3 5).after (burst k) = burstState k wires := by
  induction k with
  | zero =>
    refine ⟨[], rfl, ?_⟩
    have same : (start (P := .counting) 7 3 5).state = (burstState 0 []).state := by
      funext p
      cases p <;> rfl
    exact congrArg (fun state => { start (P := .counting) 7 3 5 with state := state }) same
  | succ k ih =>
    obtain ⟨wires, count, reached⟩ := ih
    refine ⟨wires ++ [burstWire k], by rw [List.length_append, count]; rfl, ?_⟩
    rw [burst, List.replicate_succ', after_append, ← burst, reached]
    exact burst_step k wires

/-- Message `2 ^ 32` carries number 0 again, and Bob, who has seen nothing, opens it with the
key of message 0. -/
theorem wrapped_counter_undelivered :
    (start (P := .counting) 7 3 5).Admissible (burst (2 ^ 32 + 1) ++ [.deliver (2 ^ 32) 9]) ∧
    ¬ ((start (P := .counting) 7 3 5).after
      (burst (2 ^ 32 + 1) ++ [.deliver (2 ^ 32) 9])).DeliveredIntact := by
  obtain ⟨wires, count, reached⟩ := burst_after (2 ^ 32)
  have all : (start (P := .counting) 7 3 5).after (burst (2 ^ 32 + 1)) =
      burstState (2 ^ 32 + 1) (wires ++ [burstWire (2 ^ 32)]) := by
    rw [burst, List.replicate_succ', after_append, ← burst, reached]
    exact burst_step (2 ^ 32) wires
  have found : (burstState (2 ^ 32 + 1) (wires ++ [burstWire (2 ^ 32)])).wires[2 ^ 32]? =
      some (burstWire (2 ^ 32)) := by
    change (wires ++ [burstWire (2 ^ 32)])[2 ^ 32]? = _
    rw [← count, List.getElem?_concat_length, count]
  constructor
  · rw [admissible_append, all]
    refine ⟨burst_admissible _ _, ?_, trivial⟩
    unfold Allowed
    simp only [found]
    have within : (RatchetState.initBob (P := .counting) 7 5).DecryptWithin 9
        (burstWire (2 ^ 32)).header := by decide
    have new : Primitives.counting.publicKey 9 ∉ (start (P := .counting) 7 3 5).publicKeys := by decide
    exact ⟨List.not_mem_nil, within, fun _ => new⟩
  · rw [after_append, all]
    intro intact
    have reply : ((RatchetState.initBob (P := .counting) 7 5).decrypt 9 (burstWire (2 ^ 32)).header
        (burstWire (2 ^ 32)).ciphertext).1 = .error (.crypto "AES-GCM decrypt failed: aead::Error") := by
      rfl
    have logged := Joined.act_deliver found (9 : Nat)
    obtain ⟨wire, _, same⟩ := intact (2 ^ 32) (.error (.crypto "AES-GCM decrypt failed: aead::Error")) (by
      change _ ∈ ((burstState (2 ^ 32 + 1) (wires ++ [burstWire (2 ^ 32)])).act (.deliver (2 ^ 32) 9)).log
      rw [logged, ← reply]
      exact List.mem_cons_self)
    cases same

end Conversation
end Echo.Signal
