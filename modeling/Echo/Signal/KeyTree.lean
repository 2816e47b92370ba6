import Echo.Signal.Skipping

/-! Which keys one party can derive, whatever the network hands it. Root keys are used up one
after the other, each for a sending or for a receiving chain; a message key names its chain
and its place in it. -/
namespace Echo.Signal
open Echo.Lib
variable {P : Primitives}

/-- Terms instead of bytes: HKDF outputs are distinct and never the zero array, and a
ciphertext is sealed under one key. -/
structure Primitives.Symbolic (P : Primitives) : Prop where
  hkdf_injective : ∀ {salt salt' ikm ikm' info info' blocks blocks'} {i : Fin blocks} {i' : Fin blocks'},
    P.hkdf salt ikm info blocks i = P.hkdf salt' ikm' info' blocks' i' →
      salt = salt' ∧ ikm = ikm' ∧ info = info' ∧ blocks = blocks' ∧ i.val = i'.val
  zero_underived : ∀ {salt ikm info blocks} {i : Fin blocks}, P.hkdf salt ikm info blocks i ≠ P.zeroKey
  decrypt_encrypt : ∀ {key nonce message aad ciphertext},
    P.aesGcmEncrypt key nonce message aad = some ciphertext →
      P.aesGcmDecrypt key nonce ciphertext aad = some message
  sealed_once : ∀ {key key' nonce message message' aad ciphertext},
    P.aesGcmEncrypt key nonce message aad = some ciphertext →
      P.aesGcmEncrypt key' nonce message' aad = some ciphertext → key = key'

namespace Primitives.Symbolic
variable (symbolic : P.Symbolic)
include symbolic

theorem root_injective {r r' d d' : P.Key} (same : (kdfRk P r d).1 = (kdfRk P r' d').1) : r = r' :=
  (symbolic.hkdf_injective same).1

theorem chain_injective {r r' d d' : P.Key} (same : (kdfRk P r d).2 = (kdfRk P r' d').2) : r = r' :=
  (symbolic.hkdf_injective same).1

theorem next_injective {k k' : P.Key} (same : (kdfCk P k).1 = (kdfCk P k').1) : k = k' :=
  (symbolic.hkdf_injective same).1

theorem message_injective {k k' : P.Key} (same : (kdfCk P k).2 = (kdfCk P k').2) : k = k' :=
  (symbolic.hkdf_injective same).1

theorem chain_ne_next (r d k : P.Key) : (kdfRk P r d).2 ≠ (kdfCk P k).1 := by
  intro same
  cases (symbolic.hkdf_injective same).2.1

theorem secret_ne_root (outputs : List P.Key) (r d : P.Key) : x3dhSecret P outputs ≠ (kdfRk P r d).1 := by
  intro same
  cases (symbolic.hkdf_injective same).2.2.2.1

end Primitives.Symbolic

def ChainStart (P : Primitives) (chainKey : P.Key) : Prop :=
  chainKey = P.zeroKey ∨ ∃ r d, chainKey = (kdfRk P r d).2

theorem ChainStart.ne_next {chainKey : P.Key} (start : ChainStart P chainKey) (symbolic : P.Symbolic)
    (k : P.Key) : chainKey ≠ (kdfCk P k).1 := by
  rcases start with rfl | ⟨r, d, rfl⟩
  · exact symbolic.zero_underived.symm
  · exact symbolic.chain_ne_next r d k

theorem chainAt_injective (symbolic : P.Symbolic) {a b : P.Key} (startA : ChainStart P a)
    (startB : ChainStart P b) (m n : Nat) (same : chainAt P a m = chainAt P b n) : a = b ∧ m = n := by
  induction m generalizing n with
  | zero =>
    cases n with
    | zero => exact ⟨same, rfl⟩
    | succ n =>
      rw [chainAt_succ] at same
      exact absurd same (startA.ne_next symbolic _)
  | succ m ih =>
    cases n with
    | zero =>
      rw [chainAt_succ] at same
      exact absurd same.symm (startB.ne_next symbolic _)
    | succ n =>
      rw [chainAt_succ, chainAt_succ] at same
      obtain ⟨start, place⟩ := ih n (symbolic.next_injective same)
      exact ⟨start, congrArg Nat.succ place⟩

theorem messageKeyAt_injective (symbolic : P.Symbolic) {a b : P.Key} (startA : ChainStart P a)
    (startB : ChainStart P b) {m n : Nat} (same : messageKeyAt P a m = messageKeyAt P b n) :
    a = b ∧ m = n :=
  chainAt_injective symbolic startA startB m n (symbolic.message_injective same)

/-- One use of a root key: the DH output mixed in, and whether the chain is for sending. -/
structure Use (P : Primitives) where
  root : P.Key
  dh : P.Key
  sends : Bool

def Use.next (u : Use P) : P.Key := (kdfRk P u.root u.dh).1
def Use.chain (u : Use P) : P.Key := (kdfRk P u.root u.dh).2

theorem Use.start (u : Use P) : ChainStart P u.chain := .inr ⟨u.root, u.dh, rfl⟩

/-- The roots used so far and the current one are distinct and descend from the shared secret. -/
structure Rooted (secret root : P.Key) (used : List (Use P)) : Prop where
  distinct : (root :: used.map Use.root).Nodup
  descends : ∀ r ∈ root :: used.map Use.root, r = secret ∨ ∃ u ∈ used, r = u.next

theorem Rooted.step {root : P.Key} {used : List (Use P)} {outputs : List P.Key}
    (h : Rooted (x3dhSecret P outputs) root used) (symbolic : P.Symbolic) (dh : P.Key) (sends : Bool) :
    Rooted (x3dhSecret P outputs) (kdfRk P root dh).1 (⟨root, dh, sends⟩ :: used) := by
  constructor
  · refine List.nodup_cons.mpr ⟨?_, h.distinct⟩
    intro old
    rcases h.descends _ old with start | ⟨u, inside, same⟩
    · exact symbolic.secret_ne_root outputs root dh start.symm
    · have again : root = u.root := symbolic.root_injective same
      exact (List.nodup_cons.mp h.distinct).1 (again ▸ List.mem_map_of_mem inside)
  · intro r inside
    rcases List.mem_cons.mp inside with rfl | old
    · exact .inr ⟨_, List.mem_cons_self, rfl⟩
    · rcases h.descends r old with start | ⟨u, known, same⟩
      · exact .inl start
      · exact .inr ⟨u, List.mem_cons_of_mem _ known, same⟩

theorem Rooted.use_eq {secret root : P.Key} {used : List (Use P)} (h : Rooted secret root used)
    (symbolic : P.Symbolic) {u v : Use P} (hu : u ∈ used) (hv : v ∈ used) (same : u.chain = v.chain) :
    u = v := by
  have roots : u.root = v.root := symbolic.chain_injective same
  exact List.inj_on_of_nodup_map (List.nodup_cons.mp h.distinct).2 hu hv roots

/-- Message keys a receiver has derived: taken for a `decrypt`, or stored. -/
def Derived (taken : List P.Key) (s : RatchetState P) (key : P.Key) : Prop :=
  key ∈ taken ∨ ∃ slot, s.skippedKeys.lookup slot = some key

structure Keeps (secret : P.Key) (used : List (Use P)) (taken : List P.Key) (s : RatchetState P) :
    Prop where
  rooted : Rooted secret s.rootKey used
  sending : ∃ n, s.sendingChainKey = chainAt P P.zeroKey n ∨
    ∃ u ∈ used, u.sends = true ∧ s.sendingChainKey = chainAt P u.chain n
  receiving : ∀ chainKey, s.receivingChainKey = some chainKey →
    ∃ u ∈ used, u.sends = false ∧ ∃ n, chainKey = chainAt P u.chain n
  derived : ∀ key, Derived taken s key → ∃ u ∈ used, u.sends = false ∧
    ∃ i, key = messageKeyAt P u.chain i ∧ ∀ n, s.receivingChainKey = some (chainAt P u.chain n) → i < n
  separate : ∀ slot key, s.skippedKeys.lookup slot = some key → key ∉ taken
  single : ∀ slot slot' key, s.skippedKeys.lookup slot = some key →
    s.skippedKeys.lookup slot' = some key → slot = slot'
  once : taken.Nodup

namespace Keeps
variable {secret : P.Key} {used : List (Use P)} {taken : List P.Key} {s : RatchetState P}

variable {chainKey key : P.Key} {outputs : List P.Key}

theorem next_underived (h : Keeps secret used taken s) (symbolic : P.Symbolic)
    (chain : s.receivingChainKey = some chainKey) : ¬ Derived taken s (kdfCk P chainKey).2 := by
  obtain ⟨u, _, _, n, rfl⟩ := h.receiving chainKey chain
  intro old
  obtain ⟨v, _, _, i, same, before⟩ := h.derived _ old
  obtain ⟨chains, rfl⟩ := messageKeyAt_injective symbolic u.start v.start (m := n) same
  exact Nat.lt_irrefl n (before n (by rw [chain, chains]))

theorem derived_advance (h : Keeps secret used taken s) (symbolic : P.Symbolic)
    (chain : s.receivingChainKey = some chainKey)
    (known : Derived taken s key ∨ key = (kdfCk P chainKey).2) :
    ∃ u ∈ used, u.sends = false ∧ ∃ i, key = messageKeyAt P u.chain i ∧
      ∀ n, some (kdfCk P chainKey).1 = some (chainAt P u.chain n) → i < n := by
  obtain ⟨u, inside, receives, m, rfl⟩ := h.receiving chainKey chain
  have place : ∀ v : Use P, ∀ n, some (kdfCk P (chainAt P u.chain m)).1 = some (chainAt P v.chain n) →
      u.chain = v.chain ∧ m + 1 = n := by
    intro v n same
    rw [← chainAt_succ] at same
    exact chainAt_injective symbolic u.start v.start _ _ (Option.some.inj same)
  rcases known with old | rfl
  · obtain ⟨v, hv, direction, i, same, before⟩ := h.derived key old
    refine ⟨v, hv, direction, i, same, ?_⟩
    intro n next
    obtain ⟨chains, rfl⟩ := place v n next
    exact Nat.lt_succ_of_lt (before m (by rw [chain, chains]))
  · refine ⟨u, inside, receives, m, rfl, ?_⟩
    intro n next
    obtain ⟨_, rfl⟩ := place u n next
    exact Nat.lt_succ_self m

theorem receiving_advance (h : Keeps secret used taken s)
    (chain : s.receivingChainKey = some chainKey) :
    ∃ u ∈ used, u.sends = false ∧ ∃ n, (kdfCk P chainKey).1 = chainAt P u.chain n := by
  obtain ⟨u, inside, receives, m, rfl⟩ := h.receiving chainKey chain
  exact ⟨u, inside, receives, m + 1, (chainAt_succ P u.chain m).symm⟩

theorem store (h : Keeps secret used taken s) (symbolic : P.Symbolic) :
    Keeps secret used taken s.storeSkippedKey := by
  unfold RatchetState.storeSkippedKey
  cases chain : s.receivingChainKey with
  | none => exact h
  | some chainKey =>
    have new := h.next_underived symbolic chain
    refine ⟨h.rooted, h.sending, ?_, ?_, ?_, ?_, h.once⟩
    · intro key same
      cases Option.some.inj same
      exact h.receiving_advance chain
    · intro key known
      refine h.derived_advance symbolic chain ?_
      rcases known with old | ⟨slot, found⟩
      · exact .inl (.inl old)
      · by_cases here : slot = (s.receivingSlot, s.recvCounter)
        · subst here
          rw [Finmap.lookup_insert] at found
          exact .inr (Option.some.inj found).symm
        · rw [Finmap.lookup_insert_of_ne _ here] at found
          exact .inl (.inr ⟨slot, found⟩)
    · intro slot key found
      by_cases here : slot = (s.receivingSlot, s.recvCounter)
      · subst here
        rw [Finmap.lookup_insert] at found
        cases Option.some.inj found
        exact fun old => new (.inl old)
      · rw [Finmap.lookup_insert_of_ne _ here] at found
        exact h.separate slot key found
    · intro slot slot' key found found'
      by_cases here : slot = (s.receivingSlot, s.recvCounter)
      · by_cases here' : slot' = (s.receivingSlot, s.recvCounter)
        · rw [here, here']
        · subst here
          rw [Finmap.lookup_insert] at found
          rw [Finmap.lookup_insert_of_ne _ here'] at found'
          cases Option.some.inj found
          exact absurd (.inr ⟨slot', found'⟩) new
      · rw [Finmap.lookup_insert_of_ne _ here] at found
        by_cases here' : slot' = (s.receivingSlot, s.recvCounter)
        · subst here'
          rw [Finmap.lookup_insert] at found'
          cases Option.some.inj found'
          exact absurd (.inr ⟨slot, found⟩) new
        · rw [Finmap.lookup_insert_of_ne _ here'] at found'
          exact h.single slot slot' key found found'

theorem iterate (h : Keeps secret used taken s) (symbolic : P.Symbolic) (k : Nat) :
    Keeps secret used taken (RatchetState.storeSkippedKey^[k] s) := by
  induction k with
  | zero => exact h
  | succ k ih =>
    rw [Function.iterate_succ_apply']
    exact ih.store symbolic

theorem skip (h : Keeps secret used taken s) (symbolic : P.Symbolic) (target : UInt32) :
    Keeps secret used taken (s.skipMessageKeys target).2 := by
  rcases RatchetState.skipMessageKeys_cases s target with
    ⟨_, e, eq⟩ | ⟨_, _, eq⟩ | ⟨_, _, _, ⟨_, eq⟩ | ⟨e, k, _, _, _, eq⟩⟩
  · rw [eq]
    exact h
  · rw [eq]
    exact h
  · rw [eq]
    exact h.iterate symbolic _
  · rw [eq]
    exact h.iterate symbolic k

theorem advance (h : Keeps secret used taken s) (symbolic : P.Symbolic) :
    (∃ key t, s.advanceReceiving = (.ok key, t) ∧ Keeps secret used (key :: taken) t) ∨
    ∃ e, s.advanceReceiving = (.error e, s) := by
  unfold RatchetState.advanceReceiving
  cases chain : s.receivingChainKey with
  | none => exact .inr ⟨_, rfl⟩
  | some chainKey =>
    have new := h.next_underived symbolic chain
    refine .inl ⟨_, _, rfl, h.rooted, h.sending, ?_, ?_, ?_, h.single, ?_⟩
    · intro key same
      cases Option.some.inj same
      exact h.receiving_advance chain
    · intro key known
      refine h.derived_advance symbolic chain ?_
      rcases known with old | stored
      · rcases List.mem_cons.mp old with rfl | old
        · exact .inr rfl
        · exact .inl (.inl old)
      · exact .inl (.inr stored)
    · intro slot key found inside
      rcases List.mem_cons.mp inside with rfl | old
      · exact new (.inr ⟨slot, found⟩)
      · exact h.separate slot key found old
    · exact List.nodup_cons.mpr ⟨fun old => new (.inl old), h.once⟩

theorem takeStored (h : Keeps secret used taken s) {slot : Block 32 × UInt32}
    (found : s.skippedKeys.lookup slot = some key) :
    Keeps secret used (key :: taken) { s with skippedKeys := s.skippedKeys.erase slot } := by
  have kept : ∀ slot' key', (s.skippedKeys.erase slot).lookup slot' = some key' →
      slot' ≠ slot ∧ s.skippedKeys.lookup slot' = some key' := by
    intro slot' key' held
    by_cases here : slot' = slot
    · rw [here, Finmap.lookup_erase] at held
      cases held
    · rw [Finmap.lookup_erase_ne here] at held
      exact ⟨here, held⟩
  refine ⟨h.rooted, h.sending, h.receiving, ?_, ?_, ?_, ?_⟩
  · intro key' known
    refine h.derived key' ?_
    rcases known with old | ⟨slot', held⟩
    · rcases List.mem_cons.mp old with rfl | old
      · exact .inr ⟨slot, found⟩
      · exact .inl old
    · exact .inr ⟨slot', (kept slot' key' held).2⟩
  · intro slot' key' held
    obtain ⟨apart, held⟩ := kept slot' key' held
    intro inside
    rcases List.mem_cons.mp inside with rfl | old
    · exact apart (h.single slot' slot _ held found)
    · exact h.separate slot' key' held old
  · intro slot' slot'' key' held held'
    exact h.single slot' slot'' key' (kept _ _ held).2 (kept _ _ held').2
  · exact List.nodup_cons.mpr ⟨h.separate slot key found, h.once⟩

theorem dhStep (h : Keeps (x3dhSecret P outputs) used taken s)
    (symbolic : P.Symbolic) (fresh : P.Secret) (peer : Block 32) :
    ∃ used', used ⊆ used' ∧ Keeps (x3dhSecret P outputs) used' taken (s.dhRatchetStep fresh peer) := by
  let receives : Use P := ⟨s.rootKey, P.diffieHellman s.sendingRatchetPrivate peer, false⟩
  let sends : Use P := ⟨receives.next, P.diffieHellman fresh peer, true⟩
  have first := h.rooted.step symbolic receives.dh false
  have second := first.step symbolic sends.dh true
  have grow : used ⊆ sends :: receives :: used :=
    fun u inside => List.mem_cons_of_mem _ (List.mem_cons_of_mem _ inside)
  have here : receives ∈ sends :: receives :: used := List.mem_cons_of_mem _ List.mem_cons_self
  refine ⟨sends :: receives :: used, grow, second, ?_, ?_, ?_, h.separate, h.single, h.once⟩
  · exact ⟨0, .inr ⟨sends, List.mem_cons_self, rfl, rfl⟩⟩
  · intro chainKey same
    cases Option.some.inj same
    exact ⟨receives, here, rfl, 0, rfl⟩
  · intro key known
    obtain ⟨u, inside, direction, i, same, _⟩ := h.derived key known
    refine ⟨u, grow inside, direction, i, same, ?_⟩
    -- the new chain has a root of its own, so no derived key belongs to it
    intro n current
    obtain ⟨chains, _⟩ := chainAt_injective symbolic receives.start u.start 0 n (Option.some.inj current)
    have again : s.rootKey = u.root := symbolic.chain_injective chains
    exact absurd (again ▸ List.mem_map_of_mem inside) (List.nodup_cons.mp h.rooted.distinct).1

theorem turn (h : Keeps (x3dhSecret P outputs) used taken s)
    (symbolic : P.Symbolic) (fresh : P.Secret) (header : MessageHeader) :
    ∃ used', used ⊆ used' ∧
      Keeps (x3dhSecret P outputs) used' taken (s.turnRatchet fresh header).2 := by
  unfold RatchetState.turnRatchet
  split
  · refine Outcome.andThen_state _ _ (fun t : RatchetState P => ∃ used', used ⊆ used' ∧
      Keeps (x3dhSecret P outputs) used' taken t) ?_ ?_
    · split
      · exact ⟨used, List.Subset.refl _, h.skip symbolic _⟩
      · exact ⟨used, List.Subset.refl _, h⟩
    · rintro _ t ⟨used', grow, kept⟩
      obtain ⟨used'', more, after⟩ := kept.dhStep symbolic fresh header.ratchetPublicKey
      exact ⟨used'', List.Subset.trans grow more, after⟩
  · exact ⟨used, List.Subset.refl _, h⟩

theorem takeMessageKey (h : Keeps (x3dhSecret P outputs) used taken s)
    (symbolic : P.Symbolic) (fresh : P.Secret) (header : MessageHeader) :
    ∃ used', used ⊆ used' ∧
      ((∃ key t, s.takeMessageKey fresh header = (.ok key, t) ∧
          Keeps (x3dhSecret P outputs) used' (key :: taken) t) ∨
        ∃ e t, s.takeMessageKey fresh header = (.error e, t) ∧
          Keeps (x3dhSecret P outputs) used' taken t) := by
  cases stored : s.skippedKeys.lookup (header.ratchetPublicKey, header.messageNumber) with
  | some key =>
    exact ⟨used, List.Subset.refl _, .inl ⟨key, _, RatchetState.takeMessageKey_stored stored fresh,
      h.takeStored stored⟩⟩
  | none =>
    rw [RatchetState.takeMessageKey_unstored stored]
    obtain ⟨used', grow, turned⟩ := h.turn symbolic fresh header
    refine ⟨used', grow, ?_⟩
    rcases result : s.turnRatchet fresh header with ⟨r, t⟩
    rw [result] at turned
    cases r with
    | error e => exact .inr ⟨e, t, rfl, turned⟩
    | ok done =>
      have skipped := turned.skip symbolic header.messageNumber
      rcases read : t.skipMessageKeys header.messageNumber with ⟨r', t'⟩
      rw [Outcome.andThen_ok, read]
      simp only [read] at skipped
      cases r' with
      | error e => exact .inr ⟨e, t', rfl, skipped⟩
      | ok done =>
        rw [Outcome.andThen_ok]
        rcases skipped.advance symbolic with taken' | ⟨e, refused⟩
        · exact .inl taken'
        · exact .inr ⟨e, t', refused, skipped⟩

theorem encrypt (h : Keeps secret used taken s) (nonce : Block 12) (plaintext : Bytes) :
    Keeps secret used taken (s.encrypt nonce plaintext).2 := by
  rw [RatchetState.encrypt_state]
  refine { h with sending := ?_ }
  obtain ⟨n, zero | ⟨u, inside, direction, same⟩⟩ := h.sending
  · refine ⟨n + 1, .inl ?_⟩
    rw [chainAt_succ, ← zero]
  · refine ⟨n + 1, .inr ⟨u, inside, direction, ?_⟩⟩
    rw [chainAt_succ, ← same]

/-- The key `encrypt` seals with belongs to a sending chain. -/
def SealsWith (used : List (Use P)) (key : P.Key) : Prop :=
  ∃ n, key = messageKeyAt P P.zeroKey n ∨ ∃ u ∈ used, u.sends = true ∧ key = messageKeyAt P u.chain n

theorem seals (h : Keeps secret used taken s) : SealsWith used (kdfCk P s.sendingChainKey).2 := by
  obtain ⟨n, zero | ⟨u, inside, direction, same⟩⟩ := h.sending
  · exact ⟨n, .inl (by rw [zero]; rfl)⟩
  · exact ⟨n, .inr ⟨u, inside, direction, by rw [same]; rfl⟩⟩

theorem taken_not_sealed (h : Keeps secret used taken s) (symbolic : P.Symbolic)
    (held : key ∈ taken) : ¬ SealsWith used key := by
  obtain ⟨u, inside, receives, i, same, _⟩ := h.derived key (.inl held)
  rintro ⟨n, zero | ⟨v, inside', sends, same'⟩⟩
  · obtain ⟨start, _⟩ := messageKeyAt_injective symbolic u.start (.inl rfl) (same.symm.trans zero)
    exact symbolic.zero_underived start
  · obtain ⟨chains, _⟩ := messageKeyAt_injective symbolic u.start v.start (same.symm.trans same')
    have one := h.rooted.use_eq symbolic inside inside' chains
    rw [one, sends] at receives
    cases receives

theorem SealsWith.mono {used used' : List (Use P)} (h : SealsWith used key)
    (grow : used ⊆ used') : SealsWith used' key := by
  obtain ⟨n, zero | ⟨u, inside, rest⟩⟩ := h
  · exact ⟨n, .inl zero⟩
  · exact ⟨n, .inr ⟨u, grow inside, rest⟩⟩

theorem initAlice (symbolic : P.Symbolic) (outputs : List P.Key) (fresh : P.Secret) (bobPublic : Block 32) :
    ∃ used, Keeps (x3dhSecret P outputs) used []
      (.initAlice fresh (x3dhSecret P outputs) bobPublic) := by
  have start : Rooted (x3dhSecret P outputs) (x3dhSecret P outputs) [] := by
    refine ⟨List.nodup_singleton _, ?_⟩
    intro r inside
    exact .inl (List.mem_singleton.mp inside)
  have rooted := start.step symbolic (P.diffieHellman fresh bobPublic) true
  have nothing : ∀ slot key, (∅ : SkippedKeys P).lookup slot ≠ some key := by
    intro slot key found
    rw [Finmap.lookup_empty] at found
    cases found
  refine ⟨_, rooted, ⟨0, .inr ⟨_, List.mem_cons_self, rfl, rfl⟩⟩, ?_, ?_, ?_, ?_, List.nodup_nil⟩
  · intro chainKey impossible
    cases impossible
  · rintro key (impossible | ⟨slot, found⟩)
    · cases impossible
    · exact absurd found (nothing slot key)
  · exact fun slot key found => absurd found (nothing slot key)
  · exact fun slot slot' key found => absurd found (nothing slot key)

theorem initBob (outputs : List P.Key) (own : P.Secret) :
    Keeps (x3dhSecret P outputs) [] [] (.initBob (x3dhSecret P outputs) own) := by
  have nothing : ∀ slot key, (∅ : SkippedKeys P).lookup slot ≠ some key := by
    intro slot key found
    rw [Finmap.lookup_empty] at found
    cases found
  refine ⟨⟨List.nodup_singleton _, ?_⟩, ⟨0, .inl rfl⟩, ?_, ?_, ?_, ?_, List.nodup_nil⟩
  · intro r inside
    exact .inl (List.mem_singleton.mp inside)
  · intro chainKey impossible
    cases impossible
  · rintro key (impossible | ⟨slot, found⟩)
    · cases impossible
    · exact absurd found (nothing slot key)
  · exact fun slot key found => absurd found (nothing slot key)
  · exact fun slot slot' key found => absurd found (nothing slot key)

end Keeps

end Echo.Signal
