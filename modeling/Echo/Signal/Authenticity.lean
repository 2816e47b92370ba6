import Echo.Signal.Conversation
import Echo.Signal.KeyTree
import Echo.Signal.Persistence

/-! Two parties on a network the adversary owns: any header with any ciphertext may be put
before either party, any number of times. -/
namespace Echo.Signal
open Echo.Lib
variable {P : Primitives}

/-- One successful `encrypt`, with the key it sealed under. -/
structure SealedWire (P : Primitives) where
  sender : Party
  key : P.Key
  nonce : Block 12
  header : MessageHeader
  plaintext : Bytes
  ciphertext : Bytes

/-- One successful `decrypt`, with the key it opened with. -/
structure AcceptedWire (P : Primitives) where
  receiver : Party
  key : P.Key
  header : MessageHeader
  ciphertext : Bytes
  plaintext : Bytes

/-- Both ratchets, and what has been sealed and accepted so far, last first. -/
structure Exchange (P : Primitives) where
  state : Party → RatchetState P
  sealed : List (SealedWire P)
  accepted : List (AcceptedWire P)

inductive NetworkAction (P : Primitives) where
  | encrypt (sender : Party) (nonce : Block 12) (plaintext : Bytes)
  | receive (receiver : Party) (fresh : P.Secret) (header : MessageHeader) (ciphertext : Bytes)

namespace Exchange

def start (sharedSecret : P.Key) (alicePrivate bobPrivate : P.Secret) : Exchange P where
  state := (Conversation.start sharedSecret alicePrivate bobPrivate).state
  sealed := []
  accepted := []

def act (x : Exchange P) : NetworkAction P → Exchange P
  | .encrypt sender nonce plaintext =>
    let s := x.state sender
    let (result, after) := s.encrypt nonce plaintext
    { x with
      state := Function.update x.state sender after
      sealed := match result with
        | .ok (ciphertext, header) =>
          ⟨sender, (kdfCk P s.sendingChainKey).2, nonce, header, plaintext, ciphertext⟩ :: x.sealed
        | .error _ => x.sealed }
  | .receive receiver fresh header ciphertext =>
    let s := x.state receiver
    let (result, after) := s.decrypt fresh header ciphertext
    { x with
      state := Function.update x.state receiver after
      accepted := match result, (s.takeMessageKey fresh header).1 with
        | .ok plaintext, .ok key => ⟨receiver, key, header, ciphertext, plaintext⟩ :: x.accepted
        | _, _ => x.accepted }

def after (x : Exchange P) (run : List (NetworkAction P)) : Exchange P := run.foldl act x

/-- The AEAD opens only what was sealed under the same key with the same associated data. -/
def Unforged (x : Exchange P) : NetworkAction P → Prop
  | .encrypt _ _ _ => True
  | .receive receiver fresh header ciphertext => ∀ key plaintext,
      ((x.state receiver).takeMessageKey fresh header).1 = .ok key →
      decryptWithAd P key ciphertext header.serialize = .ok plaintext →
      ∃ wire ∈ x.sealed, wire.key = key ∧ wire.header.serialize = header.serialize ∧
        wire.ciphertext = ciphertext

def RunUnforged : Exchange P → List (NetworkAction P) → Prop
  | _, [] => True
  | x, a :: run => x.Unforged a ∧ (x.act a).RunUnforged run

/-- Every acceptance has its `encrypt` on the other side, under the same header. -/
def Authentic (x : Exchange P) : Prop :=
  ∀ a ∈ x.accepted, ∃ wire ∈ x.sealed, wire.sender = a.receiver.other ∧ wire.header = a.header ∧
    wire.ciphertext = a.ciphertext ∧ wire.plaintext = a.plaintext

def AcceptedOnce (x : Exchange P) : Prop :=
  (x.accepted.map fun a => (a.receiver, a.header, a.ciphertext)).Nodup

structure Ordered (secret : P.Key) (x : Exchange P) (used : Party → List (Use P))
    (taken : Party → List P.Key) : Prop where
  keeps : ∀ p, Keeps secret (used p) (taken p) (x.state p)
  seals : ∀ wire ∈ x.sealed, Keeps.SealsWith (used wire.sender) wire.key ∧
    encryptWithAd P wire.key wire.nonce wire.plaintext wire.header.serialize = .ok wire.ciphertext
  keys : ∀ p, ((x.accepted.filter fun a => a.receiver = p).map AcceptedWire.key).Sublist (taken p)
  opens : ∀ a ∈ x.accepted, decryptWithAd P a.key a.ciphertext a.header.serialize = .ok a.plaintext ∧
    ∃ wire ∈ x.sealed, wire.key = a.key ∧ wire.header = a.header ∧ wire.ciphertext = a.ciphertext

end Exchange

theorem Primitives.Symbolic.opened_plaintext (symbolic : P.Symbolic) {key : P.Key} {nonce : Block 12}
    {plaintext opened ad ciphertext : Bytes}
    (sealed : encryptWithAd P key nonce plaintext ad = .ok ciphertext)
    (accepted : decryptWithAd P key ciphertext ad = .ok opened) : plaintext = opened := by
  obtain ⟨body, found, rfl⟩ := encryptWithAd_ok P sealed
  by_cases short : (nonce.toList ++ body).length < 12 + 16
  · rw [decryptWithAd_short P key ad short] at accepted
    cases accepted
  · have len : nonce.toList.length = 12 := nonce.2
    have long : 16 ≤ body.length := by
      rw [List.length_append, len] at short
      omega
    rw [decryptWithAd_append P key nonce body ad long, symbolic.decrypt_encrypt found] at accepted
    exact Except.ok.inj accepted

theorem Primitives.Symbolic.sealed_key (symbolic : P.Symbolic) {key key' : P.Key} {nonce nonce' : Block 12}
    {plaintext plaintext' ad ciphertext : Bytes}
    (sealed : encryptWithAd P key nonce plaintext ad = .ok ciphertext)
    (sealed' : encryptWithAd P key' nonce' plaintext' ad = .ok ciphertext) : key = key' := by
  obtain ⟨body, found, rfl⟩ := encryptWithAd_ok P sealed
  obtain ⟨body', found', same⟩ := encryptWithAd_ok P sealed'
  have lengths : nonce.toList.length = nonce'.toList.length := nonce.2.trans nonce'.2.symm
  obtain ⟨nonces, bodies⟩ := List.append_inj same lengths
  cases Subtype.ext nonces
  cases bodies
  exact symbolic.sealed_once found found'

namespace Exchange
namespace Ordered
variable {outputs : List P.Key} {x : Exchange P} {used : Party → List (Use P)}
  {taken : Party → List P.Key}

theorem encrypt (h : Ordered (x3dhSecret P outputs) x used taken) (p : Party) (nonce : Block 12)
    (plaintext : Bytes) :
    Ordered (x3dhSecret P outputs) (x.act (.encrypt p nonce plaintext)) used taken := by
  have seals := (h.keeps p).seals
  refine ⟨?_, ?_, h.keys, ?_⟩
  · intro q
    change Keeps _ _ _ (Function.update x.state p _ q)
    by_cases same : q = p
    · subst same
      rw [Function.update_self]
      exact (h.keeps q).encrypt nonce plaintext
    · rw [Function.update_of_ne same]
      exact h.keeps q
  · intro wire inside
    simp only [act] at inside
    split at inside
    · rename_i ciphertext header sealed
      rcases List.mem_cons.mp inside with rfl | old
      · exact ⟨seals, (RatchetState.encrypt_ok sealed).2⟩
      · exact h.seals wire old
    · exact h.seals wire inside
  · intro a inside
    obtain ⟨opened, wire, known, rest⟩ := h.opens a inside
    refine ⟨opened, wire, ?_, rest⟩
    simp only [act]
    split
    · exact List.mem_cons_of_mem _ known
    · exact known

theorem move (h : Ordered (x3dhSecret P outputs) x used taken) (p : Party) {more : List (Use P)}
    {held : List P.Key} {t : RatchetState P} (grow : used p ⊆ more)
    (keeps : Keeps (x3dhSecret P outputs) more held t) (longer : (taken p).Sublist held) :
    Ordered (x3dhSecret P outputs) { x with state := Function.update x.state p t }
      (Function.update used p more) (Function.update taken p held) := by
  refine ⟨?_, ?_, ?_, h.opens⟩
  · intro q
    by_cases same : q = p
    · subst same
      simp only [Function.update_self]
      exact keeps
    · simp only [Function.update_of_ne same]
      exact h.keeps q
  · intro wire inside
    obtain ⟨seals, sealed⟩ := h.seals wire inside
    refine ⟨?_, sealed⟩
    by_cases same : wire.sender = p
    · rw [same, Function.update_self]
      exact (same ▸ seals).mono grow
    · rw [Function.update_of_ne same]
      exact seals
  · intro q
    by_cases same : q = p
    · subst same
      rw [Function.update_self]
      exact (h.keys q).trans longer
    · rw [Function.update_of_ne same]
      exact h.keys q

theorem receive (h : Ordered (x3dhSecret P outputs) x used taken) (symbolic : P.Symbolic) (p : Party)
    (fresh : P.Secret) (header : MessageHeader) (ciphertext : Bytes)
    (unforged : x.Unforged (.receive p fresh header ciphertext)) :
    ∃ used' taken', Ordered (x3dhSecret P outputs) (x.act (.receive p fresh header ciphertext)) used' taken' := by
  obtain ⟨more, grow, ⟨key, t, took, keeps⟩ | ⟨e, t, refused, keeps⟩⟩ :=
    (h.keeps p).takeMessageKey symbolic fresh header
  · have moved := h.move p grow keeps (List.sublist_cons_self key (taken p))
    refine ⟨Function.update used p more, Function.update taken p (key :: taken p), ?_⟩
    unfold act
    simp only [RatchetState.decrypt, took, Outcome.andThen_ok]
    cases opened : decryptWithAd P key ciphertext header.serialize with
    | error e => exact moved
    | ok plaintext =>
      obtain ⟨wire, known, sameKey, sameAd, sameText⟩ :=
        unforged key plaintext (by rw [took]) opened
      have sameHeader := MessageHeader.serialize_injective sameAd
      refine ⟨moved.keeps, moved.seals, ?_, ?_⟩
      · intro q
        by_cases same : q = p
        · subst same
          have before := h.keys q
          simp only [List.filter_cons, decide_true, if_true, List.map_cons, Function.update_self]
          exact before.cons_cons key
        · have other : decide (p = q) = false := decide_eq_false (Ne.symm same)
          simp only [List.filter_cons, other, Bool.false_eq_true, if_false]
          exact moved.keys q
      · intro a inside
        rcases List.mem_cons.mp inside with rfl | old
        · exact ⟨opened, wire, known, sameKey, sameHeader, sameText⟩
        · exact h.opens a old
  · have moved := h.move p grow keeps (List.Sublist.refl (taken p))
    refine ⟨Function.update used p more, Function.update taken p (taken p), ?_⟩
    unfold act
    simp only [RatchetState.decrypt, refused, Outcome.andThen_error]
    exact moved

theorem act (h : Ordered (x3dhSecret P outputs) x used taken) (symbolic : P.Symbolic)
    (a : NetworkAction P) (unforged : x.Unforged a) :
    ∃ used' taken', Ordered (x3dhSecret P outputs) (x.act a) used' taken' := by
  cases a with
  | encrypt sender nonce plaintext => exact ⟨used, taken, h.encrypt sender nonce plaintext⟩
  | receive receiver fresh header ciphertext =>
    exact h.receive symbolic receiver fresh header ciphertext unforged

theorem run (h : Ordered (x3dhSecret P outputs) x used taken) (symbolic : P.Symbolic)
    (run : List (NetworkAction P)) (unforged : x.RunUnforged run) :
    ∃ used' taken', Ordered (x3dhSecret P outputs) (x.after run) used' taken' := by
  induction run generalizing x used taken with
  | nil => exact ⟨used, taken, h⟩
  | cons a run ih =>
    obtain ⟨used', taken', next⟩ := h.act symbolic a unforged.1
    exact ih next unforged.2

theorem authentic (h : Ordered (x3dhSecret P outputs) x used taken) (symbolic : P.Symbolic) :
    x.Authentic := by
  intro a inside
  obtain ⟨opened, wire, known, sameKey, sameHeader, sameText⟩ := h.opens a inside
  obtain ⟨seals, sealed⟩ := h.seals wire known
  have held : a.key ∈ taken a.receiver := by
    refine (h.keys a.receiver).subset (List.mem_map_of_mem (List.mem_filter.mpr ⟨inside, ?_⟩))
    exact decide_eq_true rfl
  have apart : wire.sender ≠ a.receiver := by
    intro same
    rw [same, sameKey] at seals
    exact (h.keeps a.receiver).taken_not_sealed symbolic held seals
  rw [sameKey, sameHeader, sameText] at sealed
  refine ⟨wire, known, ?_, sameHeader, sameText, symbolic.opened_plaintext sealed opened⟩
  rcases a.receiver.eq_or_other wire.sender with same | other
  · exact absurd same apart
  · exact other

theorem pairwise_keys (accepted : List (AcceptedWire P))
    (distinct : ∀ p, ((accepted.filter fun a => a.receiver = p).map AcceptedWire.key).Nodup) :
    accepted.Pairwise fun a b => ¬ (a.receiver = b.receiver ∧ a.key = b.key) := by
  induction accepted with
  | nil => exact List.Pairwise.nil
  | cons a rest ih =>
    refine List.pairwise_cons.mpr ⟨?_, ih fun p => ?_⟩
    · rintro b inside ⟨receivers, keys⟩
      have here := distinct a.receiver
      simp only [List.filter_cons, decide_true, if_true, List.map_cons, List.nodup_cons] at here
      refine here.1 (keys ▸ List.mem_map_of_mem (List.mem_filter.mpr ⟨inside, ?_⟩))
      exact decide_eq_true receivers.symm
    · have smaller := List.Sublist.filter (fun b => decide (b.receiver = p)) (List.sublist_cons_self a rest)
      exact (smaller.map AcceptedWire.key).nodup (distinct p)

theorem acceptedOnce (h : Ordered (x3dhSecret P outputs) x used taken) (symbolic : P.Symbolic) :
    x.AcceptedOnce := by
  have keys : x.accepted.Pairwise fun a b => ¬ (a.receiver = b.receiver ∧ a.key = b.key) :=
    pairwise_keys x.accepted fun p => ((h.keys p).nodup (h.keeps p).once)
  refine List.pairwise_map.mpr (keys.imp_of_mem ?_)
  intro a b ha hb differ same
  obtain ⟨receivers, rest⟩ := Prod.mk.inj same
  obtain ⟨headers, texts⟩ := Prod.mk.inj rest
  obtain ⟨_, wire, known, sameKey, sameHeader, sameText⟩ := h.opens a ha
  obtain ⟨_, wire', known', sameKey', sameHeader', sameText'⟩ := h.opens b hb
  have sealed := (h.seals wire known).2
  have sealed' := (h.seals wire' known').2
  rw [sameKey, sameHeader, sameText] at sealed
  rw [sameKey', sameHeader', sameText', ← headers, ← texts] at sealed'
  exact differ ⟨receivers, symbolic.sealed_key sealed sealed'⟩

end Ordered

theorem act_receive_sealed (x : Exchange P) (p : Party) (fresh : P.Secret) (header : MessageHeader)
    (ciphertext : Bytes) : (x.act (.receive p fresh header ciphertext)).sealed = x.sealed := rfl

theorem accepted_mono (x : Exchange P) (action : NetworkAction P) {a : AcceptedWire P}
    (inside : a ∈ x.accepted) : a ∈ (x.act action).accepted := by
  cases action with
  | encrypt sender nonce plaintext => exact inside
  | receive receiver fresh header ciphertext =>
    simp only [act]
    split
    · exact List.mem_cons_of_mem _ inside
    · exact inside

theorem accepted_of_opened (x : Exchange P) (p : Party) (fresh : P.Secret) (header : MessageHeader)
    {ciphertext plaintext : Bytes} {key : P.Key}
    (took : ((x.state p).takeMessageKey fresh header).1 = .ok key)
    (opened : decryptWithAd P key ciphertext header.serialize = .ok plaintext) :
    ⟨p, key, header, ciphertext, plaintext⟩ ∈ (x.act (.receive p fresh header ciphertext)).accepted := by
  have reply : ((x.state p).decrypt fresh header ciphertext).1 = .ok plaintext := by
    rw [RatchetState.decrypt]
    rcases result : (x.state p).takeMessageKey fresh header with ⟨r, t⟩
    rw [result] at took
    cases took
    exact opened
  simp only [act, reply, took]
  exact List.mem_cons_self

theorem start_ordered (symbolic : P.Symbolic) (outputs : List P.Key) (alicePrivate bobPrivate : P.Secret) :
    ∃ used taken, Ordered (x3dhSecret P outputs)
      (start (x3dhSecret P outputs) alicePrivate bobPrivate) used taken := by
  obtain ⟨first, alice⟩ := Keeps.initAlice symbolic outputs alicePrivate (P.publicKey bobPrivate)
  have bob := Keeps.initBob outputs bobPrivate
  refine ⟨fun p => if p = .alice then first else [], fun _ => [], ?_, ?_, ?_, ?_⟩
  · intro p
    cases p with
    | alice => exact alice
    | bob => exact bob
  · intro wire impossible
    cases impossible
  · exact fun p => List.Sublist.refl []
  · intro a impossible
    cases impossible

/-- In every run on a hostile network, a successful `decrypt` gives what the other party
encrypted under that header, and no party accepts a header and ciphertext twice. -/
theorem accepted_authentic_once (symbolic : P.Symbolic) (outputs : List P.Key)
    (alicePrivate bobPrivate : P.Secret) (run : List (NetworkAction P))
    (unforged : (start (x3dhSecret P outputs) alicePrivate bobPrivate).RunUnforged run) :
    ((start (x3dhSecret P outputs) alicePrivate bobPrivate).after run).Authentic ∧
    ((start (x3dhSecret P outputs) alicePrivate bobPrivate).after run).AcceptedOnce := by
  obtain ⟨used, taken, begun⟩ := start_ordered symbolic outputs alicePrivate bobPrivate
  obtain ⟨used', taken', ordered⟩ := begun.run symbolic run unforged
  exact ⟨ordered.authentic symbolic, ordered.acceptedOnce symbolic⟩

end Exchange

namespace Primitives

/- An instance in which keys are the terms that made them, written out. -/
def packIkm : Ikm Bytes → Bytes
  | .seed byte => [0, byte]
  | .dh outputs => 1 :: outputs.flatMap pack

theorem packIkm_injective {ikm ikm' : Ikm Bytes} (same : packIkm ikm = packIkm ikm') : ikm = ikm' := by
  cases ikm with
  | seed byte =>
    cases ikm' with
    | seed byte' => rw [(List.cons.inj (List.cons.inj same).2).1]
    | dh outputs => exact absurd (List.cons.inj same).1 (by decide)
  | dh outputs =>
    cases ikm' with
    | seed byte => exact absurd (List.cons.inj same).1 (by decide)
    | dh outputs' => rw [flatMap_pack_injective (List.cons.inj same).2]

abbrev terms : Primitives where
  Key := Bytes
  Secret := Block 32
  zeroKey := []
  publicKey := id
  diffieHellman own peer := leBytes 33 (leValue own.toList + leValue peer.toList)
  hkdf salt ikm info blocks i :=
    1 :: (pack salt ++ (pack (packIkm ikm) ++ (pack info ++
      (pack (List.replicate blocks 0) ++ pack (List.replicate i.val 0)))))
  aesGcmEncrypt key _ message aad := some (pack key ++ (pack aad ++ message))
  aesGcmDecrypt key _ ciphertext aad :=
    if ciphertext.take (pack key ++ pack aad).length = pack key ++ pack aad then
      some (ciphertext.drop (pack key ++ pack aad).length)
    else none
  ed25519Verify message signature publicKey := signature == publicKey ++ message

theorem terms_symbolic : terms.Symbolic where
  hkdf_injective := by
    intro salt salt' ikm ikm' info info' blocks blocks' i i' same
    obtain ⟨salts, same⟩ := pack_append_injective (List.cons.inj same).2
    obtain ⟨ikms, same⟩ := pack_append_injective same
    obtain ⟨infos, same⟩ := pack_append_injective same
    obtain ⟨counts, places⟩ := pack_append_injective same
    have lengths := congrArg List.length counts
    have indices := congrArg List.length (pack_injective places)
    rw [List.length_replicate, List.length_replicate] at lengths indices
    exact ⟨salts, packIkm_injective ikms, infos, lengths, indices⟩
  zero_underived := by
    intro salt ikm info blocks i empty
    cases empty
  decrypt_encrypt := by
    intro key nonce message aad ciphertext sealed
    cases Option.some.inj sealed
    rw [← List.append_assoc]
    simp only [List.take_left, List.drop_left, if_true]
  sealed_once := by
    intro key key' nonce message message' aad ciphertext sealed sealed'
    have same := (Option.some.inj sealed).trans (Option.some.inj sealed').symm
    exact (pack_append_injective same).1

theorem terms_opened {key key' : Bytes} {nonce : Block 12} {body ad opened : Bytes}
    (accepted : decryptWithAd terms key (nonce.toList ++ (pack key' ++ body)) ad = .ok opened) :
    key' = key := by
  by_cases short : (nonce.toList ++ (pack key' ++ body)).length < 12 + 16
  · rw [decryptWithAd_short terms key ad short] at accepted
    cases accepted
  · have len : nonce.toList.length = 12 := nonce.2
    have long : 16 ≤ (pack key' ++ body).length := by
      rw [List.length_append, len] at short
      omega
    rw [decryptWithAd_append terms key nonce (pack key' ++ body) ad long] at accepted
    simp only at accepted
    split at accepted
    · cases accepted
    · rename_i plaintext found
      split at found
      · rename_i front
        have whole := List.take_append_drop (pack key ++ pack ad).length (pack key' ++ body)
        rw [front, List.append_assoc] at whole
        exact (pack_append_injective whole).1.symm
      · cases found

end Primitives

namespace Exchange

/- Alice's first wire reaches Bob, is replayed to him and reflected to her. -/
def replayKey : Bytes :=
  (kdfCk .terms (kdfRk .terms (x3dhSecret .terms [])
    (Primitives.terms.diffieHellman zeroBlock zeroBlock)).2).2

def replayHeader : MessageHeader := ⟨zeroBlock, 0, 0⟩

def replayWire : Bytes :=
  Conversation.zeroNonce.toList ++ (pack replayKey ++ (pack replayHeader.serialize ++ [104, 105]))

def replayRun : List (NetworkAction .terms) :=
  [.encrypt .alice Conversation.zeroNonce [104, 105],
    .receive .bob zeroBlock replayHeader replayWire,
    .receive .bob zeroBlock replayHeader replayWire,
    .receive .alice zeroBlock replayHeader replayWire]

def replayStart : Exchange .terms := start (P := .terms) (x3dhSecret .terms []) zeroBlock zeroBlock

theorem replay_sealed (x : Exchange .terms)
    (sealed : x.sealed = [⟨.alice, replayKey, Conversation.zeroNonce, replayHeader, [104, 105], replayWire⟩])
    (p : Party) : x.Unforged (.receive p zeroBlock replayHeader replayWire) := by
  intro key plaintext _ opened
  refine ⟨_, by rw [sealed]; exact List.mem_cons_self, ?_, rfl, rfl⟩
  exact Primitives.terms_opened opened

theorem replay_opened : decryptWithAd .terms replayKey replayWire replayHeader.serialize = .ok [104, 105] := by
  have long : 16 ≤ (pack replayKey ++ (pack replayHeader.serialize ++ [104, 105])).length := by
    have size := length_lt_pack replayHeader.serialize
    rw [MessageHeader.serialize_length] at size
    simp only [List.length_append]
    omega
  rw [replayWire, decryptWithAd_append .terms replayKey Conversation.zeroNonce _ _ long,
    Primitives.terms_symbolic.decrypt_encrypt rfl]

theorem replay_authentic_once :
    replayStart.RunUnforged replayRun ∧
    (∃ a ∈ (replayStart.after replayRun).accepted, a.receiver = .bob ∧ a.plaintext = [104, 105]) ∧
    (replayStart.after replayRun).Authentic ∧ (replayStart.after replayRun).AcceptedOnce := by
  have sealed : (replayStart.act (.encrypt .alice Conversation.zeroNonce [104, 105])).sealed =
      [⟨.alice, replayKey, Conversation.zeroNonce, replayHeader, [104, 105], replayWire⟩] := rfl
  have unforged : replayStart.RunUnforged replayRun := by
    refine ⟨trivial, replay_sealed _ sealed .bob, replay_sealed _ ?_ .bob, replay_sealed _ ?_ .alice, trivial⟩
    · rw [act_receive_sealed, sealed]
    · rw [act_receive_sealed, act_receive_sealed, sealed]
  refine ⟨unforged, ?_, accepted_authentic_once Primitives.terms_symbolic [] zeroBlock zeroBlock replayRun unforged⟩
  have took : (((replayStart.act (.encrypt .alice Conversation.zeroNonce [104, 105])).state .bob).takeMessageKey
      zeroBlock replayHeader).1 = .ok replayKey := rfl
  have first := accepted_of_opened _ .bob zeroBlock replayHeader took replay_opened
  have kept := accepted_mono _ (.receive .bob zeroBlock replayHeader replayWire) first
  have last := accepted_mono _ (.receive .alice zeroBlock replayHeader replayWire) kept
  exact ⟨_, last, rfl, rfl⟩

end Exchange
end Echo.Signal
