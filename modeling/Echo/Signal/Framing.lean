import Echo.Signal.Authenticity

/-! Wires as byte strings: two sessions, and a network that may hand `decrypt_message` any bytes. -/
namespace Echo.Signal
open Echo.Lib
variable {P : Primitives}

theorem u32Bytes_u32OfBytes {data : Bytes} (size : data.length = 4) : u32Bytes (u32OfBytes data) = data := by
  have small : leValue data < 2 ^ 32 := by
    have bound := leValue_bound data
    rw [size] at bound
    exact bound
  rw [u32Bytes, u32OfBytes, UInt32.toNat_ofNat_of_lt' small]
  conv_lhs => rw [← size]
  exact leBytes_leValue data

variable {header : MessageHeader}

theorem MessageHeader.serialize_deserialize {data : Bytes} (size : data.length = 40)
    (parsed : deserialize data = .ok header) : header.serialize = data := by
  rw [deserialize, dif_neg (by omega)] at parsed
  cases parsed
  have chain : ((data.drop 32).take 4).length = 4 := by
    rw [List.length_take, List.length_drop]
    omega
  have number : ((data.drop 36).take 4).length = 4 := by
    rw [List.length_take, List.length_drop]
    omega
  have last : (data.drop 36).take 4 = data.drop 36 := by
    refine List.take_of_length_le ?_
    rw [List.length_drop]
    omega
  have middle : (data.drop 32).take 4 ++ data.drop 36 = data.drop 32 := by
    have parts := List.take_append_drop 4 (data.drop 32)
    rwa [List.drop_drop] at parts
  change data.take 32 ++ (u32Bytes _ ++ u32Bytes _) = data
  rw [u32Bytes_u32OfBytes chain, u32Bytes_u32OfBytes number, last, middle, List.take_append_drop]

theorem RatchetState.decrypt_ok {s : RatchetState P} {fresh : P.Secret}
    {ciphertext plaintext : Bytes} (opened : (s.decrypt fresh header ciphertext).1 = .ok plaintext) :
    ∃ key, (s.takeMessageKey fresh header).1 = .ok key ∧
      decryptWithAd P key ciphertext header.serialize = .ok plaintext := by
  rw [decrypt] at opened
  rcases took : s.takeMessageKey fresh header with ⟨result, t⟩
  rw [took] at opened
  cases result with
  | error e => cases opened
  | ok key => exact ⟨key, rfl, opened⟩

theorem RatchetState.decrypt_of_key {s : RatchetState P} {fresh : P.Secret}
    {ciphertext plaintext : Bytes} {key : P.Key} (took : (s.takeMessageKey fresh header).1 = .ok key)
    (opened : decryptWithAd P key ciphertext header.serialize = .ok plaintext) :
    (s.decrypt fresh header ciphertext).1 = .ok plaintext := by
  rw [decrypt]
  rcases result : s.takeMessageKey fresh header with ⟨r, t⟩
  rw [result] at took
  cases took
  exact opened

def declaredHeaderLen (data : Bytes) : Nat := (u32OfBytes (data.take 4)).toNat

namespace Session

variable {data ciphertext : Bytes} {header : MessageHeader} {session : Session P}

theorem unframe_ok
    (parsed : unframe data = .ok (header, ciphertext)) :
    4 + declaredHeaderLen data ≤ data.length ∧
      MessageHeader.deserialize ((data.drop 4).take (declaredHeaderLen data)) = .ok header ∧
      ciphertext = data.drop (4 + declaredHeaderLen data) := by
  rw [unframe] at parsed
  split at parsed
  · cases parsed
  · change (if data.length < 4 + declaredHeaderLen data then _ else _) = _ at parsed
    split at parsed
    · cases parsed
    · rename_i whole
      cases read : MessageHeader.deserialize ((data.drop 4).take (declaredHeaderLen data)) with
      | error e =>
        change (MessageHeader.deserialize ((data.drop 4).take (declaredHeaderLen data)) >>= _) = _ at parsed
        rw [read] at parsed
        cases parsed
      | ok field =>
        change (MessageHeader.deserialize ((data.drop 4).take (declaredHeaderLen data)) >>= _) = _ at parsed
        rw [read] at parsed
        cases parsed
        exact ⟨Nat.le_of_not_lt whole, rfl, rfl⟩

theorem declared_frame (header : MessageHeader) (ciphertext : Bytes) :
    declaredHeaderLen (frame header ciphertext) = 40 := by
  have size : (u32Bytes (UInt32.ofNat header.serialize.length)).length = 4 := u32Bytes_length _
  rw [declaredHeaderLen, frame, List.take_left' size, u32OfBytes_u32Bytes, MessageHeader.serialize_length]
  rfl

theorem frame_eq_iff
    (parsed : unframe data = .ok (header, ciphertext)) :
    frame header ciphertext = data ↔ declaredHeaderLen data = 40 := by
  constructor
  · intro same
    rw [← same]
    exact declared_frame header ciphertext
  · intro usual
    obtain ⟨whole, read, rfl⟩ := unframe_ok parsed
    rw [usual] at whole read ⊢
    have front : (data.take 4).length = 4 := by
      rw [List.length_take]
      omega
    have field : ((data.drop 4).take 40).length = 40 := by
      rw [List.length_take, List.length_drop]
      omega
    have length : u32Bytes (UInt32.ofNat header.serialize.length) = data.take 4 := by
      rw [MessageHeader.serialize_length, ← u32Bytes_u32OfBytes front]
      exact congrArg u32Bytes (UInt32.toNat_inj.mp usual.symm)
    rw [frame, length, MessageHeader.serialize_deserialize field read, ← List.drop_drop,
      List.take_append_drop, List.take_append_drop]

theorem unframe_extra (header : MessageHeader) (extra ciphertext : Bytes)
    (fits : 40 + extra.length < 2 ^ 32) :
    unframe (u32Bytes (UInt32.ofNat (40 + extra.length)) ++ (header.serialize ++ extra ++ ciphertext)) =
      .ok (header, ciphertext) := by
  have size : (u32Bytes (UInt32.ofNat (40 + extra.length))).length = 4 := u32Bytes_length _
  have field : (header.serialize ++ extra).length = 40 + extra.length := by
    rw [List.length_append, MessageHeader.serialize_length]
  have declared : (u32OfBytes ((u32Bytes (UInt32.ofNat (40 + extra.length)) ++
      (header.serialize ++ extra ++ ciphertext)).take 4)).toNat = 40 + extra.length := by
    rw [List.take_left' size, u32OfBytes_u32Bytes, UInt32.toNat_ofNat_of_lt' fits]
  rw [unframe, if_neg (by simp)]
  simp only [declared]
  rw [if_neg (by simp), ← List.drop_drop, List.drop_left' size, List.take_left' field,
    List.drop_left' field, MessageHeader.deserialize_serialize]
  rfl

theorem encryptMessage_eq (established : session.established = true)
    (nonce : Block 12) (plaintext : Bytes) :
    session.encryptMessage nonce plaintext =
      ((session.ratchet.encrypt nonce plaintext).1.map fun sealed => frame sealed.2 sealed.1,
        { session with ratchet := (session.ratchet.encrypt nonce plaintext).2 }) := by
  rw [encryptMessage, if_pos established]
  rcases session.ratchet.encrypt nonce plaintext with ⟨result, ratchet⟩
  cases result <;> rfl

theorem decryptMessage_eq (established : session.established = true)
    (fresh : P.Secret)
    (parsed : unframe data = .ok (header, ciphertext)) :
    session.decryptMessage fresh data = ((session.ratchet.decrypt fresh header ciphertext).1,
      { session with ratchet := (session.ratchet.decrypt fresh header ciphertext).2 }) := by
  rw [decryptMessage, if_pos established, parsed]

theorem decryptMessage_unparsed (established : session.established = true)
    (fresh : P.Secret) {e : CoreError} (unparsed : unframe data = .error e) :
    session.decryptMessage fresh data = (.error e, session) := by
  rw [decryptMessage, if_pos established, unparsed]

end Session

/-- Both sessions, the wires `encrypt_message` has returned and the bytes `decrypt_message` has opened. -/
structure Correspondence (P : Primitives) where
  session : Party → Session P
  returned : List (Party × Bytes)
  opened : List (Party × Bytes)

inductive Call (P : Primitives) where
  | encryptMessage (sender : Party) (nonce : Block 12) (plaintext : Bytes)
  | decryptMessage (receiver : Party) (fresh : P.Secret) (data : Bytes)

namespace Correspondence

def start (sharedSecret : P.Key) (alicePrivate bobPrivate : P.Secret) (peerUserId : Party → String) :
    Correspondence P where
  session p := ⟨peerUserId p, (Exchange.start sharedSecret alicePrivate bobPrivate).state p, true⟩
  returned := []
  opened := []

def act (x : Correspondence P) : Call P → Correspondence P
  | .encryptMessage sender nonce plaintext =>
    let (result, after) := (x.session sender).encryptMessage nonce plaintext
    { x with
      session := Function.update x.session sender after
      returned := match result with
        | .ok wire => (sender, wire) :: x.returned
        | .error _ => x.returned }
  | .decryptMessage receiver fresh data =>
    let (result, after) := (x.session receiver).decryptMessage fresh data
    { x with
      session := Function.update x.session receiver after
      opened := match result with
        | .ok _ => (receiver, data) :: x.opened
        | .error _ => x.opened }

def after (x : Correspondence P) (calls : List (Call P)) : Correspondence P := calls.foldl act x

/-- What was opened is, byte for byte, a wire of the other side, and reading it and writing it are
inverse: as a whole and in its header field. -/
def Canonical (x : Correspondence P) (receiver : Party) (data : Bytes) : Prop :=
  (receiver.other, data) ∈ x.returned ∧
  ∃ header ciphertext, Session.unframe data = .ok (header, ciphertext) ∧
    Session.frame header ciphertext = data ∧
    header.serialize = (data.drop 4).take (declaredHeaderLen data)

end Correspondence

/-- What a call means for the ratchets; bytes that do not parse never reach them. -/
def Call.action : Call P → Option (NetworkAction P)
  | .encryptMessage sender nonce plaintext => some (.encrypt sender nonce plaintext)
  | .decryptMessage receiver fresh data =>
    match Session.unframe data with
    | .ok (header, ciphertext) => some (.receive receiver fresh header ciphertext)
    | .error _ => none

namespace Correspondence

structure Carries (c : Correspondence P) (x : Exchange P) : Prop where
  established : ∀ p, (c.session p).established = true
  ratchet : ∀ p, (c.session p).ratchet = x.state p
  returned : c.returned = x.sealed.map fun wire => (wire.sender, Session.frame wire.header wire.ciphertext)
  opened : ∀ p data, (p, data) ∈ c.opened → ∃ a ∈ x.accepted, a.receiver = p ∧
    Session.unframe data = .ok (a.header, a.ciphertext)

theorem start_carries (sharedSecret : P.Key) (alicePrivate bobPrivate : P.Secret)
    (peerUserId : Party → String) :
    Carries (start sharedSecret alicePrivate bobPrivate peerUserId)
      (Exchange.start sharedSecret alicePrivate bobPrivate) := by
  refine ⟨fun _ => rfl, fun _ => rfl, rfl, ?_⟩
  intro p data impossible
  cases impossible

namespace Carries
variable {c : Correspondence P} {x : Exchange P}

theorem moved (h : Carries c x) (p : Party) (ratchet : RatchetState P) :
    (∀ q, (Function.update c.session p { c.session p with ratchet } q).established = true) ∧
    ∀ q, (Function.update c.session p { c.session p with ratchet } q).ratchet =
      Function.update x.state p ratchet q := by
  constructor
  · intro q
    by_cases same : q = p
    · subst same
      rw [Function.update_self]
      exact h.established q
    · rw [Function.update_of_ne same]
      exact h.established q
  · intro q
    by_cases same : q = p
    · subst same
      rw [Function.update_self, Function.update_self]
    · rw [Function.update_of_ne same, Function.update_of_ne same]
      exact h.ratchet q

theorem encryptMessage (h : Carries c x) (sender : Party) (nonce : Block 12) (plaintext : Bytes) :
    Carries (c.act (.encryptMessage sender nonce plaintext)) (x.act (.encrypt sender nonce plaintext)) := by
  have moved := h.moved sender ((x.state sender).encrypt nonce plaintext).2
  simp only [act, Exchange.act, Session.encryptMessage_eq (h.established sender), h.ratchet sender]
  refine ⟨moved.1, moved.2, ?_, h.opened⟩
  cases ((x.state sender).encrypt nonce plaintext).1 with
  | error e => exact h.returned
  | ok sealed => exact congrArg (List.cons _) h.returned

variable {data : Bytes}

theorem receive (h : Carries c x) (receiver : Party) (fresh : P.Secret)
    {header : MessageHeader} {ciphertext : Bytes} (parsed : Session.unframe data = .ok (header, ciphertext)) :
    Carries (c.act (.decryptMessage receiver fresh data))
      (x.act (.receive receiver fresh header ciphertext)) := by
  have moved := h.moved receiver ((x.state receiver).decrypt fresh header ciphertext).2
  simp only [act, Session.decryptMessage_eq (h.established receiver) fresh parsed, h.ratchet receiver]
  refine ⟨moved.1, moved.2, h.returned, ?_⟩
  intro p data' inside
  have older : (p, data') ∈ c.opened → ∃ a ∈ (x.act (.receive receiver fresh header ciphertext)).accepted,
      a.receiver = p ∧ Session.unframe data' = .ok (a.header, a.ciphertext) := by
    intro old
    obtain ⟨a, known, rest⟩ := h.opened p data' old
    exact ⟨a, x.accepted_mono _ known, rest⟩
  cases opened : ((x.state receiver).decrypt fresh header ciphertext).1 with
  | error e =>
    rw [opened] at inside
    exact older inside
  | ok plaintext =>
    rw [opened] at inside
    rcases List.mem_cons.mp inside with same | old
    · obtain ⟨rfl, rfl⟩ := Prod.mk.inj same
      obtain ⟨key, took, read⟩ := RatchetState.decrypt_ok opened
      exact ⟨_, x.accepted_of_opened p fresh header took read, rfl, parsed⟩
    · exact older old

theorem unparsed (h : Carries c x) (receiver : Party) (fresh : P.Secret) {e : CoreError}
    (unparsed : Session.unframe data = .error e) :
    Carries (c.act (.decryptMessage receiver fresh data)) x := by
  simp only [act, Session.decryptMessage_unparsed (h.established receiver) fresh unparsed]
  rw [Function.update_eq_self]
  exact h

theorem act (h : Carries c x) (call : Call P) :
    Carries (c.act call) (call.action.toList.foldl Exchange.act x) := by
  cases call with
  | encryptMessage sender nonce plaintext => exact h.encryptMessage sender nonce plaintext
  | decryptMessage receiver fresh data =>
    cases parsed : Session.unframe data with
    | error e =>
      rw [Call.action, parsed]
      exact h.unparsed receiver fresh parsed
    | ok wire =>
      rw [Call.action, parsed]
      exact h.receive receiver fresh parsed

theorem after (h : Carries c x) (calls : List (Call P)) :
    Carries (c.after calls) (x.after (calls.filterMap Call.action)) := by
  induction calls generalizing c x with
  | nil => exact h
  | cons call calls ih =>
    have next := ih (h.act call)
    rw [List.filterMap_cons]
    cases acted : call.action with
    | none =>
      rw [acted] at next
      exact next
    | some action =>
      rw [acted] at next
      exact next

theorem canonical_iff (h : Carries c x) (authentic : x.Authentic) {p : Party}
    (opened : (p, data) ∈ c.opened) : c.Canonical p data ↔ declaredHeaderLen data = 40 := by
  obtain ⟨a, accepted, rfl, parsed⟩ := h.opened p data opened
  obtain ⟨wire, sealed, sender, header, ciphertext, -⟩ := authentic a accepted
  constructor
  · rintro ⟨-, header, ciphertext, read, same, -⟩
    rw [← same]
    exact Session.declared_frame header ciphertext
  · intro usual
    have same := (Session.frame_eq_iff parsed).mpr usual
    obtain ⟨whole, read, -⟩ := Session.unframe_ok parsed
    refine ⟨?_, a.header, a.ciphertext, parsed, same, ?_⟩
    · rw [h.returned, ← same, ← sender, ← header, ← ciphertext]
      exact List.mem_map_of_mem sealed
    · refine MessageHeader.serialize_deserialize ?_ read
      rw [List.length_take, List.length_drop]
      omega

end Carries

/-- Whatever bytes either side is given in whatever order: those that are opened are canonical
exactly when they declare a header of 40 bytes. -/
theorem opened_canonical_iff (symbolic : P.Symbolic) (outputs : List P.Key) (alicePrivate bobPrivate : P.Secret)
    (peerUserId : Party → String) (calls : List (Call P))
    (unforged : (Exchange.start (x3dhSecret P outputs) alicePrivate bobPrivate).RunUnforged
      (calls.filterMap Call.action)) :
    ∀ p data, (p, data) ∈ ((start (x3dhSecret P outputs) alicePrivate bobPrivate peerUserId).after calls).opened →
      (((start (x3dhSecret P outputs) alicePrivate bobPrivate peerUserId).after calls).Canonical p data ↔
        declaredHeaderLen data = 40) := by
  intro p data opened
  have carries := (start_carries (x3dhSecret P outputs) alicePrivate bobPrivate peerUserId).after calls
  obtain ⟨used, taken, begun⟩ := Exchange.start_ordered symbolic outputs alicePrivate bobPrivate
  obtain ⟨used', taken', ordered⟩ := begun.run symbolic _ unforged
  exact carries.canonical_iff (ordered.authentic symbolic) opened

theorem encryptMessage_other (c : Correspondence P) {p sender : Party} (other : p ≠ sender)
    (nonce : Block 12) (plaintext : Bytes) :
    (c.act (.encryptMessage sender nonce plaintext)).session p = c.session p := by
  rw [act]
  exact Function.update_of_ne other _ _

variable {data : Bytes}

theorem mem_opened (c : Correspondence P) {p : Party} (established : (c.session p).established = true)
    (fresh : P.Secret) {plaintext : Bytes} {header : MessageHeader} {ciphertext : Bytes}
    (parsed : Session.unframe data = .ok (header, ciphertext))
    (reply : ((c.session p).ratchet.decrypt fresh header ciphertext).1 = .ok plaintext) :
    (p, data) ∈ (c.act (.decryptMessage p fresh data)).opened := by
  rw [act, Session.decryptMessage_eq established fresh parsed, reply]
  exact List.mem_cons_self

/- Alice's first wire, with more bytes in its header field than she put there. -/
def widened (extra : Bytes) : Bytes :=
  u32Bytes (UInt32.ofNat (40 + extra.length)) ++
    (Exchange.replayHeader.serialize ++ extra ++ Exchange.replayWire)

def greeting (data : Bytes) : List (Call .terms) :=
  [.encryptMessage .alice Conversation.zeroNonce [104, 105], .decryptMessage .bob zeroBlock data]

def strangers : Correspondence .terms :=
  start (x3dhSecret .terms []) zeroBlock zeroBlock fun _ => "peer"

theorem greeting_unforged
    (parsed : Session.unframe data = .ok (Exchange.replayHeader, Exchange.replayWire)) :
    Exchange.replayStart.RunUnforged ((greeting data).filterMap Call.action) := by
  have actions : (greeting data).filterMap Call.action =
      [.encrypt .alice Conversation.zeroNonce [104, 105],
        .receive .bob zeroBlock Exchange.replayHeader Exchange.replayWire] := by
    simp only [greeting, List.filterMap_cons, List.filterMap_nil, Call.action, parsed]
  rw [actions]
  exact ⟨trivial, Exchange.replay_sealed _ rfl .bob, trivial⟩

theorem greeting_opened
    (parsed : Session.unframe data = .ok (Exchange.replayHeader, Exchange.replayWire)) :
    (.bob, data) ∈ (strangers.after (greeting data)).opened := by
  have untouched : (strangers.act (.encryptMessage .alice Conversation.zeroNonce [104, 105])).session .bob =
      strangers.session .bob := encryptMessage_other strangers (by decide) _ _
  have established : ((strangers.act (.encryptMessage .alice Conversation.zeroNonce [104, 105])).session
      .bob).established = true := by rw [untouched]; rfl
  have took : ((strangers.session .bob).ratchet.takeMessageKey zeroBlock Exchange.replayHeader).1 =
      .ok Exchange.replayKey := rfl
  have reply : (((strangers.act (.encryptMessage .alice Conversation.zeroNonce [104, 105])).session
      .bob).ratchet.decrypt zeroBlock Exchange.replayHeader Exchange.replayWire).1 = .ok [104, 105] := by
    rw [untouched]
    exact RatchetState.decrypt_of_key took Exchange.replay_opened
  rw [greeting, after, List.foldl_cons, List.foldl_cons, List.foldl_nil]
  exact mem_opened _ established zeroBlock parsed reply

theorem wider_header_opened :
    ¬ ∀ calls : List (Call .terms),
      (Exchange.start (x3dhSecret .terms []) zeroBlock zeroBlock).RunUnforged
        (calls.filterMap Call.action) →
      ∀ p data, (p, data) ∈ (strangers.after calls).opened → (strangers.after calls).Canonical p data := by
  intro claimed
  have parsed := Session.unframe_extra Exchange.replayHeader [0] Exchange.replayWire (by decide)
  obtain ⟨-, header, ciphertext, -, same, -⟩ :=
    claimed (greeting (widened [0])) (greeting_unforged parsed) .bob (widened [0]) (greeting_opened parsed)
  have usual : declaredHeaderLen (widened [0]) = 40 := same ▸ Session.declared_frame header ciphertext
  have size : (u32Bytes (UInt32.ofNat (40 + [(0 : UInt8)].length))).length = 4 := u32Bytes_length _
  rw [declaredHeaderLen, widened, List.take_left' size, u32OfBytes_u32Bytes] at usual
  exact absurd usual (by decide)

theorem greeting_canonical :
    (strangers.after (greeting (Session.frame Exchange.replayHeader Exchange.replayWire))).Canonical .bob
      (Session.frame Exchange.replayHeader Exchange.replayWire) := by
  have parsed := Session.unframe_frame Exchange.replayHeader Exchange.replayWire
  have settled := opened_canonical_iff Primitives.terms_symbolic [] zeroBlock zeroBlock (fun _ => "peer") _
    (greeting_unforged parsed) .bob _ (greeting_opened parsed)
  exact settled.mpr (Session.declared_frame _ _)

end Correspondence
end Echo.Signal
