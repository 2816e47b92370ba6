import Echo.Lib.Text
import Echo.Signal.Ratchet

/-! Sessions of `session.rs`: a ratchet with its peer, and the wire that carries a header. -/
namespace Echo.Signal
open Echo.Lib

@[ext] structure Session (P : Primitives) where
  peerUserId : String
  ratchet : RatchetState P
  established : Bool

namespace Session
variable {P : Primitives}

def frame (header : MessageHeader) (ciphertext : Bytes) : Bytes :=
  u32Bytes (UInt32.ofNat header.serialize.length) ++ (header.serialize ++ ciphertext)

def encryptMessage (session : Session P) (nonce : Block 12) (plaintext : Bytes) :
    Outcome CoreError (Session P) Bytes :=
  if session.established then
    match session.ratchet.encrypt nonce plaintext with
    | (.ok (ciphertext, header), ratchet) => (.ok (frame header ciphertext), { session with ratchet })
    | (.error e, ratchet) => (.error e, { session with ratchet })
  else (.error (.crypto "Session not established"), session)

def unframe (data : Bytes) : Except CoreError (MessageHeader × Bytes) :=
  if data.length < 4 then .error (.crypto "Encrypted message too short")
  else
    let headerLen := (u32OfBytes (data.take 4)).toNat
    if data.length < 4 + headerLen then
      .error (.crypto "Encrypted message shorter than declared header")
    else do
      let header ← MessageHeader.deserialize ((data.drop 4).take headerLen)
      .ok (header, data.drop (4 + headerLen))

def decryptMessage (session : Session P) (fresh : P.Secret) (data : Bytes) :
    Outcome CoreError (Session P) Bytes :=
  if session.established then
    match unframe data with
    | .error e => (.error e, session)
    | .ok (header, ciphertext) =>
      let (result, ratchet) := session.ratchet.decrypt fresh header ciphertext
      (result, { session with ratchet })
  else (.error (.crypto "Session not established"), session)

theorem unframe_frame (header : MessageHeader) (ciphertext : Bytes) :
    unframe (frame header ciphertext) = .ok (header, ciphertext) := by
  have size : (u32Bytes (UInt32.ofNat header.serialize.length)).length = 4 := u32Bytes_length _
  have long : ¬ (frame header ciphertext).length < 4 := by simp [frame]
  have headerLen : (u32OfBytes ((frame header ciphertext).take 4)).toNat = 40 := by
    rw [frame, List.take_left' size, u32OfBytes_u32Bytes, MessageHeader.serialize_length]
    rfl
  have whole : ¬ (frame header ciphertext).length < 4 + 40 := by
    rw [frame, List.length_append, List.length_append, size, MessageHeader.serialize_length]
    omega
  have middle : ((frame header ciphertext).drop 4).take 40 = header.serialize := by
    rw [frame, List.drop_left' size, List.take_left' header.serialize_length]
  have rest : (frame header ciphertext).drop (4 + 40) = ciphertext := by
    rw [← List.drop_drop, frame, List.drop_left' size, List.drop_left' header.serialize_length]
  have parsed := MessageHeader.deserialize_serialize header []
  rw [List.append_nil] at parsed
  unfold unframe
  rw [if_neg long]
  simp only [headerLen, if_neg whole, middle, rest, parsed]
  rfl

theorem decryptMessage_frame {session : Session P} (established : session.established = true)
    (fresh : P.Secret) (header : MessageHeader) (ciphertext : Bytes) :
    session.decryptMessage fresh (frame header ciphertext) =
      ((session.ratchet.decrypt fresh header ciphertext).1,
        { session with ratchet := (session.ratchet.takeMessageKey fresh header).2 }) := by
  rw [decryptMessage, if_pos established, unframe_frame]
  simp only [RatchetState.decrypt_state]

/- Calls on one session, in any order, with their replies. -/
inductive Op (P : Primitives) where
  | encryptMessage (nonce : Block 12) (plaintext : Bytes)
  | decryptMessage (fresh : P.Secret) (data : Bytes)

def apply (session : Session P) : Op P → Outcome CoreError (Session P) Bytes
  | .encryptMessage nonce plaintext => session.encryptMessage nonce plaintext
  | .decryptMessage fresh data => session.decryptMessage fresh data

def replies : Session P → List (Op P) → List (Except CoreError Bytes)
  | _, [] => []
  | session, op :: ops => (session.apply op).1 :: replies (session.apply op).2 ops

end Session
end Echo.Signal
