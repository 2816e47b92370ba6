import Echo.Lib.Bytes

/- UTF-8 text as bytes, with the message a failed check prints. -/
namespace Echo.Lib

def utf8Bytes (text : String) : Bytes := text.toUTF8.data.toList

def ofUtf8 (data : Bytes) : Option String := String.fromUTF8? ⟨data.toArray⟩

theorem ofUtf8_utf8Bytes (text : String) : ofUtf8 (utf8Bytes text) = some text := by
  have valid : (⟨(utf8Bytes text).toArray⟩ : ByteArray).IsValidUTF8 := text.isValidUTF8
  unfold ofUtf8 String.fromUTF8?
  rw [dif_pos valid]
  rfl

theorem utf8Bytes_ofUtf8 {data : Bytes} {text : String} (valid : ofUtf8 data = some text) :
    utf8Bytes text = data := by
  unfold ofUtf8 String.fromUTF8? at valid
  split at valid
  · cases Option.some.inj valid
    rfl
  · contradiction

def isContinuation (b : UInt8) : Bool := 0x80 ≤ b && b ≤ 0xBF

/-- The second byte allowed after the lead byte of a three or four byte character. -/
def secondAllowed (first second : UInt8) : Bool :=
  (first == 0xE0 && (0xA0 ≤ second && second ≤ 0xBF)) ||
  (0xE1 ≤ first && first ≤ 0xEC && isContinuation second) ||
  (first == 0xED && (0x80 ≤ second && second ≤ 0x9F)) ||
  (0xEE ≤ first && first ≤ 0xEF && isContinuation second) ||
  (first == 0xF0 && (0x90 ≤ second && second ≤ 0xBF)) ||
  (0xF1 ≤ first && first ≤ 0xF3 && isContinuation second) ||
  (first == 0xF4 && (0x80 ≤ second && second ≤ 0x8F))

/-- Where the first bad character starts and how many bytes it spoils; none when the text
ends inside it. The scan of `core::str::from_utf8`. -/
def utf8Error (start : Nat) : Bytes → Option (Nat × Option Nat)
  | [] => none
  | first :: rest =>
    if first < 0x80 then utf8Error (start + 1) rest
    else if 0xC2 ≤ first && first ≤ 0xDF then
      match rest with
      | [] => some (start, none)
      | b :: rest => if isContinuation b then utf8Error (start + 2) rest else some (start, some 1)
    else if 0xE0 ≤ first && first ≤ 0xEF then
      match rest with
      | [] => some (start, none)
      | b :: rest =>
        if secondAllowed first b then
          match rest with
          | [] => some (start, none)
          | c :: rest => if isContinuation c then utf8Error (start + 3) rest else some (start, some 2)
        else some (start, some 1)
    else if 0xF0 ≤ first && first ≤ 0xF4 then
      match rest with
      | [] => some (start, none)
      | b :: rest =>
        if secondAllowed first b then
          match rest with
          | [] => some (start, none)
          | c :: rest =>
            if isContinuation c then
              match rest with
              | [] => some (start, none)
              | d :: rest =>
                if isContinuation d then utf8Error (start + 4) rest else some (start, some 3)
            else some (start, some 2)
        else some (start, some 1)
    else some (start, some 1)

def utf8ErrorText (data : Bytes) : String :=
  match utf8Error 0 data with
  | none => ""
  | some (start, none) => "incomplete utf-8 byte sequence from index " ++ toString start
  | some (start, some width) =>
    "invalid utf-8 sequence of " ++ toString width ++ " bytes from index " ++ toString start

/- Lower-case hexadecimal, two digits a byte. -/
def hexByte (b : UInt8) : List Char := [Nat.digitChar (b.toNat / 16), Nat.digitChar (b.toNat % 16)]

def hexDigits (data : Bytes) : List Char := data.flatMap hexByte

theorem digitChar_injective {m n : Nat} (hm : m < 16) (hn : n < 16)
    (same : Nat.digitChar m = Nat.digitChar n) : m = n := by
  have all : ∀ i j : Fin 16, Nat.digitChar i = Nat.digitChar j → i = j := by decide
  exact congrArg Fin.val (all ⟨m, hm⟩ ⟨n, hn⟩ same)

theorem hexByte_injective {a b : UInt8} (same : hexByte a = hexByte b) : a = b := by
  obtain ⟨high, low⟩ := List.cons.inj same
  have topA : a.toNat < 256 := a.toNat_lt
  have topB : b.toNat < 256 := b.toNat_lt
  have high := digitChar_injective (by omega) (by omega) high
  have low := digitChar_injective (by omega) (by omega) (List.cons.inj low).1
  apply UInt8.toNat_inj.mp
  omega

theorem hexDigits_length (data : Bytes) : (hexDigits data).length = 2 * data.length := by
  induction data with
  | nil => rfl
  | cons b data ih =>
    rw [hexDigits, List.flatMap_cons, List.length_append, ← hexDigits, ih, List.length_cons]
    change 2 + 2 * data.length = 2 * (data.length + 1)
    omega

theorem hexDigits_injective {data other : Bytes} (same : hexDigits data = hexDigits other) :
    data = other := by
  induction data generalizing other with
  | nil =>
    cases other with
    | nil => rfl
    | cons b other => cases same
  | cons a data ih =>
    cases other with
    | nil => cases same
    | cons b other =>
      obtain ⟨first, rest⟩ := List.append_inj same rfl
      rw [hexByte_injective first, ih rest]

end Echo.Lib
