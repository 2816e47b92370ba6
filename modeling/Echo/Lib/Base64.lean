import Echo.Lib.Bytes

/- Base64: the standard alphabet out, padding required, and no stray bits before the padding.
`dart:convert` reads both alphabets and percent-escaped padding; the Rust engine does not. -/
namespace Echo.Lib

def base64Char (n : Nat) : Char :=
  if n < 26 then Char.ofNat (65 + n)
  else if n < 52 then Char.ofNat (71 + n)
  else if n < 62 then Char.ofNat (n - 4)
  else if n = 62 then '+'
  else '/'

def base64Value (c : Char) : Option Nat :=
  let n := c.toNat
  if 65 ≤ n ∧ n ≤ 90 then some (n - 65)
  else if 97 ≤ n ∧ n ≤ 122 then some (n - 71)
  else if 48 ≤ n ∧ n ≤ 57 then some (n + 4)
  else if c = '+' ∨ c = '-' then some 62
  else if c = '/' ∨ c = '_' then some 63
  else none

theorem base64Value_char : ∀ n < 64, base64Value (base64Char n) = some n := by decide

theorem base64Char_ne_pad : ∀ n < 64, base64Char n ≠ '=' := by decide

def base64Chars : Bytes → List Char
  | [] => []
  | [a] => [base64Char (a.toNat / 4), base64Char (a.toNat % 4 * 16), '=', '=']
  | [a, b] => [base64Char (a.toNat / 4), base64Char (a.toNat % 4 * 16 + b.toNat / 16),
      base64Char (b.toNat % 16 * 4), '=']
  | a :: b :: c :: rest =>
    base64Char (a.toNat / 4) :: base64Char (a.toNat % 4 * 16 + b.toNat / 16) ::
      base64Char (b.toNat % 16 * 4 + c.toNat / 64) :: base64Char (c.toNat % 64) :: base64Chars rest

def base64Encode (data : Bytes) : String := String.ofList (base64Chars data)

/-- Four characters; `=` only in the last group. -/
def base64Bytes : List Char → Option Bytes
  | [] => some []
  | w :: x :: y :: z :: rest => do
    let w ← base64Value w
    let x ← base64Value x
    let first := UInt8.ofNat (w * 4 + x / 16)
    if y = '=' then
      if z = '=' ∧ rest = [] ∧ x % 16 = 0 then some [first] else none
    else
      let y ← base64Value y
      let second := UInt8.ofNat (x % 16 * 16 + y / 4)
      if z = '=' then
        if rest = [] ∧ y % 4 = 0 then some [first, second] else none
      else
        let z ← base64Value z
        let more ← base64Bytes rest
        some (first :: second :: UInt8.ofNat (y % 4 * 64 + z) :: more)
  | _ => none

/-- A percent-escaped `=` counts as one. -/
def unescapePadding : List Char → List Char
  | '%' :: '3' :: c :: rest =>
    if c = 'D' ∨ c = 'd' then '=' :: unescapePadding rest else '%' :: '3' :: c :: unescapePadding rest
  | c :: rest => c :: unescapePadding rest
  | [] => []

def base64Decode (text : String) : Option Bytes := base64Bytes (unescapePadding text.toList)

def isUrlSafe (c : Char) : Bool := c = '-' || c = '_'

/-- The decoder of Rust's `STANDARD` engine. -/
def base64Standard (chars : List Char) : Option Bytes :=
  if chars.any isUrlSafe then none else base64Bytes chars

theorem base64Bytes_chars (data : Bytes) : base64Bytes (base64Chars data) = some data := by
  induction data using base64Chars.induct with
  | case1 => rfl
  | case2 a =>
    have := a.toNat_lt
    have value : a.toNat / 4 * 4 + a.toNat % 4 * 16 / 16 = a.toNat := by omega
    have clean : a.toNat % 4 * 16 % 16 = 0 := by omega
    simp (disch := omega) only [base64Chars, base64Bytes, base64Value_char, Option.bind_eq_bind,
      Option.bind_some, value, clean]
    simp
  | case3 a b =>
    have := a.toNat_lt
    have := b.toNat_lt
    have first : a.toNat / 4 * 4 + (a.toNat % 4 * 16 + b.toNat / 16) / 16 = a.toNat := by omega
    have second : (a.toNat % 4 * 16 + b.toNat / 16) % 16 * 16 + b.toNat % 16 * 4 / 4 = b.toNat := by omega
    have clean : b.toNat % 16 * 4 % 4 = 0 := by omega
    have unpadded := base64Char_ne_pad (b.toNat % 16 * 4) (by omega)
    simp (disch := omega) only [base64Chars, base64Bytes, base64Value_char, Option.bind_eq_bind,
      Option.bind_some, first, second, clean, if_neg unpadded]
    simp
  | case4 a b c rest ih =>
    have := a.toNat_lt
    have := b.toNat_lt
    have := c.toNat_lt
    have first : a.toNat / 4 * 4 + (a.toNat % 4 * 16 + b.toNat / 16) / 16 = a.toNat := by omega
    have second : (a.toNat % 4 * 16 + b.toNat / 16) % 16 * 16 + (b.toNat % 16 * 4 + c.toNat / 64) / 4 =
      b.toNat := by omega
    have third : (b.toNat % 16 * 4 + c.toNat / 64) % 4 * 64 + c.toNat % 64 = c.toNat := by omega
    have unpadded := base64Char_ne_pad (b.toNat % 16 * 4 + c.toNat / 64) (by omega)
    have unpadded' := base64Char_ne_pad (c.toNat % 64) (by omega)
    simp (disch := omega) only [base64Chars, base64Bytes, base64Value_char, Option.bind_eq_bind,
      Option.bind_some, first, second, third, if_neg unpadded, if_neg unpadded', ih]
    simp

def isBase64 (c : Char) : Bool :=
  let n := c.toNat
  (65 ≤ n && n ≤ 90) || (97 ≤ n && n ≤ 122) || (48 ≤ n && n ≤ 57) || c = '+' || c = '/' || c = '='

theorem isBase64_char : ∀ n < 64, isBase64 (base64Char n) = true := by decide

theorem isBase64_pad : isBase64 '=' = true := by decide

theorem isBase64_chars (data : Bytes) : ∀ c ∈ base64Chars data, isBase64 c = true := by
  induction data using base64Chars.induct with
  | case1 => simp [base64Chars]
  | case2 a =>
    have := a.toNat_lt
    simp (disch := omega) only [base64Chars, List.forall_mem_cons, isBase64_char, isBase64_pad]
    simp
  | case3 a b =>
    have := a.toNat_lt
    have := b.toNat_lt
    simp (disch := omega) only [base64Chars, List.forall_mem_cons, isBase64_char, isBase64_pad]
    simp
  | case4 a b c rest ih =>
    have := a.toNat_lt
    have := b.toNat_lt
    have := c.toNat_lt
    simp (disch := omega) only [base64Chars, List.forall_mem_cons, isBase64_char]
    exact ⟨trivial, trivial, trivial, trivial, ih⟩

theorem unescapePadding_ordinary {chars : List Char} (ordinary : ∀ c ∈ chars, c ≠ '%') :
    unescapePadding chars = chars := by
  induction chars with
  | nil => rfl
  | cons c rest ih =>
    rw [unescapePadding, ih fun d later => ordinary d (List.mem_cons_of_mem c later)]
    intro d tail shape
    exact absurd shape (ordinary c List.mem_cons_self)

theorem unescapePadding_plain {chars : List Char} (plain : ∀ c ∈ chars, isBase64 c = true) :
    unescapePadding chars = chars := by
  refine unescapePadding_ordinary fun c mem percent => ?_
  have standard := plain c mem
  rw [percent] at standard
  contradiction

theorem base64Decode_encode (data : Bytes) : base64Decode (base64Encode data) = some data := by
  rw [base64Decode, base64Encode, String.toList_ofList, unescapePadding_plain (isBase64_chars data),
    base64Bytes_chars]

theorem isUrlSafe_of_isBase64 {c : Char} (standard : isBase64 c = true) : isUrlSafe c = false := by
  cases safe : isUrlSafe c with
  | false => rfl
  | true =>
    rw [isUrlSafe, Bool.or_eq_true, decide_eq_true_eq, decide_eq_true_eq] at safe
    obtain rfl | rfl := safe <;> contradiction

theorem base64Standard_chars (data : Bytes) : base64Standard (base64Chars data) = some data := by
  have plain : (base64Chars data).any isUrlSafe = false := by
    rw [List.any_eq_false]
    intro c mem
    rw [isUrlSafe_of_isBase64 (isBase64_chars data c mem)]
    exact Bool.false_ne_true
  rw [base64Standard, plain, base64Bytes_chars]
  rfl

theorem base64Char_value {c : Char} {n : Nat} (value : base64Value c = some n) (standard : isUrlSafe c = false) :
    n < 64 ∧ base64Char n = c := by
  have valued : ∀ m, c.toNat = m → Char.ofNat m = c := by
    intro m same
    rw [← same, Char.ofNat_toNat]
  have safe : c ≠ '-' ∧ c ≠ '_' := by
    simpa [isUrlSafe] using standard
  unfold base64Value at value
  dsimp only at value
  split at value
  · cases value
    refine ⟨by omega, ?_⟩
    rw [base64Char, if_pos (by omega)]
    exact valued _ (by omega)
  split at value
  · cases value
    refine ⟨by omega, ?_⟩
    rw [base64Char, if_neg (by omega), if_pos (by omega)]
    exact valued _ (by omega)
  split at value
  · cases value
    refine ⟨by omega, ?_⟩
    rw [base64Char, if_neg (by omega), if_neg (by omega), if_pos (by omega)]
    exact valued _ (by omega)
  split at value
  · rename_i plus
    cases value
    exact ⟨by decide, (plus.resolve_right safe.1).symm⟩
  split at value
  · rename_i slash
    cases value
    exact ⟨by decide, (slash.resolve_right safe.2).symm⟩
  · cases value

theorem base64Chars_bytes : ∀ {chars : List Char} {data : Bytes}, base64Bytes chars = some data →
    chars.any isUrlSafe = false → base64Chars data = chars
  | [], data, read, _ => by
    cases Option.some.inj read
    rfl
  | [_], _, read, _ => by cases read
  | [_, _], _, read, _ => by cases read
  | [_, _, _], _, read, _ => by cases read
  | w :: x :: y :: z :: rest, data, read, standard => by
    have byte : ∀ n < 256, (UInt8.ofNat n).toNat = n := fun n small => UInt8.toNat_ofNat_of_lt' small
    simp only [List.any_cons, Bool.or_eq_false_iff] at standard
    obtain ⟨plainW, plainX, plainY, plainZ, plainRest⟩ := standard
    rw [base64Bytes] at read
    simp only [Option.bind_eq_bind, Option.bind_eq_some_iff] at read
    obtain ⟨w', valueW, x', valueX, read⟩ := read
    obtain ⟨boundW, rfl⟩ := base64Char_value valueW plainW
    obtain ⟨boundX, rfl⟩ := base64Char_value valueX plainX
    have high : (UInt8.ofNat (w' * 4 + x' / 16)).toNat = w' * 4 + x' / 16 := byte _ (by omega)
    split at read
    · split at read
      · rename_i padY last
        obtain ⟨rfl, rfl, low⟩ := last
        cases read
        rw [base64Chars, high, padY, show (w' * 4 + x' / 16) / 4 = w' by omega,
          show (w' * 4 + x' / 16) % 4 * 16 = x' by omega]
      · cases read
    · simp only [Option.bind_eq_some_iff] at read
      obtain ⟨y', valueY, read⟩ := read
      obtain ⟨boundY, rfl⟩ := base64Char_value valueY plainY
      have middle : (UInt8.ofNat (x' % 16 * 16 + y' / 4)).toNat = x' % 16 * 16 + y' / 4 :=
        byte _ (by omega)
      split at read
      · split at read
        · rename_i padZ last
          obtain ⟨rfl, low⟩ := last
          cases read
          rw [base64Chars, high, middle, padZ, show (w' * 4 + x' / 16) / 4 = w' by omega,
            show (w' * 4 + x' / 16) % 4 * 16 + (x' % 16 * 16 + y' / 4) / 16 = x' by omega,
            show (x' % 16 * 16 + y' / 4) % 16 * 4 = y' by omega]
        · cases read
      · simp only [Option.bind_eq_some_iff] at read
        obtain ⟨z', valueZ, more, later, read⟩ := read
        obtain ⟨boundZ, rfl⟩ := base64Char_value valueZ plainZ
        have low : (UInt8.ofNat (y' % 4 * 64 + z')).toNat = y' % 4 * 64 + z' := byte _ (by omega)
        cases read
        rw [base64Chars, high, middle, low, base64Chars_bytes later plainRest,
          show (w' * 4 + x' / 16) / 4 = w' by omega,
          show (w' * 4 + x' / 16) % 4 * 16 + (x' % 16 * 16 + y' / 4) / 16 = x' by omega,
          show (x' % 16 * 16 + y' / 4) % 16 * 4 + (y' % 4 * 64 + z') / 64 = y' by omega,
          show (y' % 4 * 64 + z') % 64 = z' by omega]
theorem base64Standard_iff {chars : List Char} {data : Bytes} :
    base64Standard chars = some data ↔ chars = base64Chars data := by
  constructor
  · intro read
    rw [base64Standard] at read
    split at read
    · cases read
    · rename_i standard
      exact (base64Chars_bytes read (Bool.eq_false_iff.mpr standard)).symm
  · rintro rfl
    exact base64Standard_chars data

theorem base64Decode_standard {text : String} (plain : ∀ c ∈ text.toList, c ≠ '%' ∧ isUrlSafe c = false) :
    base64Decode text = base64Standard text.toList := by
  have safe : text.toList.any isUrlSafe = false := by
    rw [List.any_eq_false]
    exact fun c mem => Bool.eq_false_iff.mp (plain c mem).2
  rw [base64Decode, base64Standard, safe, unescapePadding_ordinary fun c mem => (plain c mem).1]
  rfl

theorem base64Chars_length (data : Bytes) : (base64Chars data).length = (data.length + 2) / 3 * 4 := by
  induction data using base64Chars.induct with
  | case1 => rfl
  | case2 | case3 => simp [base64Chars]
  | case4 a b c rest ih =>
    simp only [base64Chars, List.length_cons, ih]
    omega

theorem base64Bytes_colon (w x y z : Char) (rest : List Char) (inner : z ≠ '=') :
    base64Bytes (w :: x :: y :: z :: ':' :: rest) = none := by
  have stuck : base64Bytes (':' :: rest) = none := by
    match rest with
    | [] | [_] | [_, _] => rfl
    | x :: y :: z :: rest => rfl
  rw [base64Bytes]
  cases base64Value w with
  | none => rfl
  | some w =>
    cases base64Value x with
    | none => rfl
    | some x =>
      simp only [Option.bind_eq_bind, Option.bind_some]
      split
      · rw [if_neg (fun all => inner all.1)]
      · cases base64Value y with
        | none => rfl
        | some y =>
          simp only [Option.bind_some, stuck, Option.bind_none]
          cases base64Value z <;> rfl

end Echo.Lib
