import Mathlib.Data.Vector.Basic

/-! Byte strings and the little-endian words laid out in them. Readers consume a
prefix and hand back the rest, so a cursor into a buffer is the remaining suffix. -/
namespace Echo.Lib

abbrev Bytes := List UInt8
abbrev Block (n : Nat) := List.Vector UInt8 n

/-- Low-to-high base 256 digits, exactly `width` of them; higher digits are dropped. -/
def leBytes : Nat → Nat → Bytes
  | 0, _ => []
  | width + 1, v => UInt8.ofNat v :: leBytes width (v / 256)

def leValue : Bytes → Nat
  | [] => 0
  | b :: bs => b.toNat + 256 * leValue bs

@[simp] theorem leBytes_length (width v : Nat) : (leBytes width v).length = width := by
  induction width generalizing v with
  | zero => rfl
  | succ width ih => simp [leBytes, ih]

theorem leValue_leBytes (width v : Nat) : leValue (leBytes width v) = v % 256 ^ width := by
  induction width generalizing v with
  | zero => simp [leBytes, leValue, Nat.mod_one]
  | succ width ih =>
    have low : (UInt8.ofNat v).toNat = v % 256 := by simp
    simp only [leBytes, leValue, low, ih, Nat.pow_succ]
    rw [Nat.mul_comm (256 ^ width) 256, Nat.mod_mul]

theorem leValue_bound (bs : Bytes) : leValue bs < 256 ^ bs.length := by
  induction bs with
  | nil => decide
  | cons b bs ih =>
    have low : b.toNat < 256 := b.toNat_lt
    simp only [leValue, List.length_cons, Nat.pow_succ]
    omega

theorem leBytes_leValue (bs : Bytes) : leBytes bs.length (leValue bs) = bs := by
  induction bs with
  | nil => rfl
  | cons b bs ih =>
    have low : b.toNat < 256 := b.toNat_lt
    have head : UInt8.ofNat (b.toNat + 256 * leValue bs) = b := by
      apply UInt8.toNat_inj.mp
      simp only [UInt8.toNat_ofNat']
      omega
    have rest : (b.toNat + 256 * leValue bs) / 256 = leValue bs := by omega
    simp only [List.length_cons, leBytes, leValue, head, rest, ih]

section Blocks
variable {wire : Bytes}

theorem leBytes32_length (v : Nat) : (leBytes 32 v).length = 32 := leBytes_length 32 v

theorem zeros12_length : (List.replicate 12 (0 : UInt8)).length = 12 := List.length_replicate

theorem zeros32_length : (List.replicate 32 (0 : UInt8)).length = 32 := List.length_replicate

theorem key_length (long : ¬ wire.length < 40) : (wire.take 32).length = 32 := by
  rw [List.length_take]
  omega

theorem nonce_length (long : ¬ wire.length < 12 + 16) : (wire.take 12).length = 12 := by
  rw [List.length_take]
  omega

theorem mac_length (long : ¬ wire.length < 12 + 16) : (wire.drop (wire.length - 16)).length = 16 := by
  rw [List.length_drop]
  omega

end Blocks

def u32Bytes (v : UInt32) : Bytes := leBytes 4 v.toNat
def u32OfBytes (bs : Bytes) : UInt32 := UInt32.ofNat (leValue bs)

@[simp] theorem u32Bytes_length (v : UInt32) : (u32Bytes v).length = 4 := leBytes_length 4 _

@[simp] theorem u32OfBytes_u32Bytes (v : UInt32) : u32OfBytes (u32Bytes v) = v := by
  have small : v.toNat < 256 ^ 4 := v.toNat_lt
  rw [u32OfBytes, u32Bytes, leValue_leBytes, Nat.mod_eq_of_lt small, UInt32.ofNat_toNat]

/-- Exactly `n` bytes and the rest, or nothing when the buffer is too short. -/
def readBytes (n : Nat) (data : Bytes) : Option (Block n × Bytes) :=
  if h : n ≤ data.length then some (⟨data.take n, by simp [h]⟩, data.drop n) else none

def toBlock (n : Nat) (data : Bytes) : Option (Block n) := if fits : data.length = n then some ⟨data, fits⟩ else none

theorem toBlock_eq_some {n : Nat} {data : Bytes} {block : Block n} :
    toBlock n data = some block ↔ data = block.toList := by
  constructor
  · intro taken
    unfold toBlock at taken
    split at taken
    · cases taken
      rfl
    · cases taken
  · rintro rfl
    exact dif_pos block.2

theorem readBytes_append {n : Nat} (block : Block n) (rest : Bytes) :
    readBytes n (block.toList ++ rest) = some (block, rest) := by
  have len : block.toList.length = n := block.2
  have enough : n ≤ (block.toList ++ rest).length := by simp [len]
  rw [readBytes, dif_pos enough]
  refine congrArg some (Prod.ext (Subtype.ext ?_) ?_)
  · exact List.take_left' len
  · exact List.drop_left' len

theorem getD_of_drop {data rest : Bytes} {i : Nat} {b : UInt8} (suffix : data.drop i = b :: rest) :
    data.getD i 0 = b ∧ data.drop (i + 1) = rest := by
  constructor
  · rw [List.getD_eq_getElem?_getD, ← Nat.add_zero i, ← List.getElem?_drop, suffix]
    rfl
  · rw [← List.drop_drop, suffix]
    rfl

/- Self-delimiting strings: each byte announced by a 1, the end by a 0. -/
def pack : Bytes → Bytes
  | [] => [0]
  | b :: bs => 1 :: b :: pack bs

theorem pack_append_injective {a b x y : Bytes} (same : pack a ++ x = pack b ++ y) : a = b ∧ x = y := by
  induction a generalizing b with
  | nil =>
    cases b with
    | nil => exact ⟨rfl, (List.cons.inj same).2⟩
    | cons d bs => exact absurd (List.cons.inj same).1 (by decide)
  | cons c as ih =>
    cases b with
    | nil => exact absurd (List.cons.inj same).1 (by decide)
    | cons d bs =>
      obtain ⟨head, rest⟩ := List.cons.inj (List.cons.inj same).2
      obtain ⟨tail, back⟩ := ih rest
      exact ⟨by rw [head, tail], back⟩

theorem pack_injective {a b : Bytes} (same : pack a = pack b) : a = b := by
  have ends : pack a ++ [] = pack b ++ [] := by rw [same]
  exact (pack_append_injective ends).1

theorem length_lt_pack (a : Bytes) : a.length < (pack a).length := by
  induction a with
  | nil => decide
  | cons b bs ih =>
    simp only [pack, List.length_cons]
    omega

theorem flatMap_pack_injective {as bs : List Bytes} (same : as.flatMap pack = bs.flatMap pack) :
    as = bs := by
  have ends : ∀ (a : Bytes) (rest : List Bytes), (a :: rest).flatMap pack ≠ [] := by
    intro a rest empty
    cases a <;> cases empty
  induction as generalizing bs with
  | nil =>
    cases bs with
    | nil => rfl
    | cons b bs => exact absurd same.symm (ends b bs)
  | cons a as ih =>
    cases bs with
    | nil => exact absurd same (ends a as)
    | cons b bs =>
      obtain ⟨head, rest⟩ := pack_append_injective same
      rw [head, ih rest]

end Echo.Lib
