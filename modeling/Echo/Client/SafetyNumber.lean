import Echo.Lib.Bytes
import Mathlib.Data.Sym.Sym2

/-! `SafetyNumberService`: sixty digits that two peers compare, the same on both sides. -/
namespace Echo.Client.SafetyNumberService
open Echo.Lib

def compareBytes : Bytes → Bytes → Int
  | a :: as, b :: bs => if a ≠ b then (a.toNat : Int) - b.toNat else compareBytes as bs
  | as, bs => (as.length : Int) - bs.length

def padLeft (digits : List Char) : List Char := digits.leftpad 2 '0'

def bytesToDigits (hashBytes : Bytes) (digitCount : Nat) : List Char :=
  (hashBytes.take (digitCount / 2)).flatMap fun b => padLeft (Nat.toDigits 10 (b.toNat % 100))

def sorted (myIdentityKey peerIdentityKey : Bytes) : Bytes × Bytes :=
  if compareBytes myIdentityKey peerIdentityKey < 0 then (myIdentityKey, peerIdentityKey)
  else (peerIdentityKey, myIdentityKey)

def hashInputs (myIdentityKey peerIdentityKey : Bytes) : Bytes × Bytes :=
  let (first, second) := sorted myIdentityKey peerIdentityKey
  (first ++ second ++ first, second ++ first ++ second)

def generate (sha512 : Bytes → Block 64) (myIdentityKey peerIdentityKey : Bytes) : String :=
  let (input1, input2) := hashInputs myIdentityKey peerIdentityKey
  String.ofList (bytesToDigits (sha512 input1).toList 30 ++ bytesToDigits (sha512 input2).toList 30)

section Order
variable {a b c d : Bytes}

theorem compareBytes_swap (a b : Bytes) : compareBytes b a = -compareBytes a b := by
  induction a generalizing b with
  | nil => cases b <;> simp [compareBytes]
  | cons x as ih =>
    cases b with
    | nil => simp [compareBytes]
    | cons y bs =>
      by_cases same : x = y
      · simp [compareBytes, same, ih]
      · simp [compareBytes, same, Ne.symm same]

theorem compareBytes_eq_zero (tie : compareBytes a b = 0) : a = b := by
  induction a generalizing b with
  | nil =>
    cases b with
    | nil => rfl
    | cons y bs =>
      simp only [compareBytes, List.length_nil, List.length_cons] at tie
      omega
  | cons x as ih =>
    cases b with
    | nil =>
      simp only [compareBytes, List.length_nil, List.length_cons] at tie
      omega
    | cons y bs =>
      by_cases same : x = y
      · subst same
        simp only [compareBytes, ne_eq, not_true_eq_false, if_false] at tie
        rw [ih tie]
      · simp only [compareBytes, ne_eq, same, not_false_eq_true, if_true] at tie
        exact absurd (UInt8.toNat_inj.mp (by omega)) same

theorem sorted_swap (a b : Bytes) : sorted b a = sorted a b := by
  unfold sorted
  rw [compareBytes_swap a b]
  rcases Int.lt_trichotomy (compareBytes a b) 0 with before | tie | after
  · rw [if_neg (by omega), if_pos before]
  · rw [compareBytes_eq_zero tie, ite_self, ite_self]
  · rw [if_pos (by omega), if_neg (by omega)]

theorem sorted_pair (a b : Bytes) : s((sorted a b).1, (sorted a b).2) = s(a, b) := by
  unfold sorted
  split
  · rfl
  · exact Sym2.eq_swap

theorem sorted_length (lengths : a.length = b.length) :
    (sorted a b).1.length = a.length ∧ (sorted a b).2.length = a.length := by
  unfold sorted
  split
  · exact ⟨rfl, lengths.symm⟩
  · exact ⟨lengths.symm, rfl⟩

theorem hashInputs_swap (a b : Bytes) : hashInputs b a = hashInputs a b := by
  unfold hashInputs
  rw [sorted_swap]

end Order

section Inputs
variable {a b c d : Bytes}

theorem interleaved_injective {x y z w : Bytes} {n : Nat} (xs : x.length = n) (ys : y.length = n) (zs : z.length = n)
    (ws : w.length = n) (same : x ++ y ++ x = z ++ w ++ z) : x = z ∧ y = w := by
  rw [List.append_assoc, List.append_assoc] at same
  obtain ⟨first, rest⟩ := List.append_inj same (xs.trans zs.symm)
  exact ⟨first, (List.append_inj rest (ys.trans ws.symm)).1⟩

theorem hashInputs_injective (lengths : a.length = b.length) (third : c.length = a.length)
    (fourth : d.length = a.length)
    (same : s((hashInputs c d).1, (hashInputs c d).2) = s((hashInputs a b).1, (hashInputs a b).2)) :
    s(c, d) = s(a, b) := by
  obtain ⟨first, second⟩ := sorted_length lengths
  obtain ⟨other, another⟩ := sorted_length (third.trans fourth.symm)
  rw [third] at other another
  rw [← sorted_pair c d, ← sorted_pair a b, Sym2.eq_iff]
  rcases Sym2.eq_iff.mp same with ⟨straight, -⟩ | ⟨crossed, -⟩
  · exact .inl (interleaved_injective other another first second straight)
  · exact .inr (interleaved_injective other another second first crossed)

end Inputs

section Digits

theorem padLeft_twoDigits (n : Nat) (small : n < 100) :
    (padLeft (Nat.toDigits 10 n)).length = 2 ∧ ∀ c ∈ padLeft (Nat.toDigits 10 n), c.isDigit = true := by
  refine ⟨?_, fun c inside => ?_⟩
  · have few : (Nat.toDigits 10 n).length ≤ 2 := (Nat.length_toDigits_le_iff (by decide) (by decide)).mpr small
    rw [padLeft, List.length_leftpad]
    exact Nat.max_eq_left few
  · rcases List.mem_append.mp inside with zero | digit
    · rw [List.eq_of_mem_replicate zero]
      rfl
    · exact Nat.isDigit_of_mem_toDigits (by decide) (by decide) digit

theorem bytesToDigits_digits (bytes : Bytes) (digitCount : Nat) : ∀ c ∈ bytesToDigits bytes digitCount, c.isDigit =
    true := by
  intro c inside
  obtain ⟨b, -, there⟩ := List.mem_flatMap.mp inside
  exact (padLeft_twoDigits _ (Nat.mod_lt _ (by decide))).2 c there

theorem bytesToDigits_length {bytes : Bytes} {digitCount : Nat} (enough : digitCount / 2 ≤ bytes.length) :
    (bytesToDigits bytes digitCount).length = 2 * (digitCount / 2) := by
  have two : ∀ b : UInt8, (padLeft (Nat.toDigits 10 (b.toNat % 100))).length = 2 :=
    fun b => (padLeft_twoDigits _ (Nat.mod_lt _ (by decide))).1
  unfold bytesToDigits
  rw [List.length_flatMap, List.map_congr_left fun b _ => two b, List.map_const', List.sum_replicate,
    List.length_take, Nat.min_eq_left enough, Nat.nsmul_eq_mul, Nat.mul_comm]

theorem generate_digits (sha512 : Bytes → Block 64) (a b : Bytes) :
    (generate sha512 a b).toList.length = 60 ∧ ∀ c ∈ (generate sha512 a b).toList, c.isDigit = true := by
  have half : ∀ input, (bytesToDigits (sha512 input).toList 30).length = 30 := by
    intro input
    have long : 30 / 2 ≤ (sha512 input).toList.length := by
      rw [List.Vector.toList_length]
      decide
    exact bytesToDigits_length long
  unfold generate
  rw [String.toList_ofList]
  refine ⟨?_, fun c inside => ?_⟩
  · rw [List.length_append, half, half]
  · rcases List.mem_append.mp inside with first | second
    · exact bytesToDigits_digits _ _ c first
    · exact bytesToDigits_digits _ _ c second

end Digits

/-- Both peers come to the same sixty digits, and other keys of the length are hashed from other inputs. -/
theorem safety_number (sha512 : Bytes → Block 64) (a b : Bytes) (lengths : a.length = b.length) :
    generate sha512 a b = generate sha512 b a ∧
      ((generate sha512 a b).toList.length = 60 ∧ ∀ c ∈ (generate sha512 a b).toList, c.isDigit = true) ∧
      ∀ c d : Bytes, c.length = a.length → d.length = a.length → s(c, d) ≠ s(a, b) →
        s((hashInputs c d).1, (hashInputs c d).2) ≠ s((hashInputs a b).1, (hashInputs a b).2) := by
  refine ⟨?_, generate_digits sha512 a b, fun c d third fourth apart same => ?_⟩
  · unfold generate
    rw [hashInputs_swap]
  · exact apart (hashInputs_injective lengths third fourth same)

section Samples

def digests : Bytes × Bytes :=
  ([55, 46, 71, 145, 55, 173, 1, 211, 249, 96, 171, 197, 230, 196, 106, 51, 144, 204, 68, 17, 76, 254, 18, 103, 128, 50,
      39, 67, 171, 252, 78, 251, 84, 151, 14, 122, 111, 199, 205, 128, 173, 96, 108, 76, 49, 171, 209, 144, 33, 31,
          192, 6,
      154, 78, 241, 229, 125, 81, 126, 118, 86, 44, 29, 39],
    [165, 87, 251, 254, 6, 225, 250, 58, 72, 61, 211, 51, 232, 169, 236, 170, 243, 103, 118, 41, 15, 112, 244, 48,
        207, 111,
      85, 186, 16, 215, 149, 61, 180, 235, 99, 212, 196, 184, 189, 121, 58, 146, 27, 188, 76, 58, 202, 185, 210, 137,
          206,
      100, 158, 246, 47, 138, 55, 120, 145, 62, 134, 251, 161, 156])

def sampleSha512 (input : Bytes) : Block 64 :=
  if input = [1, 2, 1, 3, 1, 2] then ⟨digests.1, rfl⟩ else ⟨digests.2, rfl⟩

theorem safety_number_sample :
    generate sampleSha512 [1, 2] [1, 3] = generate sampleSha512 [1, 3] [1, 2] ∧
      ((generate sampleSha512 [1, 2] [1, 3]).toList.length = 60 ∧
        ∀ c ∈ (generate sampleSha512 [1, 2] [1, 3]).toList, c.isDigit = true) ∧
      s((hashInputs [1, 2] [1, 2]).1, (hashInputs [1, 2] [1, 2]).2) ≠
        s((hashInputs [1, 2] [1, 3]).1, (hashInputs [1, 2] [1, 3]).2) := by
  obtain ⟨swapped, digits, others⟩ := safety_number sampleSha512 [1, 2] [1, 3] rfl
  exact ⟨swapped, digits, others [1, 2] [1, 2] rfl rfl (by decide)⟩

example : generate sampleSha512 [1, 2] [1, 3] = "554671455573011149967197309606658751540625505872611151326936" := by
  decide +kernel

end Samples

end Echo.Client.SafetyNumberService
