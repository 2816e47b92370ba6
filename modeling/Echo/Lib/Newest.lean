import Mathlib.Data.List.Count
import Mathlib.Order.Lattice

/-! A list in the order of a key that is cut to its last entries, against an order of time that the key may misread. -/
namespace Echo.Lib
variable {α κ τ : Type*}

/-- What a cut to `cap` entries takes away, from the front. -/
def cutOff (cap : Nat) (l : List α) : List α := l.take (l.length - cap)

def newest (cap : Nat) (l : List α) : List α := l.drop (l.length - cap)

theorem countP_lt_countP {l : List α} {p q : α → Bool} (implies : ∀ a ∈ l, p a = true → q a = true) {b : α}
    (mem : b ∈ l) (now : q b = true) (never : p b = false) : l.countP p < l.countP q := by
  obtain ⟨front, back, rfl⟩ := List.append_of_mem mem
  have left : front.countP p ≤ front.countP q :=
    List.countP_mono_left fun a inside => implies a (List.mem_append_left _ inside)
  have right : back.countP p ≤ back.countP q :=
    List.countP_mono_left fun a inside => implies a (List.mem_append_right _ (List.mem_cons_of_mem b inside))
  rw [List.countP_append, List.countP_append, List.countP_cons, List.countP_cons, now, never]
  simp only [Bool.false_eq_true, if_false, if_true]
  omega

theorem cutOff_append_newest (cap : Nat) (l : List α) : cutOff cap l ++ newest cap l = l := List.take_append_drop _ l

theorem length_newest (cap : Nat) (l : List α) : (newest cap l).length = min l.length cap := by
  rw [newest, List.length_drop]
  omega

theorem cutOff_eq_nil {cap : Nat} {l : List α} (short : l.length ≤ cap) : cutOff cap l = [] := by
  rw [cutOff, Nat.sub_eq_zero_of_le short, List.take_zero]

/-- The list is in the order of time, and nothing was cut off that is newer than something kept. -/
def Chronicle [LE τ] (time : α → τ) (gone kept : List α) : Prop :=
  kept.Pairwise (fun a b => time a ≤ time b) ∧ ∀ a ∈ gone, ∀ b ∈ kept, time a ≤ time b

variable [LinearOrder κ] [LinearOrder τ] {key : α → κ} {time : α → τ}

theorem pairwise_of_key_lt {R : α → α → Prop} {l : List α} (sorted : l.Pairwise fun a b => key a ≤ key b)
    (ordered : l.Pairwise R) {a b : α} (left : a ∈ l) (right : b ∈ l) (less : key a < key b) : R a b := by
  induction l with
  | nil => cases left
  | cons head l ih =>
    obtain ⟨first, sorted⟩ := List.pairwise_cons.mp sorted
    obtain ⟨related, ordered⟩ := List.pairwise_cons.mp ordered
    rcases List.mem_cons.mp right with rfl | right'
    · rcases List.mem_cons.mp left with rfl | left'
      · exact absurd less (lt_irrefl _)
      · exact absurd less (first a left').not_gt
    · rcases List.mem_cons.mp left with rfl | left'
      · exact related b right'
      · exact ih sorted ordered left' right'

variable (key) in
theorem exists_kept {cap : Nat} {l : List α} (sorted : l.Pairwise fun a b => key a ≤ key b) {b : α} (mem : b ∈ l)
    (few : l.countP (fun a => key b < key a) < cap) : ∃ a ∈ newest cap l, key a = key b := by
  by_contra none
  rw [← cutOff_append_newest cap l, List.mem_append] at mem
  rcases mem with gone | kept
  · have full : (newest cap l).length = cap := by
      have some_gone := List.length_pos_of_mem gone
      rw [cutOff, List.length_take] at some_gone
      rw [length_newest]
      omega
    rw [← cutOff_append_newest cap l, List.pairwise_append] at sorted
    have above : ∀ a ∈ newest cap l, key b < key a := fun a kept =>
      lt_of_le_of_ne (sorted.2.2 b gone a kept) fun same => none ⟨a, kept, same.symm⟩
    have all : (newest cap l).countP (fun a => key b < key a) = (newest cap l).length :=
      List.countP_eq_length.mpr fun a kept => decide_eq_true (above a kept)
    rw [← cutOff_append_newest cap l, List.countP_append, all] at few
    omega
  · exact none ⟨b, kept, rfl⟩

theorem countP_lt_of_kept {cap : Nat} {l : List α} (sorted : l.Pairwise fun a b => key a ≤ key b) {b : α}
    (kept : b ∈ newest cap l) : l.countP (fun a => key b < key a) < cap := by
  rw [← cutOff_append_newest cap l, List.pairwise_append] at sorted
  have before : (cutOff cap l).countP (fun a => key b < key a) = 0 :=
    List.countP_eq_zero.mpr fun a gone => by simpa using sorted.2.2 a gone b kept
  have within : (newest cap l).countP (fun a => key b < key a) < (newest cap l).length :=
    List.countP_lt_length_iff.mpr ⟨b, kept, decide_eq_false (lt_irrefl _)⟩
  rw [← cutOff_append_newest cap l, List.countP_append, before]
  rw [length_newest] at within
  omega

/-- The cut list is chronological when no two entries are misread, or the one that should come first is beyond the
cut. -/
theorem chronicle_iff {cap : Nat} {l : List α} (sorted : l.Pairwise fun a b => key a ≤ key b)
    (level : ∀ a ∈ l, ∀ b ∈ l, key a = key b → time a = time b) :
    Chronicle time (cutOff cap l) (newest cap l) ↔
      ∀ a ∈ l, ∀ b ∈ l, key a < key b → time b < time a → cap ≤ l.countP fun c => key b < key c := by
  have whole := cutOff_append_newest cap l
  have inside : ∀ a ∈ newest cap l, a ∈ l := fun a kept => whole ▸ List.mem_append_right _ kept
  constructor
  · rintro ⟨ordered, spared⟩ a left b right less misread
    by_contra few
    obtain ⟨c, kept, same⟩ := exists_kept key sorted right (not_le.mp few)
    have time_eq := level c (inside c kept) b right same
    rw [← whole, List.pairwise_append] at sorted
    rw [← same] at less
    rw [← time_eq] at misread
    rw [← whole, List.mem_append] at left
    rcases left with gone | left
    · exact (spared a gone c kept).not_gt misread
    · exact (pairwise_of_key_lt sorted.2.1 ordered left kept less).not_gt misread
  · intro well
    have ordered : ∀ a ∈ l, ∀ b ∈ newest cap l, key a ≤ key b → time a ≤ time b := by
      intro a left b kept below
      rcases below.lt_or_eq with less | same
      · by_contra misread
        exact (well a left b (inside b kept) less (not_le.mp misread)).not_gt (countP_lt_of_kept sorted kept)
      · exact (level a left b (inside b kept) same).le
    have split := sorted
    rw [← whole, List.pairwise_append] at split
    refine ⟨split.2.1.imp_of_mem fun left right => ordered _ (inside _ left) _ right, fun a gone b kept => ?_⟩
    exact ordered a (whole ▸ List.mem_append_left _ gone) b kept (split.2.2 a gone b kept)

end Echo.Lib
