import Mathlib.Data.List.Nodup

/-! Finite maps that remember the order of insertion, oldest first. -/
namespace Echo.Lib

structure LinkedMap (κ ν : Type) where
  entries : List (κ × ν)
  nodup : (entries.map Prod.fst).Nodup

namespace LinkedMap
variable {κ ν : Type}

def empty : LinkedMap κ ν := ⟨[], List.nodup_nil⟩

def keep (m : LinkedMap κ ν) (p : κ × ν → Bool) : LinkedMap κ ν :=
  ⟨m.entries.filter p, m.nodup.sublist (List.filter_sublist.map Prod.fst)⟩

def dropFirst (m : LinkedMap κ ν) (n : Nat) : LinkedMap κ ν :=
  ⟨m.entries.drop n, m.nodup.sublist ((List.drop_sublist _ _).map Prod.fst)⟩

variable [DecidableEq κ]

def find (m : LinkedMap κ ν) (key : κ) : Option ν := (m.entries.find? fun e => e.1 = key).map Prod.snd

def erase (m : LinkedMap κ ν) (key : κ) : LinkedMap κ ν := m.keep fun e => e.1 ≠ key

def insert (m : LinkedMap κ ν) (key : κ) (value : ν) : LinkedMap κ ν where
  entries := (m.erase key).entries ++ [(key, value)]
  nodup := by
    rw [List.map_append, List.map_cons, List.map_nil]
    refine List.Nodup.append (m.erase key).nodup (List.nodup_singleton key) ?_
    intro k inside last
    obtain ⟨e, found, rfl⟩ := List.mem_map.mp inside
    simp only [erase, keep, List.mem_filter] at found
    simp_all

theorem find_eq_some {m : LinkedMap κ ν} {key : κ} {v : ν} : m.find key = some v ↔ (key, v) ∈ m.entries := by
  constructor
  · intro found
    simp only [find, Option.map_eq_some_iff] at found
    obtain ⟨⟨k, v'⟩, first, rfl⟩ := found
    have same : k = key := by simpa using List.find?_some first
    exact same ▸ List.mem_of_find?_eq_some first
  · intro inside
    rcases m with ⟨entries, nodup⟩
    simp only [find]
    induction entries with
    | nil => cases inside
    | cons first rest ih =>
      obtain ⟨fresh, tail⟩ := List.nodup_cons.mp nodup
      rcases List.mem_cons.mp inside with rfl | later
      · simp
      · have apart : first.1 ≠ key := by
          intro same
          exact fresh (same ▸ List.mem_map_of_mem later)
        rw [List.find?_cons_of_neg (by simpa using apart)]
        exact ih tail later

theorem find_isSome {m : LinkedMap κ ν} {key : κ} : (m.find key).isSome ↔ key ∈ m.entries.map Prod.fst := by
  rw [Option.isSome_iff_exists, List.mem_map]
  constructor
  · rintro ⟨v, found⟩
    exact ⟨(key, v), find_eq_some.mp found, rfl⟩
  · rintro ⟨⟨_, v⟩, inside, rfl⟩
    exact ⟨v, find_eq_some.mpr inside⟩

theorem find_ext {m m' : LinkedMap κ ν} {key : κ} (same : ∀ v, (key, v) ∈ m.entries ↔ (key, v) ∈ m'.entries) :
    m.find key = m'.find key := by
  refine Option.ext fun v => ?_
  rw [find_eq_some, find_eq_some, same]

@[simp] theorem find_empty (key : κ) : (empty : LinkedMap κ ν).find key = none := rfl

theorem find_keep (m : LinkedMap κ ν) (p : κ × ν → Bool) (key : κ) :
    (m.keep p).find key = (m.find key).filter fun v => p (key, v) := by
  refine Option.ext fun v => ?_
  rw [find_eq_some, Option.filter_eq_some_iff, find_eq_some]
  simp [keep]

@[simp] theorem find_erase_self (m : LinkedMap κ ν) (key : κ) : (m.erase key).find key = none := by
  rw [erase, find_keep]
  cases m.find key <;> simp [Option.filter]

theorem find_erase {m : LinkedMap κ ν} {key other : κ} (apart : other ≠ key) :
    (m.erase key).find other = m.find other := by
  refine find_ext fun v => ?_
  simp [erase, keep, apart]

@[simp] theorem find_insert_self (m : LinkedMap κ ν) (key : κ) (value : ν) :
    (m.insert key value).find key = some value := find_eq_some.mpr (by simp [insert])

theorem find_insert {m : LinkedMap κ ν} {key other : κ} (apart : other ≠ key) (value : ν) :
    (m.insert key value).find other = m.find other := by
  refine find_ext fun v => ?_
  simp [insert, erase, keep, apart]

omit [DecidableEq κ] in
theorem mem_drop_iff (m : LinkedMap κ ν) (n : Nat) (key : κ) (v : ν) :
    (key, v) ∈ m.entries.drop n ↔ (key, v) ∈ m.entries ∧ key ∉ (m.entries.take n).map Prod.fst := by
  have nodup := m.nodup
  rw [← List.take_append_drop n m.entries, List.map_append] at nodup
  have apart := List.disjoint_of_nodup_append nodup
  constructor
  · intro back
    exact ⟨List.mem_of_mem_drop back, fun front => apart front (List.mem_map_of_mem back)⟩
  · rintro ⟨inside, stays⟩
    rw [← List.take_append_drop n m.entries] at inside
    rcases List.mem_append.mp inside with front | back
    · exact (stays (List.mem_map_of_mem front)).elim
    · exact back

theorem find_dropFirst (m : LinkedMap κ ν) (n : Nat) (key : κ) :
    (m.dropFirst n).find key = if key ∈ (m.entries.take n).map Prod.fst then none else m.find key := by
  by_cases pushed : key ∈ (m.entries.take n).map Prod.fst
  · rw [if_pos pushed]
    cases found : (m.dropFirst n).find key with
    | none => rfl
    | some v => exact (((mem_drop_iff m n key v).mp (find_eq_some.mp found)).2 pushed).elim
  · rw [if_neg pushed]
    refine find_ext fun v => ?_
    rw [dropFirst, mem_drop_iff m n key v]
    exact ⟨And.left, fun inside => ⟨inside, pushed⟩⟩

theorem find_dropFirst_insert (m : LinkedMap κ ν) (key : κ) (value : ν) {n : Nat}
    (few : n ≤ (m.erase key).entries.length) : ((m.insert key value).dropFirst n).find key = some value := by
  refine find_eq_some.mpr ?_
  simp only [dropFirst, insert]
  rw [List.drop_append_of_le_length few]
  simp

theorem countP_erase (m : LinkedMap κ ν) (key : κ) (p : κ × ν → Bool) :
    (m.erase key).entries.countP p + ((m.find key).any fun v => p (key, v)).toNat = m.entries.countP p := by
  rcases m with ⟨entries, nodup⟩
  simp only [erase, keep, find]
  induction entries with
  | nil => rfl
  | cons first rest ih =>
    obtain ⟨fresh, tail⟩ := List.nodup_cons.mp nodup
    have ih := ih tail
    by_cases same : first.1 = key
    · subst same
      have others : rest.filter (fun e => e.1 ≠ first.1) = rest := by
        refine List.filter_eq_self.mpr fun e inside => decide_eq_true fun back => fresh ?_
        exact back ▸ List.mem_map_of_mem inside
      rw [List.filter_cons_of_neg (by simp), others, List.find?_cons_of_pos (by simp), List.countP_cons]
      cases held : p first <;> simp [held]
    · rw [List.filter_cons_of_pos (by simpa using same), List.find?_cons_of_neg (by simpa using same),
        List.countP_cons, List.countP_cons, ← ih]
      omega

theorem countP_insert (m : LinkedMap κ ν) (key : κ) (value : ν) (p : κ × ν → Bool) :
    (m.insert key value).entries.countP p + ((m.find key).any fun v => p (key, v)).toNat =
      m.entries.countP p + (p (key, value)).toNat := by
  have erased := m.countP_erase key p
  simp only [insert, List.countP_append, List.countP_singleton]
  cases p (key, value) <;> simp <;> omega

theorem not_mem_take_insert (m : LinkedMap κ ν) (key : κ) (value : ν) {n : Nat}
    (few : n ≤ (m.erase key).entries.length) : key ∉ ((m.insert key value).entries.take n).map Prod.fst := by
  intro front
  have stays := find_dropFirst_insert m key value few
  rw [find_dropFirst, if_pos front] at stays
  cases stays

end LinkedMap
end Echo.Lib
