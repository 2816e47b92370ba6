import Echo.Server.Origin

/-! The backlog of a device in the order of `get_undelivered`, and its pages. -/
namespace Echo.Server
open Echo.Lib

section Order

theorem MessageRow.le_iff {a b : MessageRow} :
    a.le b ↔ a.createdAt < b.createdAt ∨ a.createdAt = b.createdAt ∧ a.id ≤ b.id := by
  unfold MessageRow.le MessageRow.before
  grind

instance : IsTrans MessageRow MessageRow.le where
  trans a b c first second := by
    rw [MessageRow.le_iff] at *
    grind

instance : Std.Total MessageRow.le where
  total a b := by
    rw [MessageRow.le_iff, MessageRow.le_iff]
    grind

theorem isBeyond_some {ts : Nat} {id : Uuid} {m : MessageRow} :
    Database.isBeyond (some (ts, id)) m = true ↔ ts < m.createdAt ∨ ts = m.createdAt ∧ id < m.id := by
  simp [Database.isBeyond]

theorem not_le_of_beyond {last m : MessageRow} (beyond : Database.isBeyond (some (last.createdAt, last.id)) m = true) :
    ¬ m.le last := by
  rw [isBeyond_some] at beyond
  rw [MessageRow.le_iff]
  grind

theorem beyond_of_not_le {last m : MessageRow} (after : ¬ m.le last) :
    Database.isBeyond (some (last.createdAt, last.id)) m = true := by
  rw [MessageRow.le_iff] at after
  rw [isBeyond_some]
  grind

end Order

section Unique

def Database.Unique (db : Database) : Prop := (db.messages.map MessageRow.id).Nodup

theorem Database.Unique.eq {db : Database} (unique : db.Unique) {a b : MessageRow} (first : a ∈ db.messages)
    (second : b ∈ db.messages) (same : a.id = b.id) : a = b := List.inj_on_of_nodup_map unique first second same

end Unique

section Pages
variable {db : Database} {u : Uuid} {d : Int}

/-- All that `get_undelivered` would return without its limit. -/
def Database.backlog (db : Database) (u : Uuid) (d : Int) (cursor : Option (Nat × Uuid)) : List MessageRow :=
  (db.messages.filter fun m => db.isUndelivered u d m && Database.isBeyond cursor m).insertionSort MessageRow.le

theorem Database.undeliveredRows_eq (db : Database) (u : Uuid) (d : Int) (cursor : Option (Nat × Uuid)) :
    db.undeliveredRows u d cursor = (db.backlog u d cursor).take undeliveredPageSize := rfl

theorem Database.mem_backlog {cursor : Option (Nat × Uuid)} {m : MessageRow} :
    m ∈ db.backlog u d cursor ↔
      m ∈ db.messages ∧ db.isUndelivered u d m = true ∧ Database.isBeyond cursor m = true := by
  simp [backlog]

theorem Database.backlog_sorted (db : Database) (u : Uuid) (d : Int) (cursor : Option (Nat × Uuid)) :
    (db.backlog u d cursor).Pairwise MessageRow.le := List.pairwise_insertionSort MessageRow.le _

theorem Database.first_page {cursor : Option (Nat × Uuid)} {m : MessageRow} (unique : db.Unique)
    (inside : m ∈ db.backlog u d cursor) (least : ∀ m' ∈ db.backlog u d cursor, m.le m') :
    m ∈ db.undeliveredRows u d cursor := by
  have sorted := db.backlog_sorted u d cursor
  rw [undeliveredRows_eq]
  cases rows : db.backlog u d cursor with
  | nil =>
    rw [rows] at inside
    cases inside
  | cons first rest =>
    rw [rows] at sorted inside least
    have low : first.le m := by
      rcases List.mem_cons.mp inside with rfl | later
      · exact least m List.mem_cons_self
      · exact List.rel_of_pairwise_cons sorted later
    have same : first.id = m.id := by
      have high := least first List.mem_cons_self
      rw [MessageRow.le_iff] at low high
      grind
    have first_ : first ∈ db.messages := (mem_backlog.mp (rows ▸ List.mem_cons_self)).1
    have here : m ∈ db.messages := (mem_backlog.mp (rows ▸ inside)).1
    rw [unique.eq here first_ same.symm]
    exact List.mem_cons_self

theorem Database.exists_page {m : MessageRow} (unique : db.Unique) (inside : m ∈ db.messages)
    (waiting : db.isUndelivered u d m = true) : ∃ cursor, m ∈ db.undeliveredRows u d cursor := by
  by_cases earlier : ∃ m' ∈ db.backlog u d none, ¬ m.le m'
  · -- the last of the earlier ones is the cursor
    let before := (db.backlog u d none).filter fun m' => ¬ m.le m'
    have some_ : before ≠ [] := by
      obtain ⟨m', there, low⟩ := earlier
      exact List.ne_nil_of_mem (List.mem_filter.mpr ⟨there, by simpa using low⟩)
    have sorted : before.Pairwise MessageRow.le := (db.backlog_sorted u d none).sublist List.filter_sublist
    obtain ⟨first, last, parts⟩ : ∃ first last, before = first ++ [last] :=
      ⟨_, _, (List.dropLast_append_getLast some_).symm⟩
    have low : ¬ m.le last := by
      have there : last ∈ before := parts ▸ List.mem_append_right _ List.mem_cons_self
      simpa using (List.mem_filter.mp there).2
    have top : ∀ m' ∈ before, m'.le last := by
      intro m' there
      rw [parts] at there sorted
      rcases List.mem_append.mp there with early | final
      · exact (List.pairwise_append.mp sorted).2.2 m' early last List.mem_cons_self
      · rw [List.mem_singleton.mp final, MessageRow.le_iff]
        exact .inr ⟨rfl, le_rfl⟩
    refine ⟨some (last.createdAt, last.id), first_page unique (mem_backlog.mpr ⟨inside, waiting, ?_⟩) ?_⟩
    · exact beyond_of_not_le low
    · intro m' there
      obtain ⟨inside', waiting', beyond⟩ := mem_backlog.mp there
      by_contra high
      have early : m' ∈ before := List.mem_filter.mpr ⟨mem_backlog.mpr ⟨inside', waiting', rfl⟩, by simpa using high⟩
      exact not_le_of_beyond beyond (top m' early)
  · refine ⟨none, first_page unique (mem_backlog.mpr ⟨inside, waiting, rfl⟩) fun m' there => ?_⟩
    by_contra low
    exact earlier ⟨m', there, low⟩

end Pages
end Echo.Server
