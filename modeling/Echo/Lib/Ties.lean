import Echo.Lib.Paging

/-! Reading newest first where keys may be equal: a page is any answer to `ORDER BY key DESC LIMIT limit`, which leaves
the order of equal keys open. -/
namespace Echo.Lib.Paging
variable {α κ : Type} [LinearOrder κ] (key : α → κ)

/-- The first `limit` rows before the cursor, in one of their orders. -/
def IsPage (rows : List α) (limit : Nat) (cursor : Option κ) (shown : List α) : Prop :=
  ∃ left, (shown ++ left).Perm (rows.filter (isBefore key cursor)) ∧
    (shown ++ left).Pairwise (fun a b => key b ≤ key a) ∧ (shown.length = limit ∨ shown.length < limit ∧ left = [])

def Answers (rows : List α) (limit : Nat) (fetch : Option κ → List α) : Prop :=
  ∀ cursor, IsPage key rows limit cursor (fetch cursor)

def Untied (rows : List α) (limit : Nat) : Prop := ∀ k, Unbroken key rows (k * limit)

variable {key}

theorem page_isPage (rows : List α) (limit : Nat) (cursor : Option κ) :
    IsPage key rows limit cursor (page key rows limit cursor) := by
  refine ⟨older key rows limit cursor, page_append_left key rows limit cursor, ?_, ?_⟩
  · rw [page, older, List.take_append_drop]
    exact newestFirst_sorted key _
  · rw [length_page]
    rcases le_or_gt limit (rows.filter (isBefore key cursor)).length with full | short
    · exact Or.inl (Nat.min_eq_left full)
    · exact Or.inr ⟨by omega, older_eq_nil short.le⟩

theorem page_answers (rows : List α) (limit : Nat) : Answers key rows limit (page key rows limit) :=
  page_isPage rows limit

theorem Unbroken.perm {rows rows' : List α} (same : rows.Perm rows') {limit : Nat} (unbroken : Unbroken key rows limit) :
    Unbroken key rows' limit := by
  intro a mem few
  rw [← same.countP_eq] at few ⊢
  exact unbroken a (same.mem_iff.mpr mem) few

theorem Untied.perm_iff {rows rows' : List α} (same : rows.Perm rows') {limit : Nat} :
    Untied key rows limit ↔ Untied key rows' limit :=
  ⟨fun untied k => (untied k).perm same, fun untied k => (untied k).perm same.symm⟩

section Cut
variable {shown left : List α} {limit : Nat}

theorem untied_append_iff (below : ∀ a ∈ shown, ∀ b ∈ left, key b < key a)
    (length : shown.length = limit ∨ shown.length < limit ∧ left = []) :
    Untied key (shown ++ left) limit ↔ Untied key left limit := by
  have newer : ∀ a ∈ left, shown.countP (fun c => key a < key c) = shown.length := fun a mem =>
    List.countP_eq_length.mpr fun c inside => decide_eq_true (below c inside a mem)
  have atLeast : ∀ a ∈ left, shown.countP (fun c => key a ≤ key c) = shown.length := fun a mem =>
    List.countP_eq_length.mpr fun c inside => decide_eq_true (below c inside a mem).le
  have full : ∀ a ∈ left, shown.length = limit := fun a mem =>
    length.resolve_right fun short => absurd (short.2 ▸ mem) List.not_mem_nil
  constructor
  · intro untied k a mem few
    have all := untied (k + 1) a (List.mem_append_right shown mem)
    rw [List.countP_append, List.countP_append, newer a mem, atLeast a mem, full a mem, Nat.succ_mul] at all
    omega
  · intro untied k a mem few
    cases k with
    | zero => rw [Nat.zero_mul] at few; exact absurd few (Nat.not_lt_zero _)
    | succ k =>
      rw [Nat.succ_mul]
      rw [List.countP_append, Nat.succ_mul] at few
      rw [List.countP_append]
      rcases List.mem_append.mp mem with early | late
      · have none_left : left.countP (fun c => key a ≤ key c) = 0 :=
          List.countP_eq_zero.mpr fun c inside => by simpa using below a early c inside
        have within := List.countP_le_length (p := fun c => decide (key a ≤ key c)) (l := shown)
        have bound : shown.length ≤ limit := length.elim le_of_eq fun short => short.1.le
        omega
      · have rest := untied k a late
        rw [newer a late, full a late] at few
        rw [atLeast a late, full a late]
        omega

theorem not_untied_of_tie {last b : α} (inside : last ∈ shown) (outside : b ∈ left) (same : key b = key last)
    (sorted : (shown ++ left).Pairwise fun a b => key b ≤ key a) (full : shown.length = limit) :
    ¬ Untied key (shown ++ left) limit := by
  intro untied
  have across := (List.pairwise_append.mp sorted).2.2
  have newer_left : left.countP (fun c => key last < key c) = 0 :=
    List.countP_eq_zero.mpr fun c mem => by simpa using across last inside c mem
  have newer : shown.countP (fun c => key last < key c) < shown.length :=
    List.countP_lt_length_iff.mpr ⟨last, inside, decide_eq_false (lt_irrefl _)⟩
  have atLeast : shown.countP (fun c => key last ≤ key c) = shown.length :=
    List.countP_eq_length.mpr fun c mem => decide_eq_true (same ▸ across c mem b outside)
  have one : 0 < left.countP (fun c => key last ≤ key c) :=
    List.countP_pos_iff.mpr ⟨b, outside, decide_eq_true same.ge⟩
  have whole := untied 1 last (List.mem_append_left left inside)
  rw [List.countP_append, List.countP_append, newer_left, atLeast, Nat.one_mul] at whole
  omega

end Cut

section Reading
variable {rows : List α} {limit fuel : Nat} {cursor : Option κ} {fetch : Option κ → List α}

theorem last_le {shown left : List α} {last : α} (sorted : (shown ++ left).Pairwise fun a b => key b ≤ key a)
    (ends : shown.getLast? = some last) {a : α} (mem : a ∈ shown) : key last ≤ key a := by
  have own := (List.pairwise_append.mp sorted).1
  obtain ⟨front, rfl⟩ := List.getLast?_eq_some_iff.mp ends
  rcases List.mem_append.mp mem with early | here
  · exact (List.pairwise_append.mp own).2.2 a early last (List.mem_singleton_self last)
  · rw [List.mem_singleton.mp here]

theorem before_last {shown left : List α} {last : α} (perm : (shown ++ left).Perm (rows.filter (isBefore key cursor)))
    (sorted : (shown ++ left).Pairwise fun a b => key b ≤ key a) (ends : shown.getLast? = some last) :
    (left.filter fun b => key b < key last).Perm (rows.filter (isBefore key (some (key last)))) := by
  have inside := List.mem_of_getLast? ends
  have within := (List.mem_filter.mp (perm.mem_iff.mp (List.mem_append_left left inside))).2
  have none_shown : shown.filter (isBefore key (some (key last))) = [] :=
    List.filter_eq_nil_iff.mpr fun a mem => by simpa [isBefore] using last_le sorted ends mem
  rw [filter_isBefore within]
  have cut := perm.filter (isBefore key (some (key last)))
  rw [List.filter_append, none_shown, List.nil_append] at cut
  exact cut

theorem pages_subperm (answers : Answers key rows limit fetch) :
    (pages key fetch fuel cursor).Subperm (rows.filter (isBefore key cursor)) := by
  induction fuel generalizing cursor with
  | zero => exact List.nil_subperm
  | succ fuel ih =>
    rw [pages]
    split
    case h_1 => exact List.nil_subperm
    case h_2 last ends =>
      obtain ⟨left, perm, sorted, -⟩ := answers cursor
      have later := (@ih (some (key last))).trans (before_last perm sorted ends).symm.subperm
      have kept := later.trans (List.filter_sublist (p := fun b => decide (key b < key last)) (l := left)).subperm
      exact ((List.subperm_append_left _).mpr kept).trans perm.subperm

theorem pages_sorted (answers : Answers key rows limit fetch) :
    (pages key fetch fuel cursor).Pairwise fun a b => key b ≤ key a := by
  induction fuel generalizing cursor with
  | zero => exact List.Pairwise.nil
  | succ fuel ih =>
    rw [pages]
    split
    case h_1 => exact List.Pairwise.nil
    case h_2 last ends =>
      obtain ⟨left, perm, sorted, -⟩ := answers cursor
      refine List.pairwise_append.mpr ⟨(List.pairwise_append.mp sorted).1, ih, fun a mem b later => ?_⟩
      have before := (List.mem_filter.mp ((pages_subperm answers).subset later)).2
      exact (of_decide_eq_true before).le.trans (last_le sorted ends mem)

theorem pages_perm_iff (answers : Answers key rows limit fetch) (positive : 0 < limit)
    (enough : (rows.filter (isBefore key cursor)).length < fuel) :
    (pages key fetch fuel cursor).Perm (rows.filter (isBefore key cursor)) ↔
      Untied key (rows.filter (isBefore key cursor)) limit := by
  induction fuel generalizing cursor with
  | zero => exact absurd enough (Nat.not_lt_zero _)
  | succ fuel ih =>
    obtain ⟨left, perm, sorted, length⟩ := answers cursor
    rw [pages]
    split
    case h_1 empty =>
      rw [List.getLast?_eq_none_iff] at empty
      rw [empty] at perm length
      obtain ⟨-, rfl⟩ := length.resolve_left (by rw [List.length_nil]; omega)
      rw [List.nil_append] at perm
      rw [perm.symm.eq_nil]
      exact iff_of_true .nil fun k a mem => absurd mem List.not_mem_nil
    case h_2 last ends =>
      have inside := List.mem_of_getLast? ends
      have rest := before_last perm sorted ends
      have filled := List.length_pos_of_mem inside
      have total := perm.length_eq
      rw [List.length_append] at total
      rw [← Untied.perm_iff perm]
      by_cases tied : ∃ b ∈ left, key b = key last
      · obtain ⟨b, outside, same⟩ := tied
        have full := length.resolve_right fun short => absurd (short.2 ▸ outside) List.not_mem_nil
        refine iff_of_false (fun whole => ?_) (not_untied_of_tie inside outside same sorted full)
        have later : (pages key fetch fuel (some (key last))).length ≤ _ := (pages_subperm answers).length_le
        have fewer : (left.filter fun b => key b < key last).length < left.length :=
          List.length_filter_lt_length_iff_exists.mpr ⟨b, outside, by simp [same]⟩
        have same_length := whole.length_eq
        rw [List.length_append] at same_length
        rw [← rest.length_eq] at later
        omega
      · have below : ∀ b ∈ left, key b < key last := by
          intro b outside
          refine lt_of_le_of_ne ?_ fun same => tied ⟨b, outside, same⟩
          exact (List.pairwise_append.mp sorted).2.2 last inside b outside
        rw [List.filter_eq_self.mpr fun b outside => decide_eq_true (below b outside)] at rest
        have apart : ∀ a ∈ fetch cursor, ∀ b ∈ left, key b < key a := fun a mem b outside =>
          (below b outside).trans_le (last_le sorted ends mem)
        rw [untied_append_iff apart length, Untied.perm_iff rest, ← ih (by rw [← rest.length_eq]; omega)]
        refine ⟨fun whole => ?_, fun later => ?_⟩
        · exact ((List.perm_append_left_iff _).mp (whole.trans perm.symm)).trans rest
        · exact ((List.perm_append_left_iff _).mpr (later.trans rest.symm)).trans perm

end Reading
end Echo.Lib.Paging
