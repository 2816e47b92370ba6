import Mathlib.Data.List.Count
import Mathlib.Data.List.Sort
import Mathlib.Data.List.Nodup
import Mathlib.Order.Defs.LinearOrder

/-! Reading a table newest first, a page at a time, each page from before the last row of the one before. -/
namespace Echo.Lib.Paging
variable {α β κ : Type} [LinearOrder κ] (key : α → κ)

def newestFirst (rows : List α) : List α := rows.insertionSort fun a b => key b ≤ key a

def isBefore (cursor : Option κ) (a : α) : Bool := cursor.all fun t => key a < t

/-- `ORDER BY key DESC LIMIT limit`, of the rows before the cursor. -/
def page (rows : List α) (limit : Nat) (cursor : Option κ) : List α :=
  (newestFirst key (rows.filter (isBefore key cursor))).take limit

def pages (fetch : Option κ → List α) : Nat → Option κ → List α
  | 0, _ => []
  | fuel + 1, cursor =>
    match (fetch cursor).getLast? with
    | none => []
    | some last => fetch cursor ++ pages fetch fuel (some (key last))

theorem newestFirst_perm (rows : List α) : (newestFirst key rows).Perm rows := List.perm_insertionSort _ rows

theorem newestFirst_sorted (rows : List α) : (newestFirst key rows).Pairwise fun a b => key b ≤ key a := by
  have total : Std.Total fun a b : α => key b ≤ key a := ⟨fun a b => le_total (key b) (key a)⟩
  have trans : IsTrans α fun a b : α => key b ≤ key a := ⟨fun a b c first second => second.trans first⟩
  exact List.pairwise_insertionSort _ rows

variable {key}

@[simp] theorem filter_isBefore_none (rows : List α) : rows.filter (isBefore key none) = rows :=
  List.filter_eq_self.mpr fun _ _ => rfl

variable {rows : List α} {limit : Nat} {cursor : Option κ} {a last : α}

theorem mem_page (mem : a ∈ page key rows limit cursor) :
    a ∈ rows ∧ isBefore key cursor a = true :=
  List.mem_filter.mp ((newestFirst_perm key _).mem_iff.mp (List.mem_of_mem_take mem))

theorem page_eq_nil (positive : 0 < limit) :
    page key rows limit cursor = [] ↔ ∀ a ∈ rows, isBefore key cursor a = false := by
  rw [page, List.take_eq_nil_iff, or_iff_right (Nat.ne_of_gt positive), newestFirst]
  rw [← List.length_eq_zero_iff, List.length_insertionSort, List.length_eq_zero_iff, List.filter_eq_nil_iff]
  simp only [Bool.not_eq_true]

omit [LinearOrder κ] in
theorem pages_map (f : β → α) (fetch : Option κ → List β) (fuel : Nat) (cursor : Option κ) :
    pages key (fun c => (fetch c).map f) fuel cursor = (pages (key ∘ f) fetch fuel cursor).map f := by
  induction fuel generalizing cursor with
  | zero => rfl
  | succ fuel ih =>
    simp only [pages, List.getLast?_map]
    cases (fetch cursor).getLast? with
    | none => rfl
    | some last =>
      simp only [Option.map_some, List.map_append, ih]
      rfl

theorem isBefore_of_isBefore (within : isBefore key cursor last = true)
    (older : key a < key last) : isBefore key cursor a = true := by
  cases cursor with
  | none => rfl
  | some t => exact decide_eq_true (older.trans (of_decide_eq_true within))

theorem mem_pages {fuel : Nat}
    (mem : a ∈ pages key (page key rows limit) fuel cursor) : a ∈ rows ∧ isBefore key cursor a = true := by
  induction fuel generalizing cursor with
  | zero => cases mem
  | succ fuel ih =>
    rw [pages] at mem
    split at mem
    case h_1 => cases mem
    case h_2 last found =>
      rcases List.mem_append.mp mem with now | later
      · exact mem_page now
      · obtain ⟨inside, older⟩ := ih later
        refine ⟨inside, isBefore_of_isBefore (mem_page (List.mem_of_getLast? found)).2 ?_⟩
        exact of_decide_eq_true older

theorem filter_isBefore (within : isBefore key cursor last = true) :
    rows.filter (isBefore key (some (key last))) =
      (rows.filter (isBefore key cursor)).filter (isBefore key (some (key last))) := by
  rw [List.filter_filter]
  refine List.filter_congr fun a _ => ?_
  cases under : isBefore key (some (key last)) a with
  | false => rfl
  | true => rw [isBefore_of_isBefore within (of_decide_eq_true under), Bool.and_self]

theorem page_append_older
    (distinct : (rows.map key).Nodup) (found : (page key rows limit cursor).getLast? = some last) :
    (page key rows limit cursor ++ rows.filter (isBefore key (some (key last)))).Perm
      (rows.filter (isBefore key cursor)) := by
  set sorted := newestFirst key (rows.filter (isBefore key cursor)) with isSorted
  have same : sorted.Perm (rows.filter (isBefore key cursor)) := newestFirst_perm key _
  have strict : sorted.Pairwise fun a b => key b < key a := by
    have apart : (sorted.map key).Nodup := by
      rw [(same.map key).nodup_iff]
      exact distinct.sublist (List.filter_sublist.map key)
    have both := (newestFirst_sorted key (rows.filter (isBefore key cursor))).and (List.pairwise_map.mp apart)
    exact both.imp fun pair => lt_of_le_of_ne pair.1 (Ne.symm pair.2)
  obtain ⟨front, ends⟩ := List.getLast?_eq_some_iff.mp found
  have cut : sorted = (front ++ [last]) ++ sorted.drop limit := by
    rw [← ends]
    exact (List.take_append_drop limit sorted).symm
  have rest : sorted.filter (isBefore key (some (key last))) = sorted.drop limit := by
    rw [cut] at strict
    obtain ⟨first, second, across⟩ := List.pairwise_append.mp strict
    obtain ⟨-, -, above⟩ := List.pairwise_append.mp first
    rw [cut, List.filter_append, List.filter_eq_nil_iff.mpr, List.nil_append, List.filter_eq_self.mpr, ← cut]
    · intro a mem
      exact decide_eq_true (across last (by simp) a mem)
    · intro a mem
      have atLeast : key last ≤ key a := by
        rcases List.mem_append.mp mem with early | late
        · exact (above a early last (List.mem_singleton_self last)).le
        · rw [List.mem_singleton.mp late]
      simpa [isBefore] using atLeast
  rw [filter_isBefore (mem_page (List.mem_of_getLast? found)).2]
  refine ((same.symm.filter _).append_left _).trans ?_
  rw [rest, ends, ← cut]
  exact same

theorem pages_perm {fuel : Nat} (positive : 0 < limit)
    (distinct : (rows.map key).Nodup) (enough : (rows.filter (isBefore key cursor)).length < fuel) :
    (pages key (page key rows limit) fuel cursor).Perm (rows.filter (isBefore key cursor)) := by
  induction fuel generalizing cursor with
  | zero => cases enough
  | succ fuel ih =>
    rw [pages]
    split
    case h_1 empty =>
      rw [List.getLast?_eq_none_iff, page_eq_nil positive] at empty
      rw [List.filter_eq_nil_iff.mpr fun a mem => by simp [empty a mem]]
    case h_2 last found =>
      have whole := page_append_older distinct found
      have shorter := whole.length_eq
      have filled : 0 < (page key rows limit cursor).length :=
        List.length_pos_of_mem (List.mem_of_getLast? found)
      rw [List.length_append] at shorter
      exact ((ih (by omega)).append_left _).trans whole

theorem pages_whole (enough : rows.length ≤ limit) (fuel : Nat) :
    (pages key (page key rows limit) (fuel + 1) none).Perm rows := by
  have whole : page key rows limit none = newestFirst key rows := by
    rw [page, filter_isBefore_none, List.take_of_length_le]
    rwa [(newestFirst_perm key rows).length_eq]
  rw [pages, whole]
  split
  case h_1 empty =>
    rw [List.getLast?_eq_none_iff] at empty
    have same : (newestFirst key rows).Perm rows := newestFirst_perm key rows
    rwa [empty] at same
  case h_2 last found =>
    have nothing : ∀ a, a ∉ pages key (page key rows limit) fuel (some (key last)) := by
      intro a mem
      obtain ⟨inside, older⟩ := mem_pages mem
      obtain ⟨front, ends⟩ := List.getLast?_eq_some_iff.mp found
      have sorted := newestFirst_sorted key rows
      have mem := (newestFirst_perm key rows).mem_iff.mpr inside
      rw [ends] at mem sorted
      have above : key last ≤ key a := by
        rcases List.mem_append.mp mem with early | late
        · exact (List.pairwise_append.mp sorted).2.2 a early last (List.mem_singleton_self last)
        · rw [List.mem_singleton.mp late]
      exact absurd (of_decide_eq_true older) above.not_gt
    rw [List.eq_nil_iff_forall_not_mem.mpr nothing, List.append_nil]
    exact newestFirst_perm key rows

variable (key) in
/-- Rows of one key are on the page together, or together left for the next. -/
def Unbroken (rows : List α) (limit : Nat) : Prop :=
  ∀ a ∈ rows, rows.countP (fun b => key a < key b) < limit → rows.countP (fun b => key a ≤ key b) ≤ limit

theorem unbroken_of_nodup (distinct : (rows.map key).Nodup) (limit : Nat) :
    Unbroken key rows limit := by
  intro a mem few
  have once : rows.countP (fun b => key b = key a) ≤ 1 := by
    have count := List.nodup_iff_count_le_one.mp distinct (key a)
    rw [List.count, List.countP_map] at count
    refine le_trans (List.countP_mono_left fun b _ same => ?_) count
    exact beq_iff_eq.mpr (of_decide_eq_true same)
  have split : rows.countP (fun b => key a ≤ key b) ≤
      rows.countP (fun b => key a < key b) + rows.countP (fun b => key b = key a) := by
    rw [List.countP_eq_countP_filter_add rows _ fun b => decide (key a < key b)]
    refine Nat.add_le_add ?_ ?_
    · rw [List.countP_eq_length_filter (l := rows)]
      exact List.countP_le_length
    · rw [List.countP_filter]
      refine List.countP_mono_left fun b _ both => ?_
      simp only [Bool.and_eq_true, decide_eq_true_eq, Bool.not_eq_true', decide_eq_false_iff_not, not_lt] at both
      exact decide_eq_true (both.2.antisymm both.1)
  omega

variable (key) in
def older (rows : List α) (limit : Nat) (cursor : Option κ) : List α :=
  (newestFirst key (rows.filter (isBefore key cursor))).drop limit

variable (key) in
theorem page_append_left (rows : List α) (limit : Nat) (cursor : Option κ) :
    (page key rows limit cursor ++ older key rows limit cursor).Perm (rows.filter (isBefore key cursor)) := by
  rw [page, older, List.take_append_drop]
  exact newestFirst_perm key _

theorem older_le {b : α} (shown : a ∈ page key rows limit cursor)
    (left : b ∈ older key rows limit cursor) : key b ≤ key a := by
  have sorted := newestFirst_sorted key (rows.filter (isBefore key cursor))
  rw [← List.take_append_drop limit (newestFirst key _), List.pairwise_append] at sorted
  exact sorted.2.2 a shown b left

theorem older_lt
    (unbroken : Unbroken key (rows.filter (isBefore key cursor)) limit) {b : α}
    (shown : a ∈ page key rows limit cursor) (left : b ∈ older key rows limit cursor) : key b < key a := by
  refine lt_of_le_of_ne (older_le shown left) fun same => ?_
  have perm := page_append_left key rows limit cursor
  have mem : a ∈ rows.filter (isBefore key cursor) := perm.mem_iff.mp (List.mem_append_left _ shown)
  have full : (page key rows limit cursor).length = limit := by
    have some_left := List.length_pos_of_mem left
    rw [older, List.length_drop] at some_left
    rw [page, List.length_take]
    omega
  -- the newer ones are all on the page, without `a`; the page and `b` are too many
  have newer : (rows.filter (isBefore key cursor)).countP (fun c => key a < key c) < limit := by
    have none_left : (older key rows limit cursor).countP (fun c => key a < key c) = 0 :=
      List.countP_eq_zero.mpr fun c left' => by simpa using older_le shown left'
    have within : (page key rows limit cursor).countP (fun c => key a < key c) < (page key rows limit cursor).length :=
      List.countP_lt_length_iff.mpr ⟨a, shown, decide_eq_false (lt_irrefl _)⟩
    rw [← perm.countP_eq, List.countP_append, none_left]
    omega
  have atLeast := unbroken a mem newer
  have all : (page key rows limit cursor).countP (fun c => key a ≤ key c) = limit := by
    refine (List.countP_eq_length.mpr fun c shown' => ?_).trans full
    exact decide_eq_true (same ▸ older_le shown' left)
  have one : 0 < (older key rows limit cursor).countP (fun c => key a ≤ key c) :=
    List.countP_pos_iff.mpr ⟨b, left, decide_eq_true same.ge⟩
  rw [← perm.countP_eq, List.countP_append, all] at atLeast
  omega

theorem older_eq_nil
    (enough : (rows.filter (isBefore key cursor)).length ≤ limit) : older key rows limit cursor = [] := by
  rw [older, List.drop_eq_nil_iff, (newestFirst_perm key _).length_eq]
  exact enough

theorem length_page (rows : List α) (limit : Nat) (cursor : Option κ) :
    (page key rows limit cursor).length = min limit (rows.filter (isBefore key cursor)).length := by
  rw [page, List.length_take, (newestFirst_perm key _).length_eq]

variable (key) in
theorem pages_one_descending (rows : List α) (fuel : Nat) (cursor : Option κ) :
    (pages key (page key rows 1) fuel cursor).Pairwise fun a b => key b < key a := by
  induction fuel generalizing cursor with
  | zero => exact List.Pairwise.nil
  | succ fuel ih =>
    rw [pages]
    split
    case h_1 => exact List.Pairwise.nil
    case h_2 last found =>
      have single : page key rows 1 cursor = [last] := by
        have short : (page key rows 1 cursor).length ≤ 1 := List.length_take_le 1 _
        obtain ⟨front, ends⟩ := List.getLast?_eq_some_iff.mp found
        rw [ends, List.length_append, List.length_singleton] at short
        rw [ends, List.length_eq_zero_iff.mp (by omega : front.length = 0), List.nil_append]
      rw [single]
      refine List.pairwise_cons.mpr ⟨fun a mem => ?_, ih _⟩
      exact of_decide_eq_true (mem_pages mem).2

theorem distinct_of_pages_one {rows : List α} {fuel : Nat}
    (all : (pages key (page key rows 1) fuel none).length = rows.length) : (rows.map key).Nodup := by
  have descending := pages_one_descending key rows fuel none
  have apart : ((pages key (page key rows 1) fuel none).map key).Nodup :=
    List.pairwise_map.mpr (descending.imp fun below => below.ne')
  have inside : pages key (page key rows 1) fuel none ⊆ rows := fun a mem => (mem_pages mem).1
  have same := (List.subperm_of_subset (apart.of_map key) inside).perm_of_length_le all.ge
  exact (same.map key).nodup_iff.mp apart

end Echo.Lib.Paging
