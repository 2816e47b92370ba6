import Echo.Lib.Keyed
import Mathlib.Data.List.Basic

/-! Counting in fixed windows: a window starts with a call that is in none, lasts for `width`,
    and lets through the first
`max` of its calls. -/
namespace Echo.Lib.FixedWindow

structure Tally where
  count : Nat
  start : Nat

def tick (width max : Nat) (tally : Option Tally) (now : Nat) : Bool × Option Tally :=
  match tally with
  | none => (decide (1 ≤ max), some ⟨1, now⟩)
  | some t =>
    if now - t.start < width then (decide (t.count + 1 ≤ max), some ⟨t.count + 1, t.start⟩)
    else (decide (1 ≤ max), some ⟨1, now⟩)

/-- The calls left of the window that started at `start`, and the windows after it. -/
def windowsFrom (width start : Nat) : List Nat → List Nat × List (List Nat)
  | [] => ([], [])
  | now :: times =>
    if now - start < width then
      let (own, later) := windowsFrom width start times
      (now :: own, later)
    else
      let (own, later) := windowsFrom width now times
      ([], (now :: own) :: later)

def windows (width : Nat) : List Nat → List (List Nat)
  | [] => []
  | now :: times =>
    let (own, later) := windowsFrom width now times
    (now :: own) :: later

/-- The answers to `n` calls of a window after `k` others. -/
def grants (max k n : Nat) : List Bool := (List.range' (k + 1) n).map fun i => decide (i ≤ max)

section Grants
variable {max k n : Nat}

theorem grants_succ : grants max k (n + 1) = decide (k + 1 ≤ max) :: grants max (k + 1) n := by
  rw [grants, List.range'_succ, List.map_cons, grants]

theorem grants_few (few : k + n ≤ max) : ∀ granted ∈ grants max k n, granted = true := by
  intro granted inside
  obtain ⟨i, place, rfl⟩ := List.mem_map.mp inside
  have bound := (List.mem_range'_1.mp place).2
  exact decide_eq_true (by omega)

theorem grants_count_le (max k n : Nat) : (grants max k n).count true ≤ max - k := by
  induction n generalizing k with
  | zero => exact Nat.zero_le _
  | succ n ih =>
    have rest := ih (k + 1)
    rw [grants_succ]
    by_cases room : k + 1 ≤ max
    · rw [decide_eq_true room, List.count_cons_self]
      omega
    · rw [decide_eq_false room, List.count_cons_of_ne Bool.false_ne_true]
      omega

end Grants

section Windows
variable {width max start now : Nat} {times : List Nat}

theorem windowsFrom_inside (inside : now - start < width) : windowsFrom width start (now :: times) =
    (now :: (windowsFrom width start times).1, (windowsFrom width start times).2) := by
  rw [windowsFrom, if_pos inside]

theorem windowsFrom_outside (outside : ¬ now - start < width) : windowsFrom width start (now :: times) =
    ([], windows width (now :: times)) := by
  rw [windowsFrom, if_neg outside]
  rfl

theorem windows_cons : windows width (now :: times) =
    (now :: (windowsFrom width now times).1) :: (windowsFrom width now times).2 := rfl

theorem windowsFrom_flatten (width start : Nat) (times : List Nat) :
    (windowsFrom width start times).1 ++ (windowsFrom width start times).2.flatten = times := by
  induction times generalizing start with
  | nil => rfl
  | cons now times ih =>
    by_cases inside : now - start < width
    · rw [windowsFrom_inside inside, List.cons_append, ih]
    · rw [windowsFrom_outside inside, windows_cons, List.nil_append, List.flatten_cons, List.cons_append, ih]

theorem windows_flatten (width : Nat) (times : List Nat) : (windows width times).flatten = times := by
  cases times with
  | nil => rfl
  | cons now times => rw [windows_cons, List.flatten_cons, List.cons_append, windowsFrom_flatten]

theorem tick_inside {t : Tally} (inside : now - t.start < width) :
    tick width max (some t) now = (decide (t.count + 1 ≤ max), some ⟨t.count + 1, t.start⟩) := if_pos inside

theorem tick_outside {t : Tally} (outside : ¬ now - t.start < width) :
    tick width max (some t) now = (decide (1 ≤ max), some ⟨1, now⟩) := if_neg outside

theorem tick_fresh : tick width max none now = (decide (1 ≤ max), some ⟨1, now⟩) := rfl

theorem answered_windowsFrom (width max : Nat) (t : Tally) (times : List Nat) :
    (answered (tick width max) (some t) times).1.map Prod.snd =
        grants max t.count (windowsFrom width t.start times).1.length ++
          (windowsFrom width t.start times).2.flatMap (fun window => grants max 0 window.length) ∧
      ∃ last, (answered (tick width max) (some t) times).2 = some last ∧
        (last.start = t.start ∧ (windowsFrom width t.start times).2 = [] ∨
          ∃ window, (windowsFrom width t.start times).2.getLast? = some window ∧ window.head? = some last.start) := by
  induction times generalizing t with
  | nil => exact ⟨rfl, t, rfl, .inl ⟨rfl, rfl⟩⟩
  | cons now times ih =>
    by_cases inside : now - t.start < width
    · obtain ⟨answers, last⟩ := ih ⟨t.count + 1, t.start⟩
      simp only [answered, tick_inside inside, windowsFrom_inside inside, List.map_cons, List.length_cons, grants_succ,
        answers, List.cons_append]
      exact ⟨trivial, last⟩
    · obtain ⟨answers, last, reached, place⟩ := ih ⟨1, now⟩
      rw [windowsFrom_outside inside, windows_cons]
      simp only [answered, tick_outside inside, List.map_cons, answers, List.length_nil, List.flatMap_cons,
        List.length_cons, grants_succ]
      refine ⟨rfl, last, reached, .inr ?_⟩
      rcases place with ⟨same, none'⟩ | ⟨window, final, head⟩
      · exact ⟨_, by rw [none', List.getLast?_singleton], by rw [same]; rfl⟩
      · obtain ⟨front, whole⟩ := List.getLast?_eq_some_iff.mp final
        exact ⟨window, by rw [whole, ← List.cons_append, List.getLast?_append]; rfl, head⟩

theorem answered_windows (width max : Nat) (times : List Nat) :
    (answered (tick width max) none times).1.map Prod.snd =
        (windows width times).flatMap (fun window => grants max 0 window.length) ∧
      ∀ last, (answered (tick width max) none times).2 = some last →
        ∃ window, (windows width times).getLast? = some window ∧ window.head? = some last.start := by
  cases times with
  | nil => exact ⟨rfl, fun last impossible => by cases impossible⟩
  | cons now times =>
    obtain ⟨answers, last, reached, place⟩ := answered_windowsFrom width max ⟨1, now⟩ times
    rw [windows_cons]
    simp only [answered, tick_fresh, List.map_cons, answers, List.flatMap_cons, List.length_cons, grants_succ]
    refine ⟨rfl, fun other found => ?_⟩
    obtain rfl := Option.some.inj (reached.symm.trans found)
    rcases place with ⟨same, none'⟩ | ⟨window, final, head⟩
    · exact ⟨_, by rw [none', List.getLast?_singleton], by rw [same]; rfl⟩
    · obtain ⟨front, whole⟩ := List.getLast?_eq_some_iff.mp final
      exact ⟨window, by rw [whole, ← List.cons_append, List.getLast?_append]; rfl, head⟩

end Windows

section Intervals
variable {width max now first last : Nat} {times : List Nat}

def allowedIn (first last : Nat) (answers : List (Nat × Bool)) : List (Nat × Bool) :=
  answers.filter fun answer => answer.2 = true ∧ first ≤ answer.1 ∧ answer.1 ≤ last

theorem allowedIn_cons (first last : Nat) (answer : Nat × Bool) (answers : List (Nat × Bool)) :
    allowedIn first last (answer :: answers) =
      if answer.2 = true ∧ first ≤ answer.1 ∧ answer.1 ≤ last then answer :: allowedIn first last answers
      else allowedIn first last answers := by
  simp only [allowedIn, List.filter_cons, decide_eq_true_eq]

theorem allowedIn_outside {answer : Nat × Bool} {answers : List (Nat × Bool)}
    (outside : ¬ (first ≤ answer.1 ∧ answer.1 ≤ last)) :
    allowedIn first last (answer :: answers) = allowedIn first last answers := by
  rw [allowedIn_cons, if_neg fun counted => outside counted.2]

theorem allowedIn_over (over' : ∀ now ∈ times, last < now) (tally : Option Tally) :
    allowedIn first last (answered (tick width max) tally times).1 = [] := by
  refine List.filter_eq_nil_iff.mpr fun answer inside => ?_
  have called : answer.1 ∈ times := by
    have told := List.mem_map_of_mem (f := Prod.fst) inside
    rwa [answered_calls] at told
  rw [decide_eq_true_eq]
  rintro ⟨-, -, early⟩
  exact absurd early (Nat.not_le.mpr (over' _ called))

theorem allowedIn_cons_le {k r : Nat} {answers : List (Nat × Bool)}
    (le : (allowedIn first last answers).length ≤ max - (k + 1) + r) :
    (allowedIn first last ((now, decide (k + 1 ≤ max)) :: answers)).length ≤ max - k + r := by
  rw [allowedIn_cons]
  split
  · next counted =>
    have granted := of_decide_eq_true counted.1
    rw [List.length_cons]
    omega
  · omega

theorem allowedIn_window (ordered : times.Pairwise (· ≤ ·)) (t : Tally) (started : ∀ now ∈ times, t.start ≤ now)
    (ends : last < t.start + width) :
    (allowedIn first last (answered (tick width max) (some t) times).1).length ≤ max - t.count := by
  induction times generalizing t with
  | nil => exact Nat.zero_le _
  | cons now times ih =>
    obtain ⟨least, ordered⟩ := List.pairwise_cons.mp ordered
    obtain ⟨here, started⟩ := List.forall_mem_cons.mp started
    by_cases early : now ≤ last
    · have inside : now - t.start < width := by omega
      simp only [answered, tick_inside inside]
      exact allowedIn_cons_le (r := 0) (ih ordered ⟨t.count + 1, t.start⟩ started ends)
    · have late : ∀ other ∈ now :: times, last < other := by
        intro other inside
        rcases List.mem_cons.mp inside with rfl | inside
        · exact Nat.not_le.mp early
        · exact Nat.lt_of_lt_of_le (Nat.not_le.mp early) (least other inside)
      rw [allowedIn_over late]
      exact Nat.zero_le _

theorem allowedIn_from (ordered : times.Pairwise (· ≤ ·)) (short : last < first + width)
    (after : ∀ now ∈ times, first ≤ now) (t : Tally) :
    (allowedIn first last (answered (tick width max) (some t) times).1).length ≤ max - t.count + max := by
  induction times generalizing t with
  | nil => exact Nat.zero_le _
  | cons now times ih =>
    obtain ⟨least, ordered⟩ := List.pairwise_cons.mp ordered
    obtain ⟨here, after⟩ := List.forall_mem_cons.mp after
    by_cases inside : now - t.start < width
    · simp only [answered, tick_inside inside]
      exact allowedIn_cons_le (ih ordered after ⟨t.count + 1, t.start⟩)
    · simp only [answered, tick_outside inside]
      have ends : last < now + width := Nat.lt_of_lt_of_le short (Nat.add_le_add_right here width)
      have own : (allowedIn first last (answered (tick width max) (some ⟨1, now⟩) times).1).length ≤ max - 1 :=
        allowedIn_window ordered ⟨1, now⟩ least ends
      exact Nat.le_trans (allowedIn_cons_le (k := 0) (r := 0) own) (by omega)

theorem allowedIn_le (ordered : times.Pairwise (· ≤ ·)) (short : last < first + width) (tally : Option Tally) :
    (allowedIn first last (answered (tick width max) tally times).1).length ≤ 2 * max := by
  induction times generalizing tally with
  | nil => exact Nat.zero_le _
  | cons now times ih =>
    obtain ⟨least, others⟩ := List.pairwise_cons.mp ordered
    by_cases before : first ≤ now
    · have after : ∀ other ∈ now :: times, first ≤ other :=
        List.forall_mem_cons.mpr ⟨before, fun other inside => Nat.le_trans before (least other inside)⟩
      cases tally with
      | none =>
        have rest : (allowedIn first last (answered (tick width max) (some ⟨1, now⟩) times).1).length ≤ max - 1 + max :=
          allowedIn_from others short (List.forall_mem_cons.mp after).2 ⟨1, now⟩
        simp only [answered, tick_fresh]
        exact Nat.le_trans (allowedIn_cons_le (k := 0) rest) (by omega)
      | some t =>
        have whole : (allowedIn first last (answered (tick width max) (some t) (now :: times)).1).length ≤
            max - t.count + max := allowedIn_from ordered short after t
        omega
    · simp only [answered]
      rw [allowedIn_outside fun counted => before counted.1]
      exact ih others _

end Intervals
end Echo.Lib.FixedWindow
