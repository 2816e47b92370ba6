import Mathlib.Logic.Function.Basic
import Mathlib.Data.List.Basic

/-! Tables with transactions at READ COMMITTED. A query sees what has been committed and what
its own transaction has written so far. Writes of a transaction are kept aside until it is
committed, and until then another transaction that needs the same row waits. -/
namespace Echo.Lib

structure Schema where
  Tables : Type
  Write : Type
  /-- What a write does to the tables as they are when it is committed. -/
  apply : Tables → Write → Tables
  Key : Type
  decKey : DecidableEq Key
  /-- The rows and index entries a write keeps to itself. -/
  keys : Write → List Key
  Query : Type
  Result : Query → Type
  Refusal : Type
  eval : (q : Query) → Tables → Except Refusal (Result q × List Write)

instance (S : Schema) : DecidableEq S.Key := S.decKey

/-- Transactions are numbered in the order they are begun; `writes` are those not committed yet. -/
structure Store (S : Schema) where
  tables : S.Tables
  writes : Nat → List S.Write
  next : Nat

inductive Sql (S : Schema) where
  | start
  /-- Within a transaction, or on its own. -/
  | run (tx : Option Nat) (q : S.Query)
  | commit (tx : Nat)
  | rollback (tx : Nat)

/-- An access that does not get through answers `none`. -/
def Sql.Answer {S : Schema} : Sql S → Type
  | start => Except (Option S.Refusal) Nat
  | run _ q => Except (Option S.Refusal) (S.Result q)
  | commit _ => Except (Option S.Refusal) Unit
  | rollback _ => Unit

namespace Store
variable {S : Schema}

def applyAll (tables : S.Tables) (writes : List S.Write) : S.Tables := writes.foldl S.apply tables

theorem applyAll_append (tables : S.Tables) (writes more : List S.Write) :
    applyAll tables (writes ++ more) = applyAll (applyAll tables writes) more := List.foldl_append

def view (s : Store S) : Option Nat → S.Tables
  | none => s.tables
  | some tx => applyAll s.tables (s.writes tx)

def isFree (s : Store S) (tx : Option Nat) (writes : List S.Write) : Bool :=
  (List.range s.next).all fun i => some i = tx ∨
    ∀ w ∈ writes, ∀ k ∈ S.keys w, ∀ v ∈ s.writes i, k ∉ S.keys v

def record (s : Store S) (tx : Option Nat) (writes : List S.Write) : Store S :=
  match tx with
  | none => { s with tables := applyAll s.tables writes }
  | some i => { s with writes := Function.update s.writes i (s.writes i ++ writes) }

def opened (s : Store S) : Store S :=
  { s with writes := Function.update s.writes s.next [], next := s.next + 1 }

def discard (s : Store S) (tx : Nat) : Store S := { s with writes := Function.update s.writes tx [] }

def committed (s : Store S) (tx : Nat) : Store S :=
  { s.discard tx with tables := applyAll s.tables (s.writes tx) }

def restart (s : Store S) : Store S := { s with writes := fun _ => [] }

def perform (s : Store S) (fault : Bool) : (r : Sql S) → Option (r.Answer × Store S)
  | .start => some (if fault then (.error none, s) else (.ok s.next, s.opened))
  | .run tx q =>
    if fault then some (.error none, s)
    else
      match S.eval q (s.view tx) with
      | .error e => some (.error (some e), s)
      | .ok (a, writes) => if s.isFree tx writes then some (.ok a, s.record tx writes) else none
  | .commit tx => some (if fault then (.error none, s.discard tx) else (.ok (), s.committed tx))
  | .rollback tx => some ((), s.discard tx)

variable {s s' : Store S} {fault : Bool} {tx : Option Nat} {writes : List S.Write}

theorem perform_start {a : Except (Option S.Refusal) Nat}
    (answered : s.perform fault .start = some (a, s')) :
    (fault = true ∧ a = .error none ∧ s' = s) ∨ (fault = false ∧ a = .ok s.next ∧ s' = s.opened) := by
  cases fault with
  | true =>
    obtain ⟨rfl, rfl⟩ := Prod.mk.inj (Option.some.inj answered)
    exact .inl ⟨rfl, rfl, rfl⟩
  | false =>
    obtain ⟨rfl, rfl⟩ := Prod.mk.inj (Option.some.inj answered)
    exact .inr ⟨rfl, rfl, rfl⟩

theorem perform_run {q : S.Query}
    {a : Except (Option S.Refusal) (S.Result q)} (answered : s.perform fault (.run tx q) = some (a, s')) :
    (fault = true ∧ a = .error none ∧ s' = s) ∨
      (∃ e, fault = false ∧ S.eval q (s.view tx) = .error e ∧ a = .error (some e) ∧ s' = s) ∨
      ∃ b writes, fault = false ∧ S.eval q (s.view tx) = .ok (b, writes) ∧ s.isFree tx writes = true ∧
        a = .ok b ∧ s' = s.record tx writes := by
  cases fault with
  | true =>
    obtain ⟨rfl, rfl⟩ := Prod.mk.inj (Option.some.inj answered)
    exact .inl ⟨rfl, rfl, rfl⟩
  | false =>
    simp only [perform, Bool.false_eq_true, if_false] at answered
    split at answered
    · rename_i e failed
      obtain ⟨rfl, rfl⟩ := Prod.mk.inj (Option.some.inj answered)
      exact .inr (.inl ⟨e, rfl, failed, rfl, rfl⟩)
    · rename_i b writes evaluated
      split at answered
      · rename_i free
        obtain ⟨rfl, rfl⟩ := Prod.mk.inj (Option.some.inj answered)
        exact .inr (.inr ⟨b, writes, rfl, evaluated, free, rfl, rfl⟩)
      · cases answered

theorem perform_run_ok {q : S.Query} {a : S.Result q}
    (ran : S.eval q (s.view tx) = .ok (a, writes)) (free : s.isFree tx writes = true) :
    s.perform false (.run tx q) = some (.ok a, s.record tx writes) := by
  simp only [perform, Bool.false_eq_true, if_false, ran, free, if_true]

theorem perform_commit {tx : Nat} {a : Except (Option S.Refusal) Unit}
    (answered : s.perform fault (.commit tx) = some (a, s')) :
    (fault = true ∧ a = .error none ∧ s' = s.discard tx) ∨
      (fault = false ∧ a = .ok () ∧ s' = s.committed tx) := by
  cases fault with
  | true =>
    obtain ⟨rfl, rfl⟩ := Prod.mk.inj (Option.some.inj answered)
    exact .inl ⟨rfl, rfl, rfl⟩
  | false =>
    obtain ⟨rfl, rfl⟩ := Prod.mk.inj (Option.some.inj answered)
    exact .inr ⟨rfl, rfl, rfl⟩

def Apart (writes other : List S.Write) : Prop := ∀ w ∈ writes, ∀ k ∈ S.keys w, ∀ v ∈ other, k ∉ S.keys v

theorem Apart.symm {other : List S.Write} (apart : Apart writes other) : Apart other writes :=
  fun w inside k held v there both => apart v there k both w inside held

theorem Apart.append {more other : List S.Write} (first : Apart writes other) (second : Apart more other) :
    Apart (writes ++ more) other := by
  intro w inside
  rcases List.mem_append.mp inside with inside | inside
  · exact first w inside
  · exact second w inside

theorem isFree_apart (free : s.isFree tx writes = true)
    {i : Nat} (begun : i < s.next) (other : some i ≠ tx) : Apart writes (s.writes i) := by
  have each := List.all_eq_true.mp free i (List.mem_range.mpr begun)
  rcases of_decide_eq_true each with same | apart
  · exact (other same).elim
  · exact apart

/-- `I` holds of the committed tables, and `J` of them and the writes of each open transaction. -/
structure Holds (I : S.Tables → Prop) (J : S.Tables → List S.Write → Prop) (s : Store S) : Prop where
  tables : I s.tables
  pending : ∀ i, J s.tables (s.writes i)
  apart : ∀ {i j}, i ≠ j → Apart (s.writes i) (s.writes j)
  unbegun : ∀ {i}, s.next ≤ i → s.writes i = []

/-- What makes `Holds` last: committing keeps it for the tables and for the other transactions. -/
structure Lasting (I : S.Tables → Prop) (J : S.Tables → List S.Write → Prop) : Prop where
  empty : ∀ {t}, I t → J t []
  lands : ∀ {t writes}, I t → J t writes → I (applyAll t writes)
  beside : ∀ {t writes other}, I t → J t writes → J t other → Apart writes other → J (applyAll t other) writes

variable {I : S.Tables → Prop} {J : S.Tables → List S.Write → Prop}

theorem Holds.update (holds : s.Holds I J) {i : Nat}
    (fine : J s.tables writes) (begun : i < s.next)
    (apart : ∀ j, j ≠ i → Apart writes (s.writes j)) :
    Holds I J { s with writes := Function.update s.writes i writes } := by
  refine ⟨holds.tables, fun j => ?_, fun {j k} different => ?_, fun {j} beyond => ?_⟩
  · by_cases same : j = i
    · subst same
      simpa using fine
    · simpa [same] using holds.pending j
  · simp only [Function.update_apply]
    split
    · rename_i here
      subst here
      rw [if_neg (Ne.symm different)]
      exact apart k (Ne.symm different)
    · split
      · exact (apart j ‹_›).symm
      · exact holds.apart different
  · simp only [Function.update_apply]
    rw [if_neg (by simp only at beyond; omega)]
    exact holds.unbegun beyond

theorem Holds.opened (holds : s.Holds I J) : s.opened.Holds I J := by
  have empty : Function.update s.writes s.next [] = s.writes := by
    rw [Function.update_eq_self_iff]
    exact (holds.unbegun (Nat.le_refl _)).symm
  simp only [Store.opened, empty]
  exact ⟨holds.tables, holds.pending, holds.apart, fun beyond => holds.unbegun (Nat.le_of_succ_le beyond)⟩

theorem Holds.discard (lasting : Lasting I J) (holds : s.Holds I J) (tx : Nat) :
    (s.discard tx).Holds I J := by
  by_cases begun : tx < s.next
  · exact holds.update (lasting.empty holds.tables) begun fun j _ w inside => by simp at inside
  · have empty : Function.update s.writes tx [] = s.writes := by
      rw [Function.update_eq_self_iff]
      exact (holds.unbegun (Nat.le_of_not_lt begun)).symm
    simp only [Store.discard, empty]
    exact holds

theorem Holds.landed (lasting : Lasting I J) (holds : s.Holds I J)
    (fine : J s.tables writes) (apart : ∀ j, Apart (s.writes j) writes) :
    Holds I J { s with tables := applyAll s.tables writes } :=
  ⟨lasting.lands holds.tables fine, fun j => lasting.beside holds.tables (holds.pending j) fine (apart j),
    holds.apart, holds.unbegun⟩

theorem Holds.committed (lasting : Lasting I J) {s : Store S} (holds : s.Holds I J) (tx : Nat) :
    (s.committed tx).Holds I J := by
  refine (holds.discard lasting tx).landed lasting (holds.pending tx) fun j => ?_
  simp only [Store.discard, Function.update_apply]
  split
  · intro w inside
    simp at inside
  · exact holds.apart ‹_›

theorem Holds.record (lasting : Lasting I J) (holds : s.Holds I J)
    (free : s.isFree tx writes = true) (begun : ∀ i, tx = some i → i < s.next)
    (fine : J s.tables (((tx.map s.writes).getD []) ++ writes)) : (s.record tx writes).Holds I J := by
  have clear : ∀ j, some j ≠ tx → Apart writes (s.writes j) := by
    intro j other
    by_cases inside : j < s.next
    · exact isFree_apart free inside other
    · rw [holds.unbegun (Nat.le_of_not_lt inside)]
      intro w _ k _ v nothing
      simp at nothing
  cases tx with
  | none => exact holds.landed lasting fine fun j => (clear j nofun).symm
  | some i =>
    refine holds.update fine (begun i rfl) fun j different => ?_
    exact (holds.apart (Ne.symm different)).append (clear j fun same => different (Option.some.inj same))

theorem Holds.restart (lasting : Lasting I J) (holds : s.Holds I J) : s.restart.Holds I J :=
  ⟨holds.tables, fun _ => lasting.empty holds.tables, fun _ w inside => by simp [Store.restart] at inside,
    fun _ => rfl⟩

section Held

/-- Each call has the transaction it is said to have, to itself, and no other is open. -/
structure Held (open' : Nat → Option (Nat × List S.Write)) (s : Store S) : Prop where
  writes : ∀ {i tx writes}, open' i = some (tx, writes) → tx < s.next ∧ s.writes tx = writes
  alone : ∀ {i j tx l l'}, open' i = some (tx, l) → open' j = some (tx, l') → i = j
  owned : ∀ {tx}, s.writes tx ≠ [] → ∃ i, open' i = some (tx, s.writes tx)

variable {open' : Nat → Option (Nat × List S.Write)} {who : Nat} {s : Store S}

variable {tx : Nat} {l : List S.Write}

theorem Held.idle (held : Held open' s) (beyond : s.next ≤ tx) (i : Nat) (l : List S.Write) :
    open' i ≠ some (tx, l) :=
  fun mine => Nat.not_le_of_lt (held.writes mine).1 beyond

theorem Held.tables (held : Held open' s) (tables : S.Tables) : Held open' { s with tables } :=
  ⟨held.writes, held.alone, held.owned⟩

theorem Held.update (held : Held open' s) {l' : List S.Write} (mine : open' who = some (tx, l))
    (tables : S.Tables) :
    Held (Function.update open' who (some (tx, l')))
      { s with tables, writes := Function.update s.writes tx l' } := by
  have other : ∀ {i tx' k}, i ≠ who → open' i = some (tx', k) → tx' ≠ tx := by
    rintro i tx' k different theirs rfl
    exact different (held.alone theirs mine)
  refine ⟨fun {i tx' k} theirs => ?_, fun {i j tx' k k'} first second => ?_, fun {tx'} some' => ?_⟩
  · by_cases same : i = who
    · subst same
      rw [Function.update_self] at theirs
      obtain ⟨rfl, rfl⟩ := Prod.mk.inj (Option.some.inj theirs)
      exact ⟨(held.writes mine).1, Function.update_self ..⟩
    · rw [Function.update_of_ne same] at theirs
      refine ⟨(held.writes theirs).1, ?_⟩
      simpa [other same theirs] using (held.writes theirs).2
  · by_cases one : i = who
    · by_cases two : j = who
      · exact one.trans two.symm
      · subst one
        rw [Function.update_self] at first
        rw [Function.update_of_ne two] at second
        obtain ⟨rfl, -⟩ := Prod.mk.inj (Option.some.inj first)
        exact (other two second rfl).elim
    · by_cases two : j = who
      · subst two
        rw [Function.update_of_ne one] at first
        rw [Function.update_self] at second
        obtain ⟨rfl, -⟩ := Prod.mk.inj (Option.some.inj second)
        exact (other one first rfl).elim
      · rw [Function.update_of_ne one] at first
        rw [Function.update_of_ne two] at second
        exact held.alone first second
  · by_cases here : tx' = tx
    · subst here
      exact ⟨who, by simp⟩
    · simp only [Function.update_of_ne here] at some' ⊢
      obtain ⟨i, theirs⟩ := held.owned some'
      refine ⟨i, ?_⟩
      rw [Function.update_of_ne, theirs]
      rintro rfl
      rw [mine] at theirs
      exact here (Prod.mk.inj (Option.some.inj theirs)).1.symm

theorem Held.close (held : Held open' s) (mine : open' who = some (tx, l))
    (tables : S.Tables) :
    Held (Function.update open' who none) { s with tables, writes := Function.update s.writes tx [] } := by
  have kept : Held (Function.update open' who (some (tx, []))) _ := held.update mine tables
  refine ⟨fun {i tx' k} theirs => ?_, fun {i j tx' k k'} first second => ?_, fun {tx'} some' => ?_⟩
  · by_cases same : i = who
    · subst same
      simp at theirs
    · rw [Function.update_of_ne same] at theirs
      exact kept.writes (i := i) (by rwa [Function.update_of_ne same])
  · by_cases one : i = who
    · subst one
      simp at first
    · by_cases two : j = who
      · subst two
        simp at second
      · rw [Function.update_of_ne one] at first
        rw [Function.update_of_ne two] at second
        exact held.alone first second
  · obtain ⟨i, theirs⟩ := kept.owned some'
    by_cases same : i = who
    · subst same
      rw [Function.update_self] at theirs
      exact (some' (Prod.mk.inj (Option.some.inj theirs)).2.symm).elim
    · rw [Function.update_of_ne same] at theirs
      exact ⟨i, by rwa [Function.update_of_ne same]⟩

theorem Held.start (held : Held open' s) (idle : open' who = none) (empty : s.writes s.next = []) :
    Held (Function.update open' who (some (s.next, []))) s.opened := by
  have same : Function.update s.writes s.next [] = s.writes := by
    rw [Function.update_eq_self_iff]
    exact empty.symm
  simp only [Store.opened, same]
  refine ⟨fun {i tx k} theirs => ?_, fun {i j tx k k'} first second => ?_, fun {tx} some' => ?_⟩
  · by_cases same : i = who
    · subst same
      rw [Function.update_self] at theirs
      obtain ⟨rfl, rfl⟩ := Prod.mk.inj (Option.some.inj theirs)
      exact ⟨Nat.lt_succ_self _, empty⟩
    · rw [Function.update_of_ne same] at theirs
      exact ⟨Nat.lt_succ_of_lt (held.writes theirs).1, (held.writes theirs).2⟩
  · by_cases one : i = who
    · by_cases two : j = who
      · exact one.trans two.symm
      · subst one
        rw [Function.update_self] at first
        rw [Function.update_of_ne two] at second
        obtain ⟨rfl, -⟩ := Prod.mk.inj (Option.some.inj first)
        exact (held.idle (Nat.le_refl _) _ _ second).elim
    · by_cases two : j = who
      · subst two
        rw [Function.update_of_ne one] at first
        rw [Function.update_self] at second
        obtain ⟨rfl, -⟩ := Prod.mk.inj (Option.some.inj second)
        exact (held.idle (Nat.le_refl _) _ _ first).elim
      · rw [Function.update_of_ne one] at first
        rw [Function.update_of_ne two] at second
        exact held.alone first second
  · obtain ⟨i, theirs⟩ := held.owned some'
    refine ⟨i, ?_⟩
    rwa [Function.update_of_ne]
    rintro rfl
    rw [idle] at theirs
    cases theirs

theorem Held.opened (held : Held open' s) (empty : s.writes s.next = []) : Held open' s.opened := by
  have same : Function.update s.writes s.next [] = s.writes := by
    rw [Function.update_eq_self_iff]
    exact empty.symm
  simp only [Store.opened, same]
  exact ⟨fun theirs => ⟨Nat.lt_succ_of_lt (held.writes theirs).1, (held.writes theirs).2⟩, held.alone, held.owned⟩

theorem Held.restart (s : Store S) : Held (fun _ => none) s.restart :=
  ⟨nofun, nofun, fun some' => (some' rfl).elim⟩

theorem Held.discard (held : Held open' s) (mine : open' who = some (tx, l)) :
    Held (Function.update open' who none) (s.discard tx) := held.close mine s.tables

theorem Held.committed (held : Held open' s) {tx : Nat} {l : List S.Write} (mine : open' who = some (tx, l)) :
    Held (Function.update open' who none) (s.committed tx) := held.close mine _

theorem Held.record (held : Held open' s) (mine : open' who = some (tx, l))
    (more : List S.Write) : Held (Function.update open' who (some (tx, l ++ more))) (s.record (some tx) more) := by
  obtain ⟨-, same⟩ := held.writes mine
  simp only [Store.record, same]
  exact held.update mine s.tables

end Held

end Store
end Echo.Lib
