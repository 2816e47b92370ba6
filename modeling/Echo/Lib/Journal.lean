import Echo.Lib.Transaction

/-! What a transaction has asked and been told. The journal decides what the call may ask next
and when it may commit. -/
namespace Echo.Lib
variable {S : Schema}

structure Entry (S : Schema) where
  query : S.Query
  answer : S.Result query
  writes : List S.Write

abbrev Journal (S : Schema) := List (Entry S)

def Journal.writes (journal : Journal S) : List S.Write := journal.flatMap Entry.writes

@[simp] theorem Journal.writes_nil : Journal.writes ([] : Journal S) = [] := rfl

@[simp] theorem Journal.writes_append (journal more : Journal S) :
    Journal.writes (journal ++ more) = Journal.writes journal ++ Journal.writes more := List.flatMap_append

@[simp] theorem Journal.writes_cons (e : Entry S) (journal : Journal S) :
    Journal.writes (e :: journal) = e.writes ++ Journal.writes journal := List.flatMap_cons

theorem Journal.mem_writes {journal : Journal S} {w : S.Write} (inside : w ∈ journal.writes) :
    ∃ e ∈ journal, w ∈ e.writes := List.mem_flatMap.mp inside

theorem Journal.writes_mem {journal : Journal S} {e : Entry S} (inside : e ∈ journal) {w : S.Write}
    (written : w ∈ e.writes) : w ∈ journal.writes := List.mem_flatMap.mpr ⟨e, inside, written⟩

abbrev Stage (S : Schema) := Option (Nat × Journal S)

def Stage.writes (stage : Stage S) : Option (Nat × List S.Write) :=
  Option.map (fun p => (p.1, Journal.writes p.2)) stage

/-- What may be asked on its own, what within a transaction, and which transactions may be committed. -/
structure Manner (S : Schema) where
  Alone : S.Query → Prop
  Within : Journal S → S.Query → Prop
  Whole : Journal S → Prop

namespace Manner

def Permit (D : Manner S) (stage : Stage S) : Sql S → Prop
  | .start => stage = none
  | .run none q => D.Alone q
  | .run (some tx) q => ∃ journal, stage = some (tx, journal) ∧ D.Within journal q
  | .commit tx => ∃ journal, stage = some (tx, journal) ∧ D.Whole journal
  | .rollback tx => ∃ journal, stage = some (tx, journal)

end Manner

/-- Every entry of the journal was allowed, and some tables gave its answer. -/
inductive Manner.Kept (D : Manner S) : Journal S → Prop
  | nil : D.Kept []
  | snoc {journal : Journal S} {q : S.Query} {a : S.Result q} {more : List S.Write} {t : S.Tables} (kept : D.Kept journal)
    (fine : D.Within journal q) (ran : S.eval q t = .ok (a, more)) : D.Kept (journal ++ [⟨q, a, more⟩])

theorem Manner.Kept.entry {D : Manner S} {journal : Journal S} (kept : D.Kept journal) {e : Entry S}
    (inside : e ∈ journal) : (∃ before, D.Within before e.query) ∧ ∃ t, S.eval e.query t = .ok (e.answer, e.writes) := by
  induction kept with
  | nil => cases inside
  | snoc kept fine ran ih =>
    rcases List.mem_append.mp inside with old | new
    · exact ih old
    · rw [List.mem_singleton.mp new]
      exact ⟨⟨_, fine⟩, _, ran⟩

/-- What holds of each entry and of the tables as its transaction saw them. -/
def Journal.Stands (P : S.Tables → Entry S → Prop) (t : S.Tables) : Journal S → Prop
  | [] => True
  | e :: journal => P t e ∧ Journal.Stands P (Store.applyAll t e.writes) journal

theorem Journal.Stands.snoc {P : S.Tables → Entry S → Prop} {t : S.Tables} {journal : Journal S} {e : Entry S}
    (stands : journal.Stands P t) (last : P (Store.applyAll t journal.writes) e) :
    Journal.Stands P t (journal ++ [e]) := by
  induction journal generalizing t with
  | nil => exact ⟨last, trivial⟩
  | cons first journal ih =>
    rw [writes_cons, Store.applyAll_append] at last
    exact ⟨stands.1, ih stands.2 last⟩

theorem Journal.Stands.last {P : S.Tables → Entry S → Prop} {t : S.Tables} {journal : Journal S} {e : Entry S}
    (stands : (journal ++ [e]).Stands P t) : journal.Stands P t ∧ P (Store.applyAll t journal.writes) e := by
  induction journal generalizing t with
  | nil => exact ⟨trivial, stands.1⟩
  | cons first journal ih =>
    rw [writes_cons, Store.applyAll_append]
    obtain ⟨before, last⟩ := ih stands.2
    exact ⟨⟨stands.1, before⟩, last⟩

def Stage.Next (stage : Stage S) : (r : Sql S) → r.Answer → Stage S → Prop
  | .start, a, stage' => match a with
    | .ok (tx : Nat) => stage' = some (tx, [])
    | .error _ => stage' = stage
  | .run (some tx) q, a, stage' => match a with
    | .ok (a : S.Result q) => ∃ journal more t, stage = some (tx, journal) ∧ S.eval q t = .ok (a, more) ∧
        stage' = some (tx, journal ++ [⟨q, a, more⟩])
    | .error _ => stage' = stage
  | .run none _, _, stage' => stage' = stage
  | .commit _, _, stage' => stage' = none
  | .rollback _, _, stage' => stage' = none

inductive Turn (D : Manner S) (fault : Bool) (s : Store S) (stage : Stage S) : Sql S → Store S → Stage S → Prop
  | same (r : Sql S) (other : ∀ tx, r ≠ .commit tx) : Turn D fault s stage r s stage
  | opened (idle : stage = none) : Turn D fault s stage .start s.opened (some (s.next, []))
  | asked {tx : Nat} {q : S.Query} {journal : Journal S} {a : S.Result q} {more : List S.Write}
    (mine : stage = some (tx, journal)) (fine : D.Within journal q)
    (ran : S.eval q (Store.applyAll s.tables journal.writes) = .ok (a, more)) (free : s.isFree (some tx) more = true) :
    Turn D fault s stage (.run (some tx) q) (s.record (some tx) more) (some (tx, journal ++ [⟨q, a, more⟩]))
  | alone {q : S.Query} {a : S.Result q} {more : List S.Write} (fine : D.Alone q)
    (ran : S.eval q s.tables = .ok (a, more)) (free : s.isFree none more = true) :
    Turn D fault s stage (.run none q) (s.record none more) stage
  | committed {tx : Nat} {journal : Journal S} (mine : stage = some (tx, journal)) (whole : D.Whole journal)
    (through : fault = false) : Turn D fault s stage (.commit tx) (s.committed tx) none
  | dropped {tx : Nat} {journal : Journal S} (r : Sql S) (mine : stage = some (tx, journal))
    (failed : ∀ tx, r = .commit tx → fault = true) : Turn D fault s stage r (s.discard tx) none

/-- Every call has the transaction of its stage to itself, no other is open, and no two have written
the same row. The journals are in the manner. -/
structure Store.Tracked (D : Manner S) (stages : Nat → Stage S) (s : Store S) : Prop where
  held : Store.Held (fun i => (stages i).writes) s
  kept : ∀ {i tx journal}, stages i = some (tx, journal) → D.Kept journal
  apart : ∀ {i j}, i ≠ j → Store.Apart (s.writes i) (s.writes j)
  unbegun : ∀ {i}, s.next ≤ i → s.writes i = []

namespace Store.Tracked
variable {stages : Nat → Stage S} {s s' : Store S} {who : Nat} {D : Manner S} {fault : Bool}

theorem writes (tracked : s.Tracked D stages) {i tx : Nat} {journal : Journal S}
    (mine : stages i = some (tx, journal)) : tx < s.next ∧ s.writes tx = journal.writes :=
  tracked.held.writes (i := i) (by simp only [mine]; rfl)

theorem alone (tracked : s.Tracked D stages) {i j tx : Nat} {journal journal' : Journal S}
    (mine : stages i = some (tx, journal)) (theirs : stages j = some (tx, journal')) : i = j :=
  have held : (stages i).writes = some (tx, journal.writes) := by simp only [mine]; rfl
  have held' : (stages j).writes = some (tx, journal'.writes) := by simp only [theirs]; rfl
  tracked.held.alone held held'

theorem turn (tracked : s.Tracked D stages) {r : Sql S} {a : r.Answer} (permit : D.Permit (stages who) r)
    (performed : s.perform fault r = some (a, s')) :
    ∃ stage, (stages who).Next r a stage ∧ Turn D fault s (stages who) r s' stage := by
  cases r with
  | start =>
    rcases perform_start performed with ⟨_, rfl, rfl⟩ | ⟨_, rfl, rfl⟩
    · exact ⟨_, rfl, .same _ nofun⟩
    · exact ⟨_, rfl, .opened permit⟩
  | run tx q =>
    rcases perform_run performed with ⟨_, rfl, rfl⟩ | ⟨e, _, _, rfl, rfl⟩ | ⟨b, more, _, ran, free, rfl, rfl⟩
    · cases tx <;> exact ⟨_, rfl, .same _ nofun⟩
    · cases tx <;> exact ⟨_, rfl, .same _ nofun⟩
    · cases tx with
      | none => exact ⟨_, rfl, .alone permit ran free⟩
      | some tx =>
        obtain ⟨journal, mine, fine⟩ := permit
        have view : s.view (some tx) = applyAll s.tables journal.writes := by
          rw [← (tracked.writes mine).2]
          rfl
        rw [view] at ran
        exact ⟨_, ⟨journal, more, _, mine, ran, rfl⟩, .asked mine fine ran free⟩
  | commit tx =>
    obtain ⟨journal, mine, whole⟩ := permit
    rcases perform_commit performed with ⟨failed, rfl, rfl⟩ | ⟨through, rfl, rfl⟩
    · exact ⟨_, rfl, .dropped _ mine fun _ _ => failed⟩
    · exact ⟨_, rfl, .committed mine whole through⟩
  | rollback tx =>
    obtain ⟨journal, mine⟩ := permit
    obtain ⟨-, rfl⟩ := Prod.mk.inj (Option.some.inj performed)
    exact ⟨_, rfl, .dropped _ mine nofun⟩

theorem update (stages : Nat → Stage S) (who : Nat) (stage : Stage S) :
    (fun i => (Function.update stages who stage i).writes) =
      Function.update (fun i => (stages i).writes) who stage.writes := by
  funext i
  simp only [Function.update_apply]
  split <;> rfl

theorem holds (tracked : s.Tracked D stages) : s.Holds (fun _ => True) fun _ _ => True :=
  ⟨trivial, fun _ => trivial, tracked.apart, tracked.unbegun⟩

theorem lasting : Lasting (S := S) (fun _ => True) fun _ _ => True := ⟨fun _ => trivial, fun _ _ => trivial,
  fun _ _ _ _ => trivial⟩

theorem step (tracked : s.Tracked D stages) {r : Sql S} {stage : Stage S}
    (turned : Turn D fault s (stages who) r s' stage) : s'.Tracked D (Function.update stages who stage) := by
  have mine' : ∀ {tx journal}, stages who = some (tx, journal) → (stages who).writes = some (tx, journal.writes) := by
    intro tx journal mine
    rw [mine]
    rfl
  have kept' : ∀ {i tx journal}, Function.update stages who stage i = some (tx, journal) → D.Kept journal := by
    intro i tx journal theirs
    simp only [Function.update_apply] at theirs
    split at theirs
    · cases turned with
      | same | alone => exact tracked.kept theirs
      | opened idle =>
        obtain ⟨-, rfl⟩ := Prod.mk.inj (Option.some.inj theirs)
        exact .nil
      | asked mine fine ran free =>
        obtain ⟨-, rfl⟩ := Prod.mk.inj (Option.some.inj theirs)
        exact (tracked.kept mine).snoc fine ran
      | committed | dropped => cases theirs
    · exact tracked.kept theirs
  suffices both : Held (fun i => (Function.update stages who stage i).writes) s' ∧
      s'.Holds (fun _ => True) fun _ _ => True from ⟨both.1, kept', both.2.apart, both.2.unbegun⟩
  rw [update]
  cases turned with
  | same r other =>
    refine ⟨?_, tracked.holds⟩
    rw [Function.update_eq_self]
    exact tracked.held
  | opened idle =>
    refine ⟨tracked.held.start (by rw [idle]; rfl) (tracked.unbegun (Nat.le_refl _)), tracked.holds.opened⟩
  | @asked tx q journal a more mine fine ran free =>
    refine ⟨?_, tracked.holds.record lasting free (fun i here => ?_) trivial⟩
    · have kept := tracked.held.record (mine' mine) more
      simpa [Stage.writes] using kept
    · rw [← Option.some.inj here]
      exact (tracked.writes mine).1
  | alone fine ran free =>
    refine ⟨?_, tracked.holds.record lasting free nofun trivial⟩
    rw [Function.update_eq_self]
    exact tracked.held.tables _
  | committed mine whole through => exact ⟨tracked.held.committed (mine' mine), tracked.holds.committed lasting _⟩
  | dropped r mine failed => exact ⟨tracked.held.discard (mine' mine), tracked.holds.discard lasting _⟩

theorem tables (tracked : s.Tracked D stages) (tables : S.Tables) : Tracked D stages { s with tables } :=
  ⟨tracked.held.tables tables, tracked.kept, tracked.apart, tracked.unbegun⟩

theorem restart (tracked : s.Tracked D stages) : s.restart.Tracked D fun _ => none :=
  ⟨Held.restart s, nofun, (tracked.holds.restart lasting).apart, fun _ => rfl⟩

theorem start (idle : s.writes = fun _ => []) : s.Tracked D fun _ => none := by
  refine ⟨⟨nofun, nofun, fun {tx} some' => (some' (congrFun idle tx)).elim⟩, nofun, fun {i j} _ w inside => ?_,
    fun {i} _ => ?_⟩
  · rw [idle] at inside
    cases inside
  · exact congrFun idle i

end Store.Tracked
end Echo.Lib
