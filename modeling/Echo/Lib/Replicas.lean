import Mathlib.Data.Set.Basic
import Mathlib.Data.Set.Insert
import Mathlib.Logic.Function.Basic
import Mathlib.Tactic.Tauto

/-! Replicas of a set that reach one another through a store: items are added, and are taken away only by a note that
empties everything, after which its sender adds again what is to stay. -/
namespace Echo.Lib

variable {U κ : Type*}

structure Note (U κ : Type*) where
  sender : U
  item : Option κ

def Note.apply (note : Note U κ) (held : Set κ) : Set κ :=
  match note.item with
  | some k => insert k held
  | none => ∅

def outcome (notes : List (Note U κ)) (held : Set κ) : Set κ := notes.foldl (fun held note => note.apply held) held

def Clears (notes : List (Note U κ)) : Prop := ∃ note ∈ notes, note.item = none

def Adds (k : κ) (notes : List (Note U κ)) : Prop := ∃ note ∈ notes, note.item = some k

/-- The sender empties everything, and the item is not added after that. -/
def Wiped (sender : U) (k : κ) (notes : List (Note U κ)) : Prop :=
  ∃ before after, notes = before ++ ⟨sender, none⟩ :: after ∧ ¬ Adds k after

section Notes
variable {notes more : List (Note U κ)} {note : Note U κ} {k j : κ} {held held' : Set κ} {u : U} {stay : List κ}

@[simp] theorem outcome_cons : outcome (note :: notes) held = outcome notes (note.apply held) := rfl

theorem outcome_append : outcome (notes ++ more) held = outcome more (outcome notes held) := List.foldl_append

theorem Clears.append : Clears (notes ++ more) ↔ Clears notes ∨ Clears more := by
  simp only [Clears, List.mem_append, or_and_right, exists_or]

theorem Adds.append : Adds k (notes ++ more) ↔ Adds k notes ∨ Adds k more := by
  simp only [Adds, List.mem_append, or_and_right, exists_or]

theorem Clears.cons : Clears (note :: notes) ↔ note.item = none ∨ Clears notes := by
  simp [Clears]

theorem Adds.cons : Adds k (note :: notes) ↔ note.item = some k ∨ Adds k notes := by
  simp [Adds]

theorem not_clears_nil : ¬ Clears ([] : List (Note U κ)) := fun ⟨_, mem, _⟩ => absurd mem List.not_mem_nil

theorem not_adds_nil : ¬ Adds k ([] : List (Note U κ)) := fun ⟨_, mem, _⟩ => absurd mem List.not_mem_nil

theorem apply_of_some (adds : note.item = some j) : note.apply held = insert j held := by
  rw [Note.apply, adds]

theorem apply_of_none (clears : note.item = none) : note.apply held = ∅ := by
  rw [Note.apply, clears]

theorem mem_outcome_iff : k ∈ outcome notes held ↔ k ∈ outcome notes ∅ ∨ ¬ Clears notes ∧ k ∈ held := by
  induction notes generalizing held with
  | nil => simp [outcome, not_clears_nil]
  | cons note notes ih =>
    rw [outcome_cons, outcome_cons, @ih (note.apply held), @ih (note.apply ∅), Clears.cons]
    cases item : note.item with
    | none =>
      rw [apply_of_none item, apply_of_none item]
      simp
    | some j =>
      rw [apply_of_some item, apply_of_some item]
      simp only [Set.mem_insert_iff, reduceCtorEq, false_or, Set.mem_empty_iff_false, or_false]
      tauto

theorem outcome_mono (less : held ⊆ held') : outcome notes held ⊆ outcome notes held' := by
  intro k mem
  exact mem_outcome_iff.mpr ((mem_outcome_iff.mp mem).imp_right fun both => ⟨both.1, less both.2⟩)

theorem mem_outcome_of_clears (clears : Clears notes) : k ∈ outcome notes held ↔ k ∈ outcome notes ∅ := by
  rw [mem_outcome_iff]
  exact or_iff_left fun both => both.1 clears

theorem mem_outcome_of_not_clears (keeps : ¬ Clears notes) : k ∈ outcome notes held ↔ k ∈ held ∨ Adds k notes := by
  induction notes generalizing held with
  | nil => simp [outcome, not_adds_nil]
  | cons note notes ih =>
    rw [Clears.cons, not_or] at keeps
    obtain ⟨j, item⟩ := Option.ne_none_iff_exists'.mp keeps.1
    rw [outcome_cons, ih keeps.2, apply_of_some item, Adds.cons, item, Set.mem_insert_iff, Option.some.injEq,
      @eq_comm _ j]
    tauto

theorem Wiped.append (wiped : Wiped u k notes) (silent : ¬ Adds k more) : Wiped u k (notes ++ more) := by
  obtain ⟨before, after, rfl, none⟩ := wiped
  refine ⟨before, after ++ more, by simp, ?_⟩
  rw [Adds.append, not_or]
  exact ⟨none, silent⟩

theorem Wiped.tail (wiped : Wiped u k (note :: notes)) :
    Wiped u k notes ∨ note = ⟨u, none⟩ ∧ ¬ Adds k notes := by
  obtain ⟨before, after, whole, none⟩ := wiped
  cases before with
  | nil =>
    cases whole
    exact .inr ⟨rfl, none⟩
  | cons first before =>
    cases whole
    exact .inl ⟨before, after, rfl, none⟩

theorem Wiped.clears (wiped : Wiped u k notes) : ∃ note ∈ notes, note.sender = u := by
  obtain ⟨before, after, rfl, -⟩ := wiped
  exact ⟨_, List.mem_append_right before List.mem_cons_self, rfl⟩

theorem adds_stay : Adds k (⟨u, none⟩ :: stay.map fun k => (⟨u, some k⟩ : Note U κ)) ↔ k ∈ stay := by
  simp [Adds]

theorem outcome_stay (notes : List (Note U κ)) :
    k ∈ outcome (notes ++ ⟨u, none⟩ :: stay.map fun k => ⟨u, some k⟩) ∅ ↔ k ∈ stay := by
  have keeps : ¬ Clears (stay.map fun k => (⟨u, some k⟩ : Note U κ)) := by simp [Clears]
  rw [outcome_append, outcome_cons, apply_of_none rfl, mem_outcome_of_not_clears keeps]
  simp [Adds]

end Notes
/-- The store, what each participant holds, what he has not heard yet and what the store has not taken from him yet.
Beside it what was ever made, by whom, what its author has taken away, what was there and stayed when that happened
last, and who did it. -/
structure Replicas (U κ : Type*) where
  store : Set κ := ∅
  held : U → Set κ := fun _ => ∅
  inbox : U → List (Note U κ) := fun _ => []
  outbox : U → List (Note U κ) := fun _ => []
  made : Set κ := ∅
  author : κ → Option U := fun _ => none
  gone : Set κ := ∅
  kept : Set κ := ∅
  last : Option U := none

namespace Replicas
variable (r : Replicas U κ)

def live : Set κ := { k | k ∈ r.made ∧ k ∉ r.gone }

section Steps
variable [DecidableEq U]

def add [DecidableEq κ] (u : U) (k : κ) : Replicas U κ :=
  { r with
    held := Function.update r.held u (insert k (r.held u))
    outbox := Function.update r.outbox u (r.outbox u ++ [⟨u, some k⟩])
    made := insert k r.made
    author := Function.update r.author k (some u) }

/-- A participant takes his own items away: everything is emptied, and what is to stay is added again. -/
def sweep (u : U) (stay : List κ) : Replicas U κ :=
  { r with
    held := Function.update r.held u { k | k ∈ stay }
    outbox := Function.update r.outbox u (r.outbox u ++ ⟨u, none⟩ :: stay.map fun k => ⟨u, some k⟩)
    gone := r.gone ∪ { k | k ∈ r.made ∧ r.author k = some u }
    kept := { k | k ∈ r.live ∧ r.author k ≠ some u }
    last := some u }

def take (u : U) : Replicas U κ :=
  match r.outbox u with
  | [] => r
  | note :: rest =>
    { r with
      store := note.apply r.store
      outbox := Function.update r.outbox u rest
      inbox := fun x => if x = u then r.inbox x else r.inbox x ++ [note] }

def hear (u : U) : Replicas U κ :=
  match r.inbox u with
  | [] => r
  | note :: rest =>
    { r with
      held := Function.update r.held u (note.apply (r.held u))
      inbox := Function.update r.inbox u rest }

end Steps

structure Vanishing (k : κ) (a : U) : Prop where
  others : ∀ y, y ≠ a → ¬ Adds k (r.outbox y)
  store : Wiped a k (r.outbox a) ∨ k ∉ r.store ∧ ¬ Adds k (r.outbox a)
  held : ∀ x, Clears (r.outbox a) ∨ Wiped a k (r.inbox x) ∨ k ∉ r.held x ∧ ¬ Adds k (r.inbox x)
  own : k ∉ r.held a ∧ ¬ Adds k (r.inbox a)

/-- What is live is with everyone or on its way there, and who empties everything adds it again. -/
structure Lasting (k : κ) : Prop where
  store : k ∈ r.store ∨ ∃ y, k ∈ outcome (r.outbox y) ∅
  held : ∀ x, k ∈ outcome (r.inbox x) (r.held x) ∨ ∃ y, y ≠ x ∧ k ∈ outcome (r.outbox y) ∅
  again : ∀ y, Clears (r.outbox y) → k ∈ outcome (r.outbox y) ∅

structure Returning (k : κ) (l : U) : Prop where
  others : ∀ y, y ≠ l → ¬ Clears (r.outbox y)
  own : k ∈ r.held l ∧ ¬ Clears (r.inbox l)
  store : Clears (r.outbox l) ∨ k ∈ r.store ∨ Adds k (r.outbox l)
  held : ∀ x, x ≠ l → Clears (r.outbox l) ∨
    (∃ before after, r.inbox x = before ++ ⟨l, none⟩ :: after ∧ ¬ Clears after ∧
      (⟨l, some k⟩ ∈ after ∨ Adds k (r.outbox l))) ∨
    ¬ Clears (r.inbox x) ∧ (k ∈ r.held x ∨ ⟨l, some k⟩ ∈ r.inbox x ∨ Adds k (r.outbox l))

structure Coherent : Prop where
  senders : ∀ u, ∀ note ∈ r.outbox u, note.sender = u
  made : ∀ k ∈ r.gone, k ∈ r.made
  live : ∀ k ∈ r.kept, k ∈ r.live
  vanishing : ∀ k ∈ r.gone, ∀ a, r.author k = some a → r.Vanishing k a
  lasting : ∀ k ∈ r.live, r.Lasting k
  returning : ∀ k ∈ r.kept, ∀ l, r.last = some l → r.Returning k l

variable {r} {u x y a l : U} {k j : κ} {stay : List κ}

theorem Coherent.complete (coherent : r.Coherent) (heard : r.inbox u = []) (taken : ∀ y, y ≠ u → r.outbox y = [])
    (live : k ∈ r.live) : k ∈ r.held u := by
  rcases (coherent.lasting k live).held u with mem | ⟨y, other, mem⟩
  · rwa [heard] at mem
  · rw [taken y other] at mem
    exact absurd mem (Set.notMem_empty k)

section Add
variable [DecidableEq U] [DecidableEq κ]

@[simp] theorem outbox_add_self : (r.add u k).outbox u = r.outbox u ++ [⟨u, some k⟩] := Function.update_self _ _ _

theorem outbox_add_of_ne (other : y ≠ u) : (r.add u k).outbox y = r.outbox y := Function.update_of_ne other _ _

@[simp] theorem held_add_self : (r.add u k).held u = insert k (r.held u) := Function.update_self _ _ _

theorem held_add_of_ne (other : x ≠ u) : (r.add u k).held x = r.held x := Function.update_of_ne other _ _

theorem clears_outbox_add : Clears ((r.add u k).outbox y) ↔ Clears (r.outbox y) := by
  by_cases here : y = u
  · rw [here, outbox_add_self, Clears.append, Clears.cons]
    simp [not_clears_nil]
  · rw [outbox_add_of_ne here]

theorem adds_outbox_add (adds : Adds j (r.outbox y)) : Adds j ((r.add u k).outbox y) := by
  by_cases here : y = u
  · rw [here, outbox_add_self, Adds.append]
    exact .inl (here ▸ adds)
  · rwa [outbox_add_of_ne here]

theorem adds_of_outbox_add (other : j ≠ k) (adds : Adds j ((r.add u k).outbox y)) : Adds j (r.outbox y) := by
  by_cases here : y = u
  · rw [here, outbox_add_self, Adds.append, Adds.cons] at adds
    simp only [Option.some.injEq, other.symm, not_adds_nil, or_self, or_false] at adds
    exact here ▸ adds
  · rwa [outbox_add_of_ne here] at adds

theorem held_add_subset : r.held x ⊆ (r.add u k).held x := by
  by_cases here : x = u
  · rw [here, held_add_self]
    exact Set.subset_insert _ _
  · rw [held_add_of_ne here]

theorem outcome_outbox_add (mem : j ∈ outcome (r.outbox y) ∅) : j ∈ outcome ((r.add u k).outbox y) ∅ := by
  by_cases here : y = u
  · rw [here, outbox_add_self, outcome_append]
    exact Set.mem_insert_of_mem _ (here ▸ mem)
  · rwa [outbox_add_of_ne here]

theorem Vanishing.add (vanishing : r.Vanishing j a) (other : j ≠ k) : (r.add u k).Vanishing j a where
  others y apart adds := vanishing.others y apart (adds_of_outbox_add other adds)
  store := by
    refine vanishing.store.imp (fun wiped => ?_) fun both =>
      ⟨both.1, fun adds => both.2 (adds_of_outbox_add other adds)⟩
    by_cases here : a = u
    · rw [here, outbox_add_self]
      refine (here ▸ wiped).append fun adds => ?_
      rw [Adds.cons] at adds
      simp [other.symm, not_adds_nil] at adds
    · rwa [outbox_add_of_ne here]
  held x := by
    rw [clears_outbox_add]
    refine (vanishing.held x).imp_right fun later => later.imp_right fun both => ⟨fun mem => both.1 ?_, both.2⟩
    by_cases here : x = u
    · rw [here, held_add_self] at mem
      exact here ▸ Set.mem_of_mem_insert_of_ne mem other
    · rwa [held_add_of_ne here] at mem
  own := by
    refine ⟨fun mem => vanishing.own.1 ?_, vanishing.own.2⟩
    by_cases here : a = u
    · rw [here, held_add_self] at mem
      exact here ▸ Set.mem_of_mem_insert_of_ne mem other
    · rwa [held_add_of_ne here] at mem

theorem Lasting.add (lasting : r.Lasting j) : (r.add u k).Lasting j where
  store := by
    refine lasting.store.imp_right ?_
    rintro ⟨y, mem⟩
    exact ⟨y, outcome_outbox_add mem⟩
  held x := by
    refine (lasting.held x).imp (fun mem => outcome_mono held_add_subset mem) ?_
    rintro ⟨y, other, mem⟩
    exact ⟨y, other, outcome_outbox_add mem⟩
  again y clears := outcome_outbox_add (lasting.again y (clears_outbox_add.mp clears))

theorem Lasting.added (heard : ¬ Clears (r.inbox u)) (taken : ∀ y, y ≠ u → ¬ Clears (r.outbox y)) :
    (r.add u k).Lasting k where
  store := by
    refine .inr ⟨u, ?_⟩
    rw [outbox_add_self, outcome_append]
    exact Set.mem_insert _ _
  held x := by
    by_cases here : x = u
    · left
      rw [here, held_add_self]
      exact mem_outcome_iff.mpr (.inr ⟨heard, Set.mem_insert _ _⟩)
    · right
      refine ⟨u, Ne.symm here, ?_⟩
      rw [outbox_add_self, outcome_append]
      exact Set.mem_insert _ _
  again y clears := by
    by_cases here : y = u
    · rw [here, outbox_add_self, outcome_append]
      exact Set.mem_insert _ _
    · exact absurd (clears_outbox_add.mp clears) (taken y here)

theorem Returning.add (returning : r.Returning j l) : (r.add u k).Returning j l where
  others y apart clears := returning.others y apart (clears_outbox_add.mp clears)
  own := ⟨held_add_subset returning.own.1, returning.own.2⟩
  store := returning.store.imp clears_outbox_add.mpr (Or.imp_right adds_outbox_add)
  held x other := by
    rcases returning.held x other with clears | ⟨before, after, split, silent, comes⟩ | ⟨silent, comes⟩
    · exact .inl (clears_outbox_add.mpr clears)
    · exact .inr (.inl ⟨before, after, split, silent, comes.imp_right adds_outbox_add⟩)
    · refine .inr (.inr ⟨silent, ?_⟩)
      exact comes.imp (fun mem => held_add_subset mem) (Or.imp_right adds_outbox_add)

theorem Coherent.add (coherent : r.Coherent) (fresh : k ∉ r.made) (heard : ¬ Clears (r.inbox u))
    (taken : ∀ y, y ≠ u → ¬ Clears (r.outbox y)) : (r.add u k).Coherent := by
  have known : ∀ {j : κ}, j ∈ r.made → j ≠ k := by
    rintro j made rfl
    exact fresh made
  constructor
  · intro y note mem
    by_cases here : y = u
    · subst here
      rw [outbox_add_self, List.mem_append, List.mem_singleton] at mem
      rcases mem with old | rfl
      · exact coherent.senders y note old
      · rfl
    · rw [outbox_add_of_ne here] at mem
      exact coherent.senders y note mem
  · exact fun j gone => Set.mem_insert_of_mem k (coherent.made j gone)
  · intro j kept
    obtain ⟨made, stays⟩ := coherent.live j kept
    exact ⟨Set.mem_insert_of_mem k made, stays⟩
  · intro j gone a author
    have other := known (coherent.made j gone)
    have same : (r.add u k).author j = r.author j := Function.update_of_ne other _ _
    exact (coherent.vanishing j gone a (same.symm.trans author)).add other
  · rintro j ⟨made, stays⟩
    by_cases here : j = k
    · rw [here]
      exact Lasting.added heard taken
    · exact (coherent.lasting j ⟨Set.mem_of_mem_insert_of_ne made here, stays⟩).add
  · exact fun j kept l last => (coherent.returning j kept l last).add

end Add
section Sweep
variable [DecidableEq U]

@[simp] theorem outbox_sweep_self :
    (r.sweep u stay).outbox u = r.outbox u ++ ⟨u, none⟩ :: stay.map fun k => ⟨u, some k⟩ := Function.update_self _ _ _

theorem outbox_sweep_of_ne (other : y ≠ u) : (r.sweep u stay).outbox y = r.outbox y := Function.update_of_ne other _ _

@[simp] theorem held_sweep_self : (r.sweep u stay).held u = { k | k ∈ stay } := Function.update_self _ _ _

theorem held_sweep_of_ne (other : x ≠ u) : (r.sweep u stay).held x = r.held x := Function.update_of_ne other _ _

theorem clears_sweep : Clears ((r.sweep u stay).outbox u) := by
  rw [outbox_sweep_self]
  exact ⟨_, List.mem_append_right _ List.mem_cons_self, rfl⟩

theorem Vanishing.swept (vanishing : r.Vanishing k a) (heard : r.inbox u = []) (taken : ∀ y, y ≠ u → r.outbox y = [])
    (apart : a ≠ u) (held : ∀ k ∈ stay, k ∈ r.held u) : (r.sweep u stay).Vanishing k a := by
  have absent : k ∉ r.held u := by
    rcases vanishing.held u with clears | wiped | ⟨absent, -⟩
    · rw [taken a apart] at clears
      exact absurd clears not_clears_nil
    · rw [heard] at wiped
      obtain ⟨before, after, whole, -⟩ := wiped
      cases before <;> cases whole
    · exact absent
  have dropped : k ∉ stay := fun mem => absent (held k mem)
  refine ⟨fun y other adds => ?_, ?_, fun x => ?_, ?_⟩
  · by_cases here : y = u
    · subst here
      rw [outbox_sweep_self, Adds.append, adds_stay] at adds
      exact adds.elim (vanishing.others y other) dropped
    · rw [outbox_sweep_of_ne here] at adds
      exact vanishing.others y other adds
  · rw [outbox_sweep_of_ne apart]
    exact vanishing.store
  · rw [outbox_sweep_of_ne apart]
    by_cases here : x = u
    · subst here
      rw [held_sweep_self]
      refine .inr (.inr ⟨dropped, ?_⟩)
      change ¬ Adds k (r.inbox x)
      rw [heard]
      exact not_adds_nil
    · rw [held_sweep_of_ne here]
      exact vanishing.held x
  · rw [held_sweep_of_ne apart]
    exact vanishing.own

theorem Vanishing.of_sweep (heard : r.inbox u = []) (taken : ∀ y, y ≠ u → r.outbox y = []) (dropped : k ∉ stay) :
    (r.sweep u stay).Vanishing k u := by
  have quiet : ¬ Adds k ((r.sweep u stay).inbox u) := by
    change ¬ Adds k (r.inbox u)
    rw [heard]
    exact not_adds_nil
  refine ⟨fun y other adds => ?_, .inl ?_, fun x => .inl clears_sweep, ?_, quiet⟩
  · rw [outbox_sweep_of_ne other, taken y other] at adds
    exact not_adds_nil adds
  · refine ⟨r.outbox u, stay.map fun k => ⟨u, some k⟩, outbox_sweep_self, fun adds => dropped ?_⟩
    refine adds_stay.mp (?_ : Adds k (⟨u, none⟩ :: stay.map fun k => (⟨u, some k⟩ : Note U κ)))
    exact Adds.cons.mpr (.inr adds)
  · rw [held_sweep_self]
    exact dropped

theorem Lasting.swept (heard : r.inbox u = []) (taken : ∀ y, y ≠ u → r.outbox y = []) (stays : k ∈ stay) :
    (r.sweep u stay).Lasting k := by
  have again : k ∈ outcome ((r.sweep u stay).outbox u) ∅ := by
    rw [outbox_sweep_self]
    exact (outcome_stay _).mpr stays
  refine ⟨.inr ⟨u, again⟩, fun x => ?_, fun y clears => ?_⟩
  · by_cases here : x = u
    · left
      subst here
      rw [held_sweep_self]
      change k ∈ outcome (r.inbox x) _
      rw [heard]
      exact stays
    · exact .inr ⟨u, Ne.symm here, again⟩
  · by_cases here : y = u
    · exact here ▸ again
    · rw [outbox_sweep_of_ne here, taken y here] at clears
      exact absurd clears not_clears_nil

theorem Coherent.sweep (coherent : r.Coherent) (heard : r.inbox u = []) (taken : ∀ y, y ≠ u → r.outbox y = [])
    (exact' : ∀ k, k ∈ stay ↔ k ∈ r.held u ∧ r.author k ≠ some u) : (r.sweep u stay).Coherent := by
  have stays : ∀ k ∈ r.live, r.author k ≠ some u → k ∈ stay := fun k live other =>
    (exact' k).mpr ⟨coherent.complete heard taken live, other⟩
  constructor
  · intro y note mem
    by_cases here : y = u
    · subst here
      rw [outbox_sweep_self, List.mem_append, List.mem_cons, List.mem_map] at mem
      rcases mem with old | rfl | ⟨k, -, rfl⟩
      · exact coherent.senders y note old
      · rfl
      · rfl
    · rw [outbox_sweep_of_ne here] at mem
      exact coherent.senders y note mem
  · rintro k (gone | own)
    · exact coherent.made k gone
    · exact own.1
  · rintro k ⟨live, other⟩
    exact ⟨live.1, fun gone => gone.elim live.2 fun own => other own.2⟩
  · intro k gone a author
    have author : r.author k = some a := author
    by_cases here : a = u
    · subst here
      exact .of_sweep heard taken fun mem => ((exact' k).mp mem).2 author
    · have old : k ∈ r.gone := gone.resolve_right fun own => here (Option.some.inj (author.symm.trans own.2))
      exact (coherent.vanishing k old a author).swept heard taken here fun j mem => ((exact' j).mp mem).1
  · rintro k ⟨made, present⟩
    have live : k ∈ r.live := ⟨made, fun gone => present (.inl gone)⟩
    exact .swept heard taken (stays k live fun own => present (.inr ⟨made, own⟩))
  · rintro k ⟨live, other⟩ l last
    obtain rfl : u = l := Option.some.inj last
    refine ⟨fun y apart => ?_, ⟨?_, ?_⟩, .inl clears_sweep, fun _ _ => .inl clears_sweep⟩
    · rw [outbox_sweep_of_ne apart, taken y apart]
      exact not_clears_nil
    · rw [held_sweep_self]
      exact stays k live other
    · change ¬ Clears (r.inbox u)
      rw [heard]
      exact not_clears_nil

end Sweep

section Take
variable [DecidableEq U] {note : Note U κ} {rest : List (Note U κ)}

structure Taken (r s : Replicas U κ) (u : U) (note : Note U κ) (rest : List (Note U κ)) : Prop where
  before : r.outbox u = note :: rest
  store : s.store = note.apply r.store
  held : s.held = r.held
  after : s.outbox u = rest
  others : ∀ y, y ≠ u → s.outbox y = r.outbox y
  own : s.inbox u = r.inbox u
  relayed : ∀ x, x ≠ u → s.inbox x = r.inbox x ++ [note]
  made : s.made = r.made
  author : s.author = r.author
  gone : s.gone = r.gone
  kept : s.kept = r.kept
  last : s.last = r.last

theorem take_of_cons (queue : r.outbox u = note :: rest) :
    r.take u =
      { r with
        store := note.apply r.store
        outbox := Function.update r.outbox u rest
        inbox := fun x => if x = u then r.inbox x else r.inbox x ++ [note] } := by
  rw [Replicas.take, queue]

theorem take_cases (r : Replicas U κ) (u : U) :
    r.take u = r ∨ ∃ note rest, Taken r (r.take u) u note rest := by
  unfold take
  split
  · exact .inl rfl
  · next note rest queue =>
    refine .inr ⟨note, rest, queue, rfl, rfl, Function.update_self _ _ _, fun y other =>
        Function.update_of_ne other _ _,
      if_pos rfl, fun x other => if_neg other, rfl, rfl, rfl, rfl, rfl⟩

variable {s : Replicas U κ}

theorem Taken.adds (taken : Taken r s u note rest) (adds : Adds k (s.outbox y)) : Adds k (r.outbox y) := by
  by_cases here : y = u
  · subst here
    rw [taken.after] at adds
    rw [taken.before]
    exact Adds.cons.mpr (.inr adds)
  · rwa [taken.others y here] at adds

theorem Taken.clears (taken : Taken r s u note rest) (clears : Clears (s.outbox y)) : Clears (r.outbox y) := by
  by_cases here : y = u
  · subst here
    rw [taken.after] at clears
    rw [taken.before]
    exact Clears.cons.mpr (.inr clears)
  · rwa [taken.others y here] at clears

theorem Vanishing.taken (vanishing : r.Vanishing k a) (taken : Taken r s u note rest)
    (sender : note.sender = u) : s.Vanishing k a := by
  -- the note that is taken brings the item only where a note that empties everything follows from its author
  have silent : note.item = some k → u = a ∧ Wiped a k rest := by
    intro brings
    have adds : Adds k (r.outbox u) := by
      rw [taken.before]
      exact Adds.cons.mpr (.inl brings)
    have here : u = a := by
      by_contra apart
      exact vanishing.others u apart adds
    subst here
    refine ⟨rfl, ?_⟩
    rcases vanishing.store with wiped | ⟨-, none⟩
    · rw [taken.before] at wiped
      refine wiped.tail.resolve_right fun first => ?_
      rw [first.1] at brings
      cases brings
    · exact absurd adds none
  refine ⟨fun y other adds => vanishing.others y other (taken.adds adds), ?_, fun x => ?_, ?_⟩
  · by_cases here : u = a
    · subst here
      rw [taken.after, taken.store]
      rcases vanishing.store with wiped | ⟨absent, none⟩
      · rw [taken.before] at wiped
        rcases wiped.tail with later | ⟨first, none⟩
        · exact .inl later
        · refine .inr ⟨?_, none⟩
          rw [first]
          exact Set.notMem_empty k
      · rw [taken.before, Adds.cons, not_or] at none
        refine .inr ⟨fun mem => absent ?_, none.2⟩
        cases item : note.item with
        | none =>
          rw [apply_of_none item] at mem
          exact absurd mem (Set.notMem_empty k)
        | some j =>
          rw [apply_of_some item] at mem
          exact Set.mem_of_mem_insert_of_ne mem fun same => none.1 (same ▸ item)
    · rw [taken.others a (Ne.symm here), taken.store]
      refine vanishing.store.imp_right fun both => ⟨fun mem => both.1 ?_, both.2⟩
      cases item : note.item with
      | none =>
        rw [apply_of_none item] at mem
        exact absurd mem (Set.notMem_empty k)
      | some j =>
        rw [apply_of_some item] at mem
        exact Set.mem_of_mem_insert_of_ne mem fun same => here (silent (same ▸ item)).1
  · by_cases own : x = u
    · subst own
      rw [taken.own, taken.held]
      rcases vanishing.held x with clears | later
      · by_cases here : x = a
        · subst here
          exact .inr (.inr vanishing.own)
        · rw [taken.others a (Ne.symm here)]
          exact .inl clears
      · exact .inr later
    · rw [taken.relayed x own, taken.held]
      by_cases here : u = a
      · subst here
        rw [taken.after]
        by_cases more : Clears rest
        · exact .inl more
        · right
          have quiet : note.item ≠ some k := fun brings => more (by
            obtain ⟨before, after, split, -⟩ := (silent brings).2
            rw [split]
            exact ⟨_, List.mem_append_right before List.mem_cons_self, rfl⟩)
          cases item : note.item with
          | none =>
            refine .inl ⟨r.inbox x, [], ?_, not_adds_nil⟩
            rw [← sender, ← item]
          | some j =>
            have last : ¬ Adds k [note] := fun adds => by
              rw [Adds.cons] at adds
              exact adds.elim quiet not_adds_nil
            rcases vanishing.held x with clears | wiped | ⟨absent, none⟩
            · rw [taken.before, Clears.cons, item] at clears
              exact absurd (clears.resolve_left (Option.some_ne_none j)) more
            · exact .inl (wiped.append last)
            · exact .inr ⟨absent, fun adds => (Adds.append.mp adds).elim none last⟩
      · rw [taken.others a (Ne.symm here)]
        have last : ¬ Adds k [note] := fun adds => by
          rw [Adds.cons] at adds
          exact adds.elim (fun brings => here (silent brings).1) not_adds_nil
        refine (vanishing.held x).imp_right fun later => later.imp (fun wiped => wiped.append last) fun both => ?_
        exact ⟨both.1, fun adds => (Adds.append.mp adds).elim both.2 last⟩
  · rw [taken.held]
    refine ⟨vanishing.own.1, ?_⟩
    by_cases here : a = u
    · rw [here, taken.own]
      exact here ▸ vanishing.own.2
    · rw [taken.relayed a here]
      intro adds
      rcases Adds.append.mp adds with old | new
      · exact vanishing.own.2 old
      · rw [Adds.cons] at new
        exact new.elim (fun brings => here (silent brings).1.symm) not_adds_nil

theorem Lasting.taken (lasting : r.Lasting k) (taken : Taken r s u note rest) : s.Lasting k where
  store := by
    rw [taken.store]
    cases item : note.item with
    | none =>
      -- the sender adds it again
      have again := lasting.again u (by rw [taken.before]; exact Clears.cons.mpr (.inl item))
      rw [taken.before, outcome_cons, apply_of_none item] at again
      exact .inr ⟨u, taken.after.symm ▸ again⟩
    | some j =>
      rw [apply_of_some item]
      rcases lasting.store with mem | ⟨y, mem⟩
      · exact .inl (Set.mem_insert_of_mem j mem)
      · by_cases here : y = u
        · subst here
          rw [taken.before, outcome_cons, apply_of_some item, mem_outcome_iff] at mem
          rcases mem with mem | ⟨-, mem⟩
          · exact .inr ⟨y, taken.after.symm ▸ mem⟩
          · rw [Set.mem_insert_iff] at mem
            exact .inl (mem.resolve_right (Set.notMem_empty k) ▸ Set.mem_insert _ _)
        · exact .inr ⟨y, (taken.others y here).symm ▸ mem⟩
  held x := by
    rw [taken.held]
    by_cases own : x = u
    · subst own
      rw [taken.own]
      refine (lasting.held x).imp_right ?_
      rintro ⟨y, other, mem⟩
      refine ⟨y, other, ?_⟩
      rwa [taken.others y other]
    · rw [taken.relayed x own, outcome_append, outcome_cons]
      cases item : note.item with
      | none =>
        -- the sender adds it again
        right
        refine ⟨u, Ne.symm own, ?_⟩
        have again := lasting.again u (by rw [taken.before]; exact Clears.cons.mpr (.inl item))
        rw [taken.before, outcome_cons, apply_of_none item] at again
        rwa [taken.after]
      | some j =>
        rw [apply_of_some item]
        rcases lasting.held x with mem | ⟨y, other, mem⟩
        · exact .inl (Set.mem_insert_of_mem j mem)
        · by_cases from' : y = u
          · subst from'
            rw [taken.before, outcome_cons, apply_of_some item, mem_outcome_iff] at mem
            rcases mem with mem | ⟨-, mem⟩
            · refine .inr ⟨y, other, ?_⟩
              rwa [taken.after]
            · rw [Set.mem_insert_iff] at mem
              exact .inl (mem.resolve_right (Set.notMem_empty k) ▸ Set.mem_insert _ _)
          · refine .inr ⟨y, other, ?_⟩
            rwa [taken.others y from']
  again y clears := by
    have mem := lasting.again y (taken.clears clears)
    by_cases here : y = u
    · subst here
      rw [taken.after] at clears ⊢
      rw [taken.before, outcome_cons] at mem
      exact (mem_outcome_of_clears clears).mp mem
    · rwa [taken.others y here]

theorem Returning.taken (returning : r.Returning k l) (lasting : r.Lasting k) (taken : Taken r s u note rest)
    (sender : note.sender = u) : s.Returning k l := by
  -- the last note that empties everything has the item behind it
  have behind : u = l → note.item = none → ¬ Clears rest → Adds k rest := by
    rintro rfl item quiet
    have again := lasting.again u (by rw [taken.before]; exact Clears.cons.mpr (.inl item))
    rw [taken.before, outcome_cons, apply_of_none item, mem_outcome_of_not_clears quiet] at again
    exact again.resolve_left (Set.notMem_empty k)
  have adds : u ≠ l → ∃ j, note.item = some j := fun apart => by
    refine Option.ne_none_iff_exists'.mp fun item => returning.others u apart ?_
    rw [taken.before]
    exact Clears.cons.mpr (.inl item)
  refine ⟨fun y other clears => returning.others y other (taken.clears clears), ⟨?_, ?_⟩, ?_, fun x other => ?_⟩
  · rw [taken.held]
    exact returning.own.1
  · by_cases here : l = u
    · rw [here, taken.own]
      exact here ▸ returning.own.2
    · obtain ⟨j, item⟩ := adds (Ne.symm here)
      rw [taken.relayed l here, Clears.append, Clears.cons, item]
      rintro (old | new | none)
      · exact returning.own.2 old
      · cases new
      · exact not_clears_nil none
  · rw [taken.store]
    by_cases here : u = l
    · subst here
      rw [taken.after]
      by_cases more : Clears rest
      · exact .inl more
      · right
        cases item : note.item with
        | none => exact .inr (behind rfl item more)
        | some j =>
          rw [apply_of_some item]
          have store := returning.store
          rw [taken.before, Clears.cons, Adds.cons, item, Option.some.injEq] at store
          rcases store with (none | clears) | mem | (same | later)
          · cases none
          · exact absurd clears more
          · exact .inl (Set.mem_insert_of_mem j mem)
          · exact .inl (same ▸ Set.mem_insert _ _)
          · exact .inr later
    · obtain ⟨j, item⟩ := adds here
      rw [taken.others l (Ne.symm here), apply_of_some item]
      exact returning.store.imp_right (Or.imp_left fun mem => Set.mem_insert_of_mem j mem)
  · have held := returning.held x other
    rw [taken.held]
    by_cases here : u = l
    · subst here
      rw [taken.after, taken.relayed x other]
      rw [taken.before, Clears.cons, Adds.cons] at held
      by_cases more : Clears rest
      · exact .inl more
      · right
        cases item : note.item with
        | none =>
          refine .inl ⟨r.inbox x, [], ?_, not_clears_nil, .inr (behind rfl item more)⟩
          rw [← sender, ← item]
        | some j =>
          have quiet : ¬ Clears [note] := fun clears => by
            rw [Clears.cons, item] at clears
            exact clears.elim (Option.some_ne_none j) not_clears_nil
          have whole : note = ⟨u, some j⟩ := by rw [← sender, ← item]
          rw [item] at held
          have comes : ∀ {notes : List (Note U κ)}, (⟨u, some k⟩ ∈ notes ∨ some j = some k ∨ Adds k rest) →
              (⟨u, some k⟩ ∈ notes ++ [note] ∨ Adds k rest) := by
            rintro notes (mem | same | later)
            · exact .inl (List.mem_append_left _ mem)
            · refine .inl (List.mem_append_right _ (List.mem_singleton.mpr ?_))
              rw [whole, same]
            · exact .inr later
          rcases held with (none | clears) | ⟨before, after, split, silent, comes'⟩ | ⟨silent, comes'⟩
          · cases none
          · exact absurd clears more
          · refine .inl ⟨before, after ++ [note], by rw [split]; simp, ?_, comes comes'⟩
            exact fun clears => (Clears.append.mp clears).elim silent quiet
          · refine .inr ⟨fun clears => (Clears.append.mp clears).elim silent quiet, ?_⟩
            rcases comes' with mem | later
            · exact .inl mem
            · exact .inr (comes later)
    · rw [taken.others l (Ne.symm here)]
      by_cases own : x = u
      · rw [own, taken.own]
        exact own ▸ held
      · rw [taken.relayed x own]
        obtain ⟨j, item⟩ := adds here
        have quiet : ¬ Clears [note] := fun clears => by
          rw [Clears.cons, item] at clears
          exact clears.elim (Option.some_ne_none j) not_clears_nil
        refine held.imp_right (Or.imp ?_ ?_)
        · rintro ⟨before, after, split, silent, comes⟩
          refine ⟨before, after ++ [note], by rw [split]; simp, ?_, comes.imp_left (List.mem_append_left _)⟩
          exact fun clears => (Clears.append.mp clears).elim silent quiet
        · rintro ⟨silent, comes⟩
          refine ⟨fun clears => (Clears.append.mp clears).elim silent quiet, ?_⟩
          exact comes.imp_right (Or.imp_left (List.mem_append_left _))

theorem Coherent.take (coherent : r.Coherent) (u : U) : (r.take u).Coherent := by
  rcases take_cases r u with same | ⟨note, rest, taken⟩
  · rw [same]
    exact coherent
  have sender : note.sender = u := by
    refine coherent.senders u note ?_
    rw [taken.before]
    exact List.mem_cons_self
  have live : (r.take u).live = r.live := by
    unfold Replicas.live
    rw [taken.made, taken.gone]
  constructor
  · intro y note' mem
    by_cases here : y = u
    · subst here
      rw [taken.after] at mem
      refine coherent.senders y note' ?_
      rw [taken.before]
      exact List.mem_cons_of_mem note mem
    · rw [taken.others y here] at mem
      exact coherent.senders y note' mem
  · rw [taken.gone, taken.made]
    exact coherent.made
  · rw [taken.kept, live]
    exact coherent.live
  · rw [taken.gone, taken.author]
    exact fun k gone a author => (coherent.vanishing k gone a author).taken taken sender
  · rw [live]
    exact fun k there => (coherent.lasting k there).taken taken
  · rw [taken.kept, taken.last]
    exact fun k kept l last =>
      (coherent.returning k kept l last).taken (coherent.lasting k (coherent.live k kept)) taken sender

end Take

section Hear
variable [DecidableEq U] {note : Note U κ} {rest : List (Note U κ)} {s : Replicas U κ}

/-- The state after a participant heard the first note on its way to him. -/
structure Heard (r s : Replicas U κ) (u : U) (note : Note U κ) (rest : List (Note U κ)) : Prop where
  before : r.inbox u = note :: rest
  store : s.store = r.store
  held : s.held u = note.apply (r.held u)
  heldOthers : ∀ x, x ≠ u → s.held x = r.held x
  outbox : s.outbox = r.outbox
  after : s.inbox u = rest
  inboxOthers : ∀ x, x ≠ u → s.inbox x = r.inbox x
  made : s.made = r.made
  author : s.author = r.author
  gone : s.gone = r.gone
  kept : s.kept = r.kept
  last : s.last = r.last

theorem hear_of_cons (queue : r.inbox u = note :: rest) :
    r.hear u =
      { r with
        held := Function.update r.held u (note.apply (r.held u))
        inbox := Function.update r.inbox u rest } := by
  rw [Replicas.hear, queue]

theorem hear_cases (r : Replicas U κ) (u : U) :
    r.hear u = r ∨ ∃ note rest, Heard r (r.hear u) u note rest := by
  unfold hear
  split
  · exact .inl rfl
  · next note rest queue =>
    exact .inr ⟨note, rest, queue, rfl, Function.update_self _ _ _, fun x other => Function.update_of_ne other _ _, rfl,
      Function.update_self _ _ _, fun x other => Function.update_of_ne other _ _, rfl, rfl, rfl, rfl, rfl⟩

omit [DecidableEq U] in
theorem Heard.absent (heard : Heard r s u note rest) (absent : k ∉ r.held u) (silent : ¬ Adds k (r.inbox u)) :
    k ∉ s.held u ∧ ¬ Adds k (s.inbox u) := by
  rw [heard.before, Adds.cons, not_or] at silent
  rw [heard.held, heard.after]
  refine ⟨fun mem => absent ?_, silent.2⟩
  cases item : note.item with
  | none =>
    rw [apply_of_none item] at mem
    exact absurd mem (Set.notMem_empty k)
  | some j =>
    rw [apply_of_some item] at mem
    exact Set.mem_of_mem_insert_of_ne mem fun same => silent.1 (same ▸ item)

theorem Vanishing.heard (vanishing : r.Vanishing k a) (heard : Heard r s u note rest) : s.Vanishing k a where
  others := by
    rw [heard.outbox]
    exact vanishing.others
  store := by
    rw [heard.outbox, heard.store]
    exact vanishing.store
  held x := by
    rw [heard.outbox]
    by_cases here : x = u
    · subst here
      rcases vanishing.held x with clears | wiped | both
      · exact .inl clears
      · rw [heard.before] at wiped
        rw [heard.after, heard.held]
        rcases wiped.tail with later | ⟨first, silent⟩
        · exact .inr (.inl later)
        · refine .inr (.inr ⟨?_, silent⟩)
          rw [first]
          exact Set.notMem_empty k
      · exact .inr (.inr (heard.absent both.1 both.2))
    · rw [heard.heldOthers x here, heard.inboxOthers x here]
      exact vanishing.held x
  own := by
    by_cases here : a = u
    · subst here
      exact heard.absent vanishing.own.1 vanishing.own.2
    · rw [heard.heldOthers a here, heard.inboxOthers a here]
      exact vanishing.own

theorem Lasting.heard (lasting : r.Lasting k) (heard : Heard r s u note rest) : s.Lasting k where
  store := by
    rw [heard.outbox, heard.store]
    exact lasting.store
  held x := by
    rw [heard.outbox]
    by_cases here : x = u
    · subst here
      have mem := lasting.held x
      rw [heard.before, outcome_cons] at mem
      rwa [heard.after, heard.held]
    · rw [heard.heldOthers x here, heard.inboxOthers x here]
      exact lasting.held x
  again := by
    rw [heard.outbox]
    exact lasting.again

theorem Returning.heard (returning : r.Returning k l) (heard : Heard r s u note rest) : s.Returning k l where
  others := by
    rw [heard.outbox]
    exact returning.others
  own := by
    by_cases here : l = u
    · subst here
      obtain ⟨mem, silent⟩ := returning.own
      rw [heard.before, Clears.cons, not_or] at silent
      obtain ⟨j, item⟩ := Option.ne_none_iff_exists'.mp silent.1
      rw [heard.held, heard.after, apply_of_some item]
      exact ⟨Set.mem_insert_of_mem j mem, silent.2⟩
    · rw [heard.heldOthers l here, heard.inboxOthers l here]
      exact returning.own
  store := by
    rw [heard.outbox, heard.store]
    exact returning.store
  held x other := by
    rw [heard.outbox]
    by_cases here : x = u
    · subst here
      rw [heard.after, heard.held]
      rcases returning.held x other with clears | ⟨before, after, split, silent, comes⟩ | ⟨silent, comes⟩
      · exact .inl clears
      · rw [heard.before] at split
        right
        cases before with
        | nil =>
          obtain ⟨-, rfl⟩ := List.cons.inj split
          exact .inr ⟨silent, .inr comes⟩
        | cons first before =>
          obtain ⟨-, rfl⟩ := List.cons.inj split
          exact .inl ⟨before, after, rfl, silent, comes⟩
      · rw [heard.before, Clears.cons, not_or] at silent
        obtain ⟨j, item⟩ := Option.ne_none_iff_exists'.mp silent.1
        rw [heard.before, List.mem_cons] at comes
        rw [apply_of_some item]
        refine .inr (.inr ⟨silent.2, ?_⟩)
        rcases comes with mem | (first | mem) | adds
        · exact .inl (Set.mem_insert_of_mem j mem)
        · rw [← first] at item
          exact .inl (Option.some.inj item ▸ Set.mem_insert k _)
        · exact .inr (.inl mem)
        · exact .inr (.inr adds)
    · rw [heard.heldOthers x here, heard.inboxOthers x here]
      exact returning.held x other

theorem Coherent.hear (coherent : r.Coherent) (u : U) : (r.hear u).Coherent := by
  rcases hear_cases r u with same | ⟨note, rest, heard⟩
  · rw [same]
    exact coherent
  have live : (r.hear u).live = r.live := by
    unfold Replicas.live
    rw [heard.made, heard.gone]
  constructor
  · rw [heard.outbox]
    exact coherent.senders
  · rw [heard.gone, heard.made]
    exact coherent.made
  · rw [heard.kept, live]
    exact coherent.live
  · rw [heard.gone, heard.author]
    exact fun k gone a author => (coherent.vanishing k gone a author).heard heard
  · rw [live]
    exact fun k there => (coherent.lasting k there).heard heard
  · rw [heard.kept, heard.last]
    exact fun k kept l last => (coherent.returning k kept l last).heard heard

end Hear

/-- Where everything starts: all hold what the store has, and nobody here made it. -/
def opened (items : Set κ) : Replicas U κ := { store := items, held := fun _ => items, made := items }

theorem coherent_opened (items : Set κ) : (opened items : Replicas U κ).Coherent := by
  constructor
  · intro u note mem
    cases mem
  · intro k gone
    cases gone
  · intro k kept
    cases kept
  · intro k gone
    cases gone
  · intro k live
    refine ⟨.inl live.1, fun x => .inl live.1, fun y clears => ?_⟩
    exact absurd clears not_clears_nil
  · intro k kept
    cases kept

variable (r) in
structure Settled (u : U) : Prop where
  taken : r.outbox u = []
  heard : ∀ x, ∀ note ∈ r.inbox x, note.sender ≠ u

theorem Coherent.absent (coherent : r.Coherent) (gone : k ∈ r.gone) (author : r.author k = some a)
    (settled : r.Settled a) : k ∉ r.store ∧ ∀ x, k ∉ r.held x := by
  have vanishing := coherent.vanishing k gone a author
  constructor
  · rcases vanishing.store with wiped | both
    · obtain ⟨note, mem, -⟩ := wiped.clears
      rw [settled.taken] at mem
      cases mem
    · exact both.1
  · intro x
    rcases vanishing.held x with ⟨note, mem, -⟩ | wiped | both
    · rw [settled.taken] at mem
      cases mem
    · obtain ⟨note, mem, sender⟩ := wiped.clears
      exact absurd sender (settled.heard x note mem)
    · exact both.1

theorem Coherent.stored (coherent : r.Coherent) (taken : ∀ y, r.outbox y = []) (live : k ∈ r.live) : k ∈ r.store := by
  rcases (coherent.lasting k live).store with mem | ⟨y, mem⟩
  · exact mem
  · rw [taken y] at mem
    exact absurd mem (Set.notMem_empty k)

theorem Coherent.present (coherent : r.Coherent) (kept : k ∈ r.kept) (last : r.last = some l)
    (settled : r.Settled l) : k ∈ r.store ∧ ∀ x, k ∈ r.held x := by
  have returning := coherent.returning k kept l last
  have quiet : ¬ Clears (r.outbox l) ∧ ¬ Adds k (r.outbox l) := by
    rw [settled.taken]
    exact ⟨not_clears_nil, not_adds_nil⟩
  have none : ∀ x, ∀ item, ⟨l, item⟩ ∉ r.inbox x := fun x item mem => settled.heard x _ mem rfl
  constructor
  · exact (returning.store.resolve_left quiet.1).resolve_right quiet.2
  · intro x
    by_cases here : x = l
    · rw [here]
      exact returning.own.1
    · rcases returning.held x here with clears | ⟨before, after, split, -⟩ | ⟨-, mem | mem | adds⟩
      · exact absurd clears quiet.1
      · refine absurd ?_ (none x Option.none)
        rw [split]
        exact List.mem_append_right before List.mem_cons_self
      · exact mem
      · exact absurd mem (none x _)
      · exact absurd adds quiet.2

end Replicas
end Echo.Lib
