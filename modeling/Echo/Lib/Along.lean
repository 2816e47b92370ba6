import Mathlib.Logic.Basic

/-! Runs of a system that takes one event after the other, and what holds along them. -/
namespace Echo.Lib
variable {S E : Type} {step : S → E → S} {fine : S → E → Prop}

def Along (step : S → E → S) (fine : S → E → Prop) : S → List E → Prop
  | _, [] => True
  | s, e :: events => fine s e ∧ Along step fine (step s e) events

instance Along.decidable [∀ s e, Decidable (fine s e)] :
    (s : S) → (events : List E) → Decidable (Along step fine s events)
  | _, [] => isTrue trivial
  | s, e :: events => @instDecidableAnd (fine s e) (Along step fine (step s e) events) inferInstance
      (Along.decidable (step s e) events)

variable {I : S → Prop} {s : S} {events : List E} {also : S → E → Prop}

theorem Along.keeps (keep : ∀ s e, I s → fine s e → I (step s e))
    (along : Along step fine s events) (holds : I s) : I (events.foldl step s) := by
  induction events generalizing s with
  | nil => exact holds
  | cons e events ih => exact ih along.2 (keep s e holds along.1)

theorem Along.and (along : Along step fine s events)
    (more : Along step also s events) : Along step (fun s e => fine s e ∧ also s e) s events := by
  induction events generalizing s with
  | nil => trivial
  | cons e events ih => exact ⟨⟨along.1, more.1⟩, ih along.2 more.2⟩

theorem Along.congr {given : E → Prop}
    (keep : ∀ s e, I s → given e → I (step s e)) (agree : ∀ s e, I s → given e → (fine s e ↔ also s e))
    (all : ∀ e ∈ events, given e) (holds : I s) :
    Along step fine s events ↔ Along step also s events := by
  induction events generalizing s with
  | nil => exact Iff.rfl
  | cons e events ih =>
    have first := all e List.mem_cons_self
    exact and_congr (agree s e holds first)
      (ih (fun later mem => all later (List.mem_cons_of_mem e mem)) (keep s e holds first))

theorem Along.invariant_iff (agree : ∀ s e, I s → (I (step s e) ↔ also s e))
    (holds : I s) :
    Along step (fun s e => I (step s e)) s events ↔ Along step also s events := by
  induction events generalizing s with
  | nil => exact Iff.rfl
  | cons e events ih =>
    constructor
    · exact fun along => ⟨(agree s e holds).mp along.1, (ih along.1).mp along.2⟩
    · intro along
      have kept := (agree s e holds).mpr along.1
      exact ⟨kept, (ih kept).mpr along.2⟩

theorem Along.imp (weaker : ∀ s e, fine s e → also s e)
    (along : Along step fine s events) : Along step also s events := by
  induction events generalizing s with
  | nil => trivial
  | cons e events ih => exact ⟨weaker s e along.1, ih along.2⟩

theorem Along.reached {given : E → Prop} (keep : ∀ s e, I s → given e → fine s e → I (step s e))
    (all : ∀ e ∈ events, given e) (along : Along step fine s events) (holds : I s) :
    Along step (fun s e => I (step s e)) s events := by
  induction events generalizing s with
  | nil => trivial
  | cons e events ih =>
    have kept := keep s e holds (all e List.mem_cons_self) along.1
    exact ⟨kept, ih (fun later mem => all later (List.mem_cons_of_mem e mem)) along.2 kept⟩

theorem foldl_keeps (keep : ∀ s e, I s → I (step s e)) (events : List E) (holds : I s) :
    I (events.foldl step s) := by
  induction events generalizing s with
  | nil => exact holds
  | cons e events ih => exact ih (keep s e holds)

theorem Along.append {later : List E} :
    Along step fine s (events ++ later) ↔ Along step fine s events ∧ Along step fine (events.foldl step s) later := by
  induction events generalizing s with
  | nil => exact ⟨fun along => ⟨trivial, along⟩, And.right⟩
  | cons e events ih =>
    constructor
    · exact fun along => ⟨⟨along.1, (ih.mp along.2).1⟩, (ih.mp along.2).2⟩
    · exact fun both => ⟨both.1.1, ih.mpr ⟨both.1.2, both.2⟩⟩

end Echo.Lib
