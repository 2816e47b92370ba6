/-! Calls on a mutable object. A call hands back its result together with the state
it leaves; an error does not roll the state back. -/
namespace Echo.Lib

abbrev Outcome (E S A : Type) := Except E A × S

namespace Outcome
variable {E S A B : Type}

/-- The `?` of the source: go on with the state reached, or stop with it. -/
def andThen (o : Outcome E S A) (next : A → S → Outcome E S B) : Outcome E S B :=
  match o with
  | (.ok a, s) => next a s
  | (.error e, s) => (.error e, s)

@[simp] theorem andThen_ok (a : A) (s : S) (next : A → S → Outcome E S B) :
    andThen (.ok a, s) next = next a s := rfl

@[simp] theorem andThen_error (e : E) (s : S) (next : A → S → Outcome E S B) :
    andThen (.error e, s) next = (.error e, s) := rfl

theorem andThen_state (o : Outcome E S A) (next : A → S → Outcome E S B) (I : S → Prop)
    (first : I o.2) (second : ∀ a s, I s → I (next a s).2) : I (andThen o next).2 := by
  rcases o with ⟨r, s⟩
  cases r with
  | ok a => exact second a s first
  | error e => exact first

theorem andThen_eq_ok {o : Outcome E S A} {next : A → S → Outcome E S B} {b : B} {t : S}
    (done : andThen o next = (.ok b, t)) : ∃ a s, o = (.ok a, s) ∧ next a s = (.ok b, t) := by
  rcases o with ⟨r, s⟩
  cases r with
  | ok a => exact ⟨a, s, rfl, done⟩
  | error e => cases done

/- Two objects called side by side: the same answer (or a failure on both sides, whatever
each side calls it), and states that stay related. -/
section Matches
variable {F T : Type} (R : S → T → Prop)

def Matches (o : Outcome E S A) (p : Outcome F T A) : Prop :=
  o.1.toOption = p.1.toOption ∧ R o.2 p.2

variable {R}

theorem Matches.state {o : Outcome E S A} {p : Outcome F T A} (both : Matches R o p) : R o.2 p.2 := both.2

theorem matches_ok {s : S} {t : T} (a : A) (related : R s t) :
    Matches R ((.ok a, s) : Outcome E S A) ((.ok a, t) : Outcome F T A) := ⟨rfl, related⟩

theorem matches_error {s : S} {t : T} (e : E) (f : F) (related : R s t) :
    Matches R ((.error e, s) : Outcome E S A) ((.error f, t) : Outcome F T A) := ⟨rfl, related⟩

theorem Matches.andThen {o : Outcome E S A} {p : Outcome F T A} (first : Matches R o p)
    {next : A → S → Outcome E S B} {next' : A → T → Outcome F T B}
    (second : ∀ a s t, o = (.ok a, s) → p = (.ok a, t) → R s t → Matches R (next a s) (next' a t)) :
    Matches R (o.andThen next) (p.andThen next') := by
  obtain ⟨r, s⟩ := o
  obtain ⟨r', t⟩ := p
  obtain ⟨same, related⟩ := first
  cases r with
  | ok a =>
    cases r' with
    | ok b =>
      cases Option.some.inj same
      exact second a s t rfl rfl related
    | error f => cases same
  | error e =>
    cases r' with
    | ok b => cases same
    | error f => exact matches_error e f related

end Matches
end Outcome
end Echo.Lib
