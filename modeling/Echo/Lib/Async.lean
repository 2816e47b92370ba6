import Mathlib.Logic.Function.Basic

/-! Asynchronous calls over one shared state. A call runs undisturbed from one await to the
next; between two awaits any other call may run. -/
namespace Echo.Lib

/-- A shared state and the requests made of it. A request that has to wait has no answer yet. -/
structure Machine where
  State : Type
  Req : Type
  Ans : Req → Type
  perform : (r : Req) → State → Option (Ans r × State)
  /-- What is left when the process is killed and started again. -/
  restart : State → State

inductive Async (M : Machine) (ε α : Type) where
  | done (result : Except ε α)
  | call (r : M.Req) (next : M.Ans r → Async M ε α)
  | await (next : Async M ε α)

variable {M : Machine} {ε α β : Type}

namespace Async

def bind : Async M ε α → (α → Async M ε β) → Async M ε β
  | done (.ok a), f => f a
  | done (.error e), _ => done (.error e)
  | call r next, f => call r fun a => (next a).bind f
  | await next, f => await (next.bind f)

instance : Monad (Async M ε) where
  pure a := done (.ok a)
  bind := bind

def throw (e : ε) : Async M ε α := done (.error e)

def ask (r : M.Req) : Async M ε (M.Ans r) := call r fun a => done (.ok a)

def pause : Async M ε Unit := await (done (.ok ()))

/-- `try … catch` -/
def catching : Async M ε α → (ε → Async M ε α) → Async M ε α
  | done (.ok a), _ => done (.ok a)
  | done (.error e), handler => handler e
  | call r next, handler => call r fun a => (next a).catching handler
  | await next, handler => await (next.catching handler)

/-- `try … finally` -/
def ensuring : Async M ε α → Async M ε Unit → Async M ε α
  | done r, last => last.bind fun _ => done r
  | call r next, last => call r fun a => (next a).ensuring last
  | await next, last => await (next.ensuring last)

@[simp] theorem pure_eq (a : α) : (pure a : Async M ε α) = done (.ok a) := rfl

@[simp] theorem bind_eq (t : Async M ε α) (f : α → Async M ε β) : (t >>= f) = t.bind f := rfl

/-- The call with nothing in between, to its end or to a request that has to wait. -/
def exec : Async M ε α → M.State → Async M ε α × M.State
  | done r, s => (done r, s)
  | call r next, s =>
    match M.perform r s with
    | none => (call r next, s)
    | some (a, s') => (next a).exec s'
  | await next, s => next.exec s

@[simp] theorem exec_done (r : Except ε α) (s : M.State) : (done r : Async M ε α).exec s = (done r, s) := rfl

@[simp] theorem exec_await (t : Async M ε α) (s : M.State) : (await t).exec s = t.exec s := rfl

variable {s s' : M.State} {t : Async M ε α} {f : α → Async M ε β} {handler : ε → Async M ε α} {r : Except ε α}
variable {P : M.Req → Prop} {post : Except ε α → Prop}

theorem exec_call {r : M.Req} {a : M.Ans r} (answered : M.perform r s = some (a, s'))
    (next : M.Ans r → Async M ε α) : (call r next).exec s = (next a).exec s' := by
  simp only [exec, answered]

theorem exec_bind (t : Async M ε α) (f : α → Async M ε β) (s : M.State) :
    (t.bind f).exec s = ((t.exec s).1.bind f).exec (t.exec s).2 := by
  induction t generalizing s with
  | done r => rfl
  | call r next ih =>
    simp only [bind, exec]
    cases answer : M.perform r s with
    | none => simp [bind, exec, answer]
    | some reply => exact ih reply.1 reply.2
  | await next ih => exact ih s

theorem exec_catching (t : Async M ε α) (handler : ε → Async M ε α) (s : M.State) :
    (t.catching handler).exec s = ((t.exec s).1.catching handler).exec (t.exec s).2 := by
  induction t generalizing s with
  | done r => rfl
  | call r next ih =>
    simp only [catching, exec]
    cases answer : M.perform r s with
    | none => simp [catching, exec, answer]
    | some reply => exact ih reply.1 reply.2
  | await next ih => exact ih s

theorem exec_ensuring (t : Async M ε α) (last : Async M ε Unit) (s : M.State) :
    (t.ensuring last).exec s = ((t.exec s).1.ensuring last).exec (t.exec s).2 := by
  induction t generalizing s with
  | done r => rfl
  | call r next ih =>
    simp only [ensuring, exec]
    cases answer : M.perform r s with
    | none => simp [ensuring, exec, answer]
    | some reply => exact ih reply.1 reply.2
  | await next ih => exact ih s

theorem exec_bind_ok {a : α}
    (ran : t.exec s = (done (.ok a), s')) : (t.bind f).exec s = (f a).exec s' := by
  rw [exec_bind, ran]
  rfl

theorem exec_bind_error {e : ε}
    (ran : t.exec s = (done (.error e), s')) : (t.bind f).exec s = (done (.error e), s') := by
  rw [exec_bind, ran]
  rfl

theorem of_exec_call {r : M.Req} {next : M.Ans r → Async M ε α} {result : Except ε α}
    (ran : (call r next).exec s = (done result, s')) :
    ∃ a between, M.perform r s = some (a, between) ∧ (next a).exec between = (done result, s') := by
  simp only [exec] at ran
  split at ran
  · cases (Prod.mk.inj ran).1
  · rename_i a between answered
    exact ⟨a, between, answered, ran⟩

theorem of_exec_bind {r : Except ε β}
    (ran : (t.bind f).exec s = (done r, s')) :
    (∃ a between, t.exec s = (done (.ok a), between) ∧ (f a).exec between = (done r, s')) ∨
      ∃ e, t.exec s = (done (.error e), s') ∧ r = .error e := by
  induction t generalizing s with
  | done result =>
    cases result with
    | ok a => exact .inl ⟨a, s, rfl, ran⟩
    | error e =>
      obtain ⟨same, rfl⟩ := Prod.mk.inj ran
      cases same
      exact .inr ⟨e, rfl, rfl⟩
  | call r next ih =>
    simp only [Async.bind, exec] at ran ⊢
    split at ran
    · cases (Prod.mk.inj ran).1
    · exact ih _ ran
  | await next ih => exact ih ran

theorem of_exec_catching
    (ran : (t.catching handler).exec s = (done r, s')) :
    (∃ a, t.exec s = (done (.ok a), s') ∧ r = .ok a) ∨
      ∃ e between, t.exec s = (done (.error e), between) ∧ (handler e).exec between = (done r, s') := by
  induction t generalizing s with
  | done result =>
    cases result with
    | ok a =>
      obtain ⟨same, rfl⟩ := Prod.mk.inj ran
      cases same
      exact .inl ⟨a, rfl, rfl⟩
    | error e => exact .inr ⟨e, s, rfl, ran⟩
  | call r next ih =>
    simp only [Async.catching, exec] at ran ⊢
    split at ran
    · cases (Prod.mk.inj ran).1
    · exact ih _ ran
  | await next ih => exact ih ran

def Only (P : M.Req → Prop) : Async M ε α → Prop
  | done _ => True
  | call r next => P r ∧ ∀ a, (next a).Only P
  | await next => next.Only P

theorem Only.bind (first : t.Only P)
    (second : ∀ a, (f a).Only P) : (t.bind f).Only P := by
  induction t with
  | done r =>
    cases r with
    | ok a => exact second a
    | error e => exact first
  | call r next ih => exact ⟨first.1, fun a => ih a (first.2 a)⟩
  | await next ih => exact ih first

theorem Only.mono {Q : M.Req → Prop} (only : t.Only P) (weaker : ∀ r, P r → Q r) :
    t.Only Q := by
  induction t with
  | done r => exact only
  | call r next ih => exact ⟨weaker r only.1, fun a => ih a (only.2 a)⟩
  | await next ih => exact ih only

theorem Only.catching (first : t.Only P)
    (second : ∀ e, (handler e).Only P) : (t.catching handler).Only P := by
  induction t with
  | done r =>
    cases r with
    | ok a => exact first
    | error e => exact second e
  | call r next ih => exact ⟨first.1, fun a => ih a (first.2 a)⟩
  | await next ih => exact ih first

theorem Only.ensuring {last : Async M ε Unit} (first : t.Only P)
    (second : last.Only P) : (t.ensuring last).Only P := by
  induction t with
  | done r => exact second.bind fun _ => trivial
  | call r next ih => exact ⟨first.1, fun a => ih a (first.2 a)⟩
  | await next ih => exact ih first

theorem Only.exec {R : M.State → M.State → Prop} (refl : ∀ s, R s s)
    (step : ∀ {r s s' s''} {a : M.Ans r}, P r → M.perform r s = some (a, s') → R s' s'' → R s s'')
    {t' : Async M ε α} (only : t.Only P) (ran : t.exec s = (t', s')) : R s s' := by
  induction t generalizing s with
  | done r =>
    obtain ⟨-, rfl⟩ := Prod.mk.inj ran
    exact refl s
  | call r next ih =>
    simp only [Async.exec] at ran
    split at ran
    · obtain ⟨-, rfl⟩ := Prod.mk.inj ran
      exact refl s
    · rename_i a between answered
      exact step only.1 answered (ih a (only.2 a) ran)
  | await next ih => exact ih only ran

structure Embedding (M N : Machine) where
  req : M.Req → N.Req
  ans : ∀ r, N.Ans (req r) → M.Ans r

def lift {N : Machine} {ε' : Type} (i : Embedding M N) (e : ε → ε') : Async M ε α → Async N ε' α
  | done (.ok a) => done (.ok a)
  | done (.error reason) => done (.error (e reason))
  | call r next => call (i.req r) fun a => (next (i.ans r a)).lift i e
  | await next => await (next.lift i e)

theorem Only.lift {N : Machine} {ε' : Type} {i : Embedding M N} {e : ε → ε'}
    {Q : N.Req → Prop} (only : t.Only P) (embeds : ∀ r, P r → Q (i.req r)) :
    (t.lift i e).Only Q := by
  induction t with
  | done r =>
    cases r with
    | ok a => exact trivial
    | error reason => exact trivial
  | call r next ih => exact ⟨embeds r only.1, fun a => ih _ (only.2 _)⟩
  | await next ih => exact ih only

def Returns (post : Except ε α → Prop) : Async M ε α → Prop
  | done r => post r
  | call _ next => ∀ a, (next a).Returns post
  | await next => next.Returns post

theorem Returns.bind {mid : Except ε α → Prop} {post : Except ε β → Prop}
    (first : t.Returns mid) (rest : ∀ a, mid (.ok a) → (f a).Returns post)
    (fails : ∀ e, mid (.error e) → post (.error e)) : (t.bind f).Returns post := by
  induction t with
  | done r =>
    cases r with
    | ok a => exact rest a first
    | error e => exact fails e first
  | call r next ih => exact fun a => ih a (first a)
  | await next ih => exact ih first

theorem Returns.catching {mid : Except ε α → Prop}
    (first : t.Returns mid) (fine : ∀ a, mid (.ok a) → post (.ok a))
    (handled : ∀ e, mid (.error e) → (handler e).Returns post) : (t.catching handler).Returns post := by
  induction t with
  | done r =>
    cases r with
    | ok a => exact fine a first
    | error e => exact handled e first
  | call r next ih => exact fun a => ih a (first a)
  | await next ih => exact ih first

theorem Returns.mono {weaker : Except ε α → Prop} (first : t.Returns post)
    (implies : ∀ r, post r → weaker r) : t.Returns weaker := by
  induction t with
  | done r => exact implies r first
  | call r next ih => exact fun a => ih a (first a)
  | await next ih => exact ih first

theorem Returns.any (t : Async M ε α) : t.Returns fun _ => True := by
  induction t with
  | done r => exact trivial
  | call r next ih => exact ih
  | await next ih => exact ih

def Yields (P : α → Prop) (t : Async M ε α) : Prop := t.Returns fun r => ∀ a, r = .ok a → P a

theorem Yields.pure {P : α → Prop} {a : α} (fine : P a) : (done (.ok a) : Async M ε α).Yields P := by
  intro b same
  cases same
  exact fine

theorem Yields.throw {P : α → Prop} (e : ε) : (Async.throw e : Async M ε α).Yields P := nofun

theorem Yields.any (t : Async M ε α) : t.Yields fun _ => True := by
  induction t with
  | done r => exact fun _ _ => trivial
  | call r next ih => exact ih
  | await next ih => exact ih

theorem Yields.bind {mid : α → Prop} {P : β → Prop} (first : t.Yields mid)
    (rest : ∀ a, mid a → (f a).Yields P) : (t.bind f).Yields P :=
  Returns.bind first (fun a fine => rest a (fine a rfl)) nofun

theorem Yields.catching {P : α → Prop} (first : t.Yields P)
    (handled : ∀ e, (handler e).Yields P) : (t.catching handler).Yields P :=
  Returns.catching first (fun _ fine => fine) fun e _ => handled e

theorem Yields.ensuring {P : α → Prop} {last : Async M ε Unit} (first : t.Yields P) :
    (t.ensuring last).Yields P := by
  induction t with
  | done r => exact Returns.bind (.any last) (fun _ _ => first) nofun
  | call r next ih => exact fun a => ih a (first a)
  | await next ih => exact ih first

theorem Returns.exec
    (returns : t.Returns post) (ran : t.exec s = (done r, s')) : post r := by
  induction t generalizing s with
  | done r =>
    cases (Prod.mk.inj ran).1
    exact returns
  | call r next ih =>
    simp only [Async.exec] at ran
    split at ran
    · cases (Prod.mk.inj ran).1
    · exact ih _ (returns _) ran
  | await next ih => exact ih returns ran

def result : Async M ε α → Option (Except ε α)
  | done r => some r
  | _ => none

theorem eq_done (ended : t.result = some r) : t = done r := by
  cases t with
  | done r' =>
    cases ended
    rfl
  | call | await => cases ended

end Async

structure Event (M : Machine) where
  who : Nat
  request : M.Req
  before : M.State
  after : M.State

/-- Up to the next await, or with `through` past every await. -/
def Async.run (through : Bool) (who : Nat) :
    Async M ε α → M.State → List (Event M) → Async M ε α × M.State × List (Event M)
  | .done r, s, trace => (.done r, s, trace)
  | .call r next, s, trace =>
    match M.perform r s with
    | none => (.call r next, s, trace)
    | some (a, s') => (next a).run through who s' (⟨who, r, s, s'⟩ :: trace)
  | .await next, s, trace =>
    if through then next.run through who s trace else (next, s, trace)

/-- The calls made so far, by number; a killed call is `none`. Last event first. -/
structure World (M : Machine) (ε α : Type) where
  state : M.State
  tasks : List (Option (Async M ε α))
  trace : List (Event M)

inductive Move (M : Machine) (ε α : Type) where
  | call (t : Async M ε α)
  | resume (i : Nat)
  /-- A call made and run to its end in one go. -/
  | alone (t : Async M ε α)
  | restart

namespace World

def start (s : M.State) : World M ε α := ⟨s, [], []⟩

def pending (w : World M ε α) (i : Nat) : Option (Async M ε α) :=
  match w.tasks[i]? with
  | some (some (.call r next)) => some (.call r next)
  | some (some (.await next)) => some (.await next)
  | _ => none

def resume (w : World M ε α) (through : Bool) (i : Nat) : World M ε α :=
  match w.tasks[i]? with
  | some (some t) =>
    let (t', s', trace) := t.run through i w.state w.trace
    ⟨s', w.tasks.set i (some t'), trace⟩
  | _ => w

def move (w : World M ε α) : Move M ε α → World M ε α
  | .call t => { w with tasks := w.tasks ++ [some t] }.resume false w.tasks.length
  | .resume i => w.resume false i
  | .alone t => { w with tasks := w.tasks ++ [some t] }.resume true w.tasks.length
  | .restart => { w with state := M.restart w.state, tasks := w.tasks.map fun _ => none }

def after (w : World M ε α) (run : List (Move M ε α)) : World M ε α := run.foldl move w

end World

section Asked
variable {P : M.Req → Prop}

theorem Async.run_only (through : Bool) (who : Nat) {t : Async M ε α} (only : t.Only P) (s : M.State)
    {trace : List (Event M)} (asked : ∀ e ∈ trace, P e.request) :
    (t.run through who s trace).1.Only P ∧ ∀ e ∈ (t.run through who s trace).2.2, P e.request := by
  induction t generalizing s trace with
  | done r => exact ⟨only, asked⟩
  | call r next ih =>
    simp only [run]
    cases M.perform r s with
    | none => exact ⟨only, asked⟩
    | some reply => exact ih reply.1 (only.2 _) reply.2 (List.forall_mem_cons.mpr ⟨only.1, asked⟩)
  | await next ih =>
    cases through with
    | false => exact ⟨only, asked⟩
    | true => exact ih only s asked

def World.Asked (P : M.Req → Prop) (w : World M ε α) : Prop :=
  (∀ t, some t ∈ w.tasks → t.Only P) ∧ ∀ e ∈ w.trace, P e.request

variable {w : World M ε α}

theorem World.Asked.resume (holds : w.Asked P) (through : Bool) (i : Nat) :
    (w.resume through i).Asked P := by
  unfold World.resume
  split
  · rename_i t here
    have ran := Async.run_only through i (holds.1 t (List.mem_of_getElem? here)) w.state holds.2
    refine ⟨fun t' inside => ?_, ran.2⟩
    rcases List.mem_or_eq_of_mem_set inside with old | new
    · exact holds.1 t' old
    · cases Option.some.inj new
      exact ran.1
  · exact holds

theorem World.Asked.begun (holds : w.Asked P) {t : Async M ε α} (only : t.Only P) :
    ({ w with tasks := w.tasks ++ [some t] } : World M ε α).Asked P := by
  refine ⟨fun t' inside => ?_, holds.2⟩
  rcases List.mem_append.mp inside with old | new
  · exact holds.1 t' old
  · cases Option.some.inj (List.mem_singleton.mp new)
    exact only

theorem World.Asked.after (holds : w.Asked P) {moves : List (Move M ε α)}
    (only : ∀ move ∈ moves, ∀ t, move = .call t ∨ move = .alone t → t.Only P) : (w.after moves).Asked P := by
  induction moves generalizing w with
  | nil => exact holds
  | cons move moves ih =>
    refine ih ?_ fun later inside => only later (List.mem_cons_of_mem _ inside)
    have mine := only move List.mem_cons_self
    cases move with
    | call t => exact (holds.begun (mine t (.inl rfl))).resume false _
    | alone t => exact (holds.begun (mine t (.inr rfl))).resume true _
    | resume i => exact holds.resume false i
    | restart =>
      refine ⟨fun t inside => ?_, holds.2⟩
      obtain ⟨_, -, never⟩ := List.mem_map.mp inside
      cases never

end Asked

end Echo.Lib
