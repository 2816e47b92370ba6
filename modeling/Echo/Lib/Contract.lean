import Echo.Lib.Async

/-! Contracts for asynchronous calls: a call is followed through its modes, and the modes of
all calls together have to fit the shared state. -/
namespace Echo.Lib
variable {M : Machine} {ε α β : Type}

/-- What may be asked in a mode, how an answer moves the mode, in which modes the process may
be killed and in which a call may end; `over` is the mode of a call that has ended. -/
structure Contract (M : Machine) where
  Mode : Type
  finished : Mode
  Permit : Mode → M.Req → Prop
  Next : Mode → (r : M.Req) → M.Ans r → Mode → Prop
  Rest : Mode → Prop
  Final : Mode → Prop

variable {C : Contract M}

namespace Async

def Keeps (C : Contract M) : Async M ε α → C.Mode → (C.Mode → Except ε α → Prop) → Prop
  | done r, m, post => post m r
  | call r next, m, post => C.Permit m r ∧ ∀ a m', C.Next m r a m' → (next a).Keeps C m' post
  | await next, m, post => C.Rest m ∧ next.Keeps C m post

variable {t : Async M ε α} {m : C.Mode} {post : C.Mode → Except ε α → Prop}

theorem Keeps.mono {post' : C.Mode → Except ε α → Prop}
    (keeps : t.Keeps C m post) (weaker : ∀ m r, post m r → post' m r) : t.Keeps C m post' := by
  induction t generalizing m with
  | done r => exact weaker m r keeps
  | call r next ih => exact ⟨keeps.1, fun a m' moved => ih a (keeps.2 a m' moved)⟩
  | await next ih => exact ⟨keeps.1, ih keeps.2⟩

theorem Keeps.bind {f : α → Async M ε β}
    {post : C.Mode → Except ε β → Prop}
    (keeps : t.Keeps C m fun m' r => match r with
      | .ok a => (f a).Keeps C m' post
      | .error e => post m' (.error e)) : (t.bind f).Keeps C m post := by
  induction t generalizing m with
  | done r =>
    cases r with
    | ok a => exact keeps
    | error e => exact keeps
  | call r next ih => exact ⟨keeps.1, fun a m' moved => ih a (keeps.2 a m' moved)⟩
  | await next ih => exact ⟨keeps.1, ih keeps.2⟩

theorem Keeps.catching {handler : ε → Async M ε α}
    (keeps : t.Keeps C m fun m' r => match r with
      | .ok a => post m' (.ok a)
      | .error e => (handler e).Keeps C m' post) : (t.catching handler).Keeps C m post := by
  induction t generalizing m with
  | done r =>
    cases r with
    | ok a => exact keeps
    | error e => exact keeps
  | call r next ih => exact ⟨keeps.1, fun a m' moved => ih a (keeps.2 a m' moved)⟩
  | await next ih => exact ⟨keeps.1, ih keeps.2⟩

theorem Keeps.ensuring {last : Async M ε Unit}
    (keeps : t.Keeps C m fun m' r => (last.bind fun _ => done r).Keeps C m' post) :
    (t.ensuring last).Keeps C m post := by
  induction t generalizing m with
  | done r => exact keeps
  | call r next ih => exact ⟨keeps.1, fun a m' moved => ih a (keeps.2 a m' moved)⟩
  | await next ih => exact ⟨keeps.1, ih keeps.2⟩

theorem Keeps.ask {r : M.Req} {post : C.Mode → Except ε (M.Ans r) → Prop}
    (permit : C.Permit m r) (answers : ∀ a m', C.Next m r a m' → post m' (.ok a)) :
    (ask r : Async M ε (M.Ans r)).Keeps C m post := ⟨permit, answers⟩

theorem Keeps.pause {post : C.Mode → Except ε Unit → Prop}
    (rest : C.Rest m) (keeps : post m (.ok ())) : (pause : Async M ε Unit).Keeps C m post := ⟨rest, keeps⟩

theorem Keeps.ite {c : Prop} [Decidable c] {other : Async M ε α}
    (yes : c → t.Keeps C m post) (no : ¬ c → other.Keeps C m post) : (if c then t else other).Keeps C m post := by
  split
  · exact yes ‹_›
  · exact no ‹_›

theorem Only.keeps {P : M.Req → Prop} (only : t.Only P)
    (permit : ∀ {r}, P r → C.Permit m r) (stays : ∀ {r a m'}, P r → C.Next m r a m' → m' = m)
    (rest : C.Rest m) : t.Keeps C m fun m' _ => m' = m := by
  induction t with
  | done r => exact rfl
  | call r next ih =>
    refine ⟨permit only.1, fun a m' moved => ?_⟩
    rw [stays only.1 moved]
    exact ih a (only.2 a)
  | await next ih => exact ⟨rest, ih only⟩

theorem Keeps.exec {fits : C.Mode → M.State → Prop}
    (step : ∀ {m r a s s'}, fits m s → C.Permit m r → M.perform r s = some (a, s') →
      ∃ m', C.Next m r a m' ∧ fits m' s')
    {s s' : M.State} {result : Except ε α}
    (keeps : t.Keeps C m post) (fit : fits m s) (ran : t.exec s = (.done result, s')) :
    ∃ m', post m' result ∧ fits m' s' := by
  induction t generalizing s m with
  | done r =>
    obtain ⟨same, rfl⟩ := Prod.mk.inj ran
    cases same
    exact ⟨m, keeps, fit⟩
  | call r next ih =>
    simp only [Async.exec] at ran
    split at ran
    · cases (Prod.mk.inj ran).1
    · rename_i a after answered
      obtain ⟨m', moved, fit'⟩ := step fit keeps.1 answered
      exact ih a (keeps.2 a m' moved) fit' ran
  | await next ih => exact ih keeps.2 fit ran

theorem Keeps.ends {fits : C.Mode → M.State → Prop}
    (step : ∀ {m r a s s'}, fits m s → C.Permit m r → M.perform r s = some (a, s') →
      ∃ m', C.Next m r a m' ∧ fits m' s')
    (answers : ∀ {m r s}, fits m s → C.Permit m r → M.perform r s ≠ none)
    {s : M.State} (keeps : t.Keeps C m post)
    (fit : fits m s) : ∃ result s', t.exec s = (.done result, s') := by
  induction t generalizing s m with
  | done r => exact ⟨r, s, rfl⟩
  | call r next ih =>
    obtain ⟨⟨a, after⟩, answered⟩ := Option.ne_none_iff_exists'.mp (answers fit keeps.1)
    obtain ⟨m', moved, fit'⟩ := step fit keeps.1 answered
    obtain ⟨result, s', ran⟩ := ih a (keeps.2 a m' moved) fit'
    exact ⟨result, s', (exec_call answered next).trans ran⟩
  | await next ih => exact ih keeps.2 fit

end Async

def Clear (ok : List (Event M) → Event M → Prop) : List (Event M) → Prop
  | [] => True
  | e :: trace => ok trace e ∧ Clear ok trace

instance Clear.decidable {ok : List (Event M) → Event M → Prop} [∀ trace e, Decidable (ok trace e)] :
    (trace : List (Event M)) → Decidable (Clear ok trace)
  | [] => isTrue trivial
  | e :: trace => @instDecidableAnd (ok trace e) (Clear ok trace) inferInstance (Clear.decidable trace)

theorem Clear.anything (trace : List (Event M)) : Clear (fun _ _ => True) trace := by
  induction trace with
  | nil => exact trivial
  | cons e trace ih => exact ⟨trivial, ih⟩

/-- `fits` ties the modes of all calls to the shared state: `who` keeps it in its turn, as long
as the events are `ok`. -/
structure Contract.Turns (C : Contract M) (ok : List (Event M) → Event M → Prop)
    (fits : List (Event M) → (Nat → C.Mode) → M.State → Prop) (who : Nat) : Prop where
  step : ∀ {trace modes s r a s'}, fits trace modes s → C.Permit (modes who) r →
    M.perform r s = some (a, s') → ok trace ⟨who, r, s, s'⟩ →
    ∃ m, C.Next (modes who) r a m ∧ fits (⟨who, r, s, s'⟩ :: trace) (Function.update modes who m) s'
  wait : ∀ {trace modes s r}, fits trace modes s → C.Permit (modes who) r →
    M.perform r s = none → C.Rest (modes who)

structure Contract.Steady (C : Contract M) (ok : List (Event M) → Event M → Prop)
    (fits : List (Event M) → (Nat → C.Mode) → M.State → Prop) : Prop where
  turns : ∀ who, C.Turns ok fits who
  finish : ∀ {trace modes s i}, fits trace modes s → C.Final (modes i) →
    fits trace (Function.update modes i C.finished) s

structure Contract.Sound (C : Contract M) (ok : List (Event M) → Event M → Prop)
    (fits : List (Event M) → (Nat → C.Mode) → M.State → Prop) : Prop extends C.Steady ok fits where
  restart : ∀ {trace modes s}, fits trace modes s → (∀ i, C.Rest (modes i)) →
    fits trace (fun _ => C.finished) (M.restart s)
  finished_rest : C.Rest C.finished

variable {ok : List (Event M) → Event M → Prop}
  {fits : List (Event M) → (Nat → C.Mode) → M.State → Prop}

theorem Async.run_clear (through : Bool) (who : Nat) (t : Async M ε α) (s : M.State) (trace : List (Event M))
    (clear : Clear ok (t.run through who s trace).2.2) : Clear ok trace := by
  induction t generalizing s trace with
  | done r => exact clear
  | call r next ih =>
    simp only [run] at clear
    cases answer : M.perform r s with
    | none => simpa [answer] using clear
    | some reply =>
      rw [answer] at clear
      exact (ih _ _ _ clear).2
  | await next ih =>
    cases through with
    | false => exact clear
    | true => exact ih s trace clear

variable {s : M.State}

theorem Async.run_call {r : M.Req} {a : M.Ans r} {s' : M.State} (answered : M.perform r s = some (a, s'))
    (next : M.Ans r → Async M ε α) (through : Bool) (who : Nat) (trace : List (Event M)) :
    (call r next).run through who s trace = (next a).run through who s' (⟨who, r, s, s'⟩ :: trace) := by
  simp only [run, answered]

theorem Async.Keeps.traced {fits : List (Event M) → C.Mode → M.State → Prop} {who : Nat}
    (step : ∀ {trace m r a s s'}, fits trace m s → C.Permit m r → M.perform r s = some (a, s') →
      ok trace ⟨who, r, s, s'⟩ ∧ ∃ m', C.Next m r a m' ∧ fits (⟨who, r, s, s'⟩ :: trace) m' s')
    {t : Async M ε α} {trace : List (Event M)} {m : C.Mode} {post : C.Mode → Except ε α → Prop}
    (keeps : t.Keeps C m post) (fit : fits trace m s) (clear : Clear ok trace) :
    Clear ok (t.run true who s trace).2.2 := by
  induction t generalizing s m trace with
  | done r => exact clear
  | call r next ih =>
    cases answer : M.perform r s with
    | none => simpa only [run, answer] using clear
    | some reply =>
      obtain ⟨fine, m', moved, fit'⟩ := step fit keeps.1 answer
      rw [run_call answer]
      exact ih reply.1 (keeps.2 _ m' moved) fit' ⟨fine, clear⟩
  | await next ih => exact ih keeps.2 fit clear

/-- Where a call stands after its turn: at its end, waiting, or at an await. -/
def Async.Stands (C : Contract M) (post : C.Mode → Except ε α → Prop) (through : Bool) (s : M.State)
    (m : C.Mode) : Async M ε α → Prop
  | .done r => post m r
  | .call r next =>
    (through = true → M.perform r s = none) ∧ C.Rest m ∧ (Async.call r next).Keeps C m post
  | .await next => through = false ∧ C.Rest m ∧ (Async.await next).Keeps C m post

theorem Contract.Turns.run {through : Bool} {who : Nat} (turns : C.Turns ok fits who)
    (t : Async M ε α) (trace : List (Event M)) (modes : Nat → C.Mode) (s : M.State)
    {post : C.Mode → Except ε α → Prop} (fit : fits trace modes s) (keeps : t.Keeps C (modes who) post)
    (clear : Clear ok (t.run through who s trace).2.2) :
    ∃ m, fits (t.run through who s trace).2.2 (Function.update modes who m) (t.run through who s trace).2.1 ∧
      (t.run through who s trace).1.Stands C post through (t.run through who s trace).2.1 m := by
  induction t generalizing s trace modes with
  | done r =>
    refine ⟨modes who, ?_, keeps⟩
    rw [Function.update_eq_self]
    exact fit
  | call r next ih =>
    simp only [Async.run] at clear ⊢
    cases answer : M.perform r s with
    | none =>
      refine ⟨modes who, ?_, fun _ => answer, turns.wait fit keeps.1 answer, keeps⟩
      rw [Function.update_eq_self]
      exact fit
    | some reply =>
      rw [answer] at clear
      have now := (Async.run_clear through who _ _ _ clear).1
      obtain ⟨m, moved, fit'⟩ := turns.step fit keeps.1 answer now
      have rest := keeps.2 _ m moved
      have same : Function.update modes who m who = m := Function.update_self who m modes
      obtain ⟨m', fit'', stands⟩ := ih reply.1 _ _ _ fit' (same.symm ▸ rest) clear
      rw [Function.update_idem] at fit''
      exact ⟨m', fit'', stands⟩
  | await next ih =>
    cases through with
    | true => exact ih trace modes s fit keeps.2 clear
    | false =>
      simp only [Async.run, Bool.false_eq_true, if_false]
      refine ⟨modes who, ?_, ?_⟩
      · rw [Function.update_eq_self]
        exact fit
      · cases next with
        | done r => exact keeps.2
        | call r next => exact ⟨fun through => (Bool.false_ne_true through).elim, keeps⟩
        | await next => exact ⟨rfl, keeps⟩

theorem Async.run_made (through : Bool) (who : Nat) (t : Async M ε α) (s : M.State) (trace : List (Event M))
    {bound : Nat} (mine : who < bound) (made : ∀ e ∈ trace, e.who < bound) :
    ∀ e ∈ (t.run through who s trace).2.2, e.who < bound := by
  induction t generalizing s trace with
  | done r => exact made
  | call r next ih =>
    simp only [run]
    cases M.perform r s with
    | none => exact made
    | some reply => exact ih reply.1 _ _ (List.forall_mem_cons.mpr ⟨mine, made⟩)
  | await next ih =>
    cases through with
    | false => exact made
    | true => exact ih s trace made

namespace World

def Placed (C : Contract M) (m : C.Mode) : Option (Async M ε α) → Prop
  | some t => C.Rest m ∧ t.Keeps C m fun m _ => C.Final m
  | none => m = C.finished

/-- All calls follow the contract, their modes fit the state, and only calls that have been
made have done anything. -/
structure Governs (C : Contract M) (fits : List (Event M) → (Nat → C.Mode) → M.State → Prop)
    (w : World M ε α) (modes : Nat → C.Mode) : Prop where
  fit : fits w.trace modes w.state
  placed : ∀ i, Placed C (modes i) (w.pending i)
  made : ∀ e ∈ w.trace, e.who < w.tasks.length

def Governed (C : Contract M) (fits : List (Event M) → (Nat → C.Mode) → M.State → Prop)
    (w : World M ε α) : Prop := ∃ modes, w.Governs C fits modes

variable {i j : Nat} {modes : Nat → C.Mode} {w : World M ε α} {run : List (Move M ε α)} {Starts : C.Mode → Prop}

theorem pending_set_of_ne (w : World M ε α) (s : M.State) (trace : List (Event M)) (t : Option (Async M ε α))
    (apart : j ≠ i) :
    (⟨s, w.tasks.set i t, trace⟩ : World M ε α).pending j = w.pending j := by
  simp [pending, Ne.symm apart]

theorem pending_set_self (w : World M ε α) (s : M.State) (trace : List (Event M)) (t : Async M ε α)
    (inside : i < w.tasks.length) :
    (⟨s, w.tasks.set i (some t), trace⟩ : World M ε α).pending i =
      match t with
      | .done _ => none
      | t => some t := by
  cases t <;> simp [pending, inside]

theorem placed_of_stands (steady : C.Steady ok fits) {t : Async M ε α} {trace : List (Event M)} {s s' : M.State}
    {m : C.Mode} {through : Bool} (fit : fits trace (Function.update modes i m) s)
    (stands : t.Stands C (fun m _ => C.Final m) through s' m) :
    ∃ m', fits trace (Function.update modes i m') s ∧
      Placed C m' (match t with
        | .done _ => none
        | t => some t) := by
  cases t with
  | done r =>
    have final : C.Final (Function.update modes i m i) := by rw [Function.update_self]; exact stands
    have ended := steady.finish fit final
    rw [Function.update_idem] at ended
    exact ⟨C.finished, ended, rfl⟩
  | call | await => exact ⟨m, fit, stands.2⟩

theorem governed_turn (steady : C.Steady ok fits) {through : Bool} {t : Async M ε α}
    (fit : fits w.trace modes w.state) (here : w.tasks[i]? = some (some t))
    (keeps : t.Keeps C (modes i) fun m _ => C.Final m)
    (placed : ∀ j, j ≠ i → Placed C (modes j) (w.pending j))
    (made : ∀ e ∈ w.trace, e.who < w.tasks.length)
    (clear : Clear ok (w.resume through i).trace) : (w.resume through i).Governed C fits := by
  have inside : i < w.tasks.length := (List.getElem?_eq_some_iff.mp here).1
  simp only [resume, here] at clear ⊢
  obtain ⟨m, fit', stands⟩ := (steady.turns i).run t w.trace modes w.state fit keeps clear
  obtain ⟨m', fit'', mine⟩ := placed_of_stands steady fit' stands
  refine ⟨_, fit'', ?_, ?_⟩
  · intro j
    by_cases same : j = i
    · subst same
      rw [Function.update_self, pending_set_self _ _ _ _ inside]
      exact mine
    · rw [Function.update_of_ne same, pending_set_of_ne _ _ _ _ same]
      exact placed j same
  · rw [List.length_set]
    exact Async.run_made through i t w.state w.trace inside made

theorem resume_governed (steady : C.Steady ok fits) (governed : w.Governed C fits)
    (i : Nat) (clear : Clear ok (w.resume false i).trace) : (w.resume false i).Governed C fits := by
  obtain ⟨modes, fit, placed, made⟩ := governed
  cases found : w.tasks[i]? with
  | none =>
    simp only [resume, found]
    exact ⟨modes, fit, placed, made⟩
  | some slot =>
    cases slot with
    | none =>
      simp only [resume, found]
      exact ⟨modes, fit, placed, made⟩
    | some t =>
      have mine := placed i
      cases t with
      | done r =>
        have same : w.resume false i = w := by
          obtain ⟨inside, here⟩ := List.getElem?_eq_some_iff.mp found
          simp only [resume, found, Async.run]
          rw [← here, List.set_getElem_self]
        rw [same]
        exact ⟨modes, fit, placed, made⟩
      | call r next =>
        simp only [pending, found] at mine
        exact governed_turn steady fit found mine.2 (fun j _ => placed j) made clear
      | await next =>
        simp only [pending, found] at mine
        exact governed_turn steady fit found mine.2 (fun j _ => placed j) made clear

theorem pending_append (w : World M ε α) (t : Async M ε α) (apart : j ≠ w.tasks.length) :
    ({ w with tasks := w.tasks ++ [some t] } : World M ε α).pending j = w.pending j := by
  simp only [pending]
  rcases Nat.lt_or_gt_of_ne apart with low | high
  · rw [List.getElem?_append_left low]
  · rw [List.getElem?_eq_none (by simp; omega), List.getElem?_eq_none (by omega)]

theorem pending_beyond (w : World M ε α) (beyond : w.tasks.length ≤ j) : w.pending j = none := by
  simp [pending, List.getElem?_eq_none beyond]

theorem call_governed (steady : C.Steady ok fits)
    (t : Async M ε α) (m : C.Mode) (governs : w.Governs C fits modes)
    (fit : fits w.trace (Function.update modes w.tasks.length m) w.state)
    (keeps : t.Keeps C m fun m _ => C.Final m) (clear : Clear ok (w.move (.call t)).trace) :
    (w.move (.call t)).Governed C fits := by
  have here : (w.tasks ++ [some t])[w.tasks.length]? = some (some t) := by simp
  refine governed_turn steady fit here (by rw [Function.update_self]; exact keeps) ?_ ?_ clear
  · intro j apart
    rw [Function.update_of_ne apart, pending_append w t apart]
    exact governs.placed j
  · intro e inside
    rw [List.length_append]
    exact Nat.lt_add_right _ (governs.made e inside)

theorem restart_governed (sound : C.Sound ok fits) (governed : w.Governed C fits) :
    (w.move .restart).Governed C fits := by
  obtain ⟨modes, fit, placed, made⟩ := governed
  refine ⟨fun _ => C.finished, sound.restart fit ?_, ?_, ?_⟩
  · intro i
    have mine := placed i
    cases found : w.pending i with
    | none =>
      rw [found] at mine
      rw [mine]
      exact sound.finished_rest
    | some t =>
      rw [found] at mine
      exact mine.1
  · intro i
    have gone : (w.move .restart).pending i = none := by
      simp only [move, pending, List.getElem?_map]
      cases w.tasks[i]? <;> rfl
    rw [gone]
    rfl
  · simpa [move] using made

theorem resume_clear (w : World M ε α) (through : Bool) (i : Nat) (clear : Clear ok (w.resume through i).trace) :
    Clear ok w.trace := by
  unfold resume at clear
  split at clear
  · exact Async.run_clear through i _ _ _ clear
  · exact clear

theorem move_clear (w : World M ε α) (move : Move M ε α) (clear : Clear ok (w.move move).trace) :
    Clear ok w.trace := by
  cases move with
  | call t => exact resume_clear { w with tasks := w.tasks ++ [some t] } false _ clear
  | resume i => exact resume_clear w false i clear
  | alone t => exact resume_clear { w with tasks := w.tasks ++ [some t] } true _ clear
  | restart => exact clear

theorem after_clear (w : World M ε α) (run : List (Move M ε α)) (clear : Clear ok (w.after run).trace) :
    Clear ok w.trace := by
  induction run generalizing w with
  | nil => exact clear
  | cons move run ih => exact move_clear w move (ih (w.move move) clear)

def Makes (P : Async M ε α → Prop) : Move M ε α → Prop
  | .call t => P t
  | .resume _ => True
  | .alone _ => False
  | .restart => True

def schedule {ι : Type} (program : ι → Async M ε α) (turns : List (ι ⊕ Nat)) : List (Move M ε α) :=
  turns.map fun
    | .inl i => .call (program i)
    | .inr n => .resume n

theorem schedule_makes {ι : Type} (program : ι → Async M ε α) (turns : List (ι ⊕ Nat)) :
    ∀ move ∈ schedule program turns, Makes (fun t => ∃ i, t = program i) move := by
  intro move inside
  obtain ⟨turn, -, rfl⟩ := List.mem_map.mp inside
  cases turn with
  | inl i => exact ⟨i, rfl⟩
  | inr n => exact trivial

def oneByOne {ι : Type} (turns : Nat) (calls : List ι) : List (ι ⊕ Nat) :=
  calls.zipIdx.flatMap fun (i, n) => .inl i :: List.replicate turns (.inr n)

theorem after_induct {I : World M ε α → Prop} {P : Move M ε α → Prop}
    (step : ∀ {w move}, I w → P move → Clear ok (w.move move).trace → I (w.move move)) (holds : I w)
    (makes : ∀ move ∈ run, P move) (clear : Clear ok (w.after run).trace) :
    I (w.after run) := by
  induction run generalizing w with
  | nil => exact holds
  | cons move run ih =>
    have first := step holds (makes move List.mem_cons_self) (after_clear (w.move move) run clear)
    exact ih first (fun move inside => makes move (List.mem_cons_of_mem _ inside)) clear

theorem move_governed_from (steady : C.Steady ok fits)
    (begins : ∀ {trace modes s i m}, fits trace modes s → modes i = C.finished → (∀ e ∈ trace, e.who < i) → Starts m →
      fits trace (Function.update modes i m) s)
    (governed : w.Governed C fits) {move : Move M ε α}
    (made : Makes (fun t => ∃ m, Starts m ∧ t.Keeps C m fun m _ => C.Final m) move) (goes : move ≠ .restart)
    (here : Clear ok (w.move move).trace) : (w.move move).Governed C fits := by
  cases move with
  | call t =>
    obtain ⟨m, starts, keeps⟩ := made
    obtain ⟨modes, governs⟩ := governed
    have idle := governs.placed w.tasks.length
    rw [pending_beyond w (Nat.le_refl _)] at idle
    exact call_governed steady t m governs (begins governs.fit idle governs.made starts) keeps here
  | resume i => exact resume_governed steady governed i here
  | alone t => exact made.elim
  | restart => exact (goes rfl).elim

theorem after_governed_from (sound : C.Sound ok fits)
    (begins : ∀ {trace modes s i m}, fits trace modes s → modes i = C.finished → (∀ e ∈ trace, e.who < i) → Starts m →
      fits trace (Function.update modes i m) s)
    (governed : w.Governed C fits)
    (makes : ∀ move ∈ run, Makes (fun t => ∃ m, Starts m ∧ t.Keeps C m fun m _ => C.Final m) move)
    (clear : Clear ok (w.after run).trace) : (w.after run).Governed C fits := by
  refine after_induct (I := fun w => w.Governed C fits) (fun {w move} governed made here => ?_) governed makes clear
  by_cases killed : move = .restart
  · subst killed
    exact restart_governed sound governed
  · exact move_governed_from sound.toSteady begins governed made killed here

theorem after_governed (sound : C.Sound ok fits) (governed : w.Governed C fits)
    (makes : ∀ move ∈ run, Makes (fun t => t.Keeps C C.finished fun m _ => C.Final m) move)
    (clear : Clear ok (w.after run).trace) : (w.after run).Governed C fits := by
  refine after_governed_from sound (fun {trace modes s i m} fit idle _ (starts : m = C.finished) => ?_) governed
    (fun move inside => ?_) clear
  · rw [starts, Function.update_eq_self_iff.mpr idle.symm]
    exact fit
  · have made := makes move inside
    cases move with
    | call t => exact ⟨C.finished, rfl, made⟩
    | resume | restart => exact trivial
    | alone t => exact made.elim

theorem after_steady (steady : C.Steady ok fits)
    (begins : ∀ {trace modes s i m}, fits trace modes s → modes i = C.finished → (∀ e ∈ trace, e.who < i) → Starts m →
      fits trace (Function.update modes i m) s)
    (governed : w.Governed C fits)
    (makes : ∀ move ∈ run, Makes (fun t => ∃ m, Starts m ∧ t.Keeps C m fun m _ => C.Final m) move ∧ move ≠ .restart)
    (clear : Clear ok (w.after run).trace) : (w.after run).Governed C fits :=
  after_induct (I := fun w => w.Governed C fits)
    (fun governed made here => move_governed_from steady begins governed made.1 made.2 here) governed makes clear

theorem start_governed {s : M.State} (fit : fits [] (fun _ => C.finished) s) :
    (start s : World M ε α).Governed C fits :=
  ⟨_, fit, fun i => by simp [start, pending, Placed], by simp [start]⟩

end World

abbrev Contract.free (M : Machine) : Contract M where
  Mode := Unit
  finished := ()
  Permit _ _ := True
  Next _ _ _ _ := True
  Rest _ := True
  Final _ := True

theorem Async.keeps_free (t : Async M ε α) (m : Unit) : t.Keeps (Contract.free M) m fun _ _ => True := by
  induction t with
  | done r => exact trivial
  | call r next ih => exact ⟨trivial, fun a _ _ => ih a⟩
  | await next ih => exact ⟨trivial, ih⟩

theorem World.after_keeps {ok : List (Event M) → Event M → Prop} {I : List (Event M) → M.State → Prop}
    (step : ∀ {trace who r s a s'}, I trace s → M.perform r s = some (a, s') → ok trace ⟨who, r, s, s'⟩ →
      I (⟨who, r, s, s'⟩ :: trace) s')
    (restart : ∀ {trace s}, I trace s → I trace (M.restart s)) (start : I [] s)
    {run : List (Move M ε α)} (makes : ∀ move ∈ run, Makes (fun _ => True) move)
    (clear : Clear ok ((World.start s).after run).trace) :
    I ((World.start s).after run).trace ((World.start s).after run).state := by
  have sound : (Contract.free M).Sound ok fun trace _ s => I trace s :=
    { turns := fun who =>
        { step := fun holds _ answered fine => ⟨(), trivial, step holds answered fine⟩
          wait := fun _ _ _ => trivial }
      finish := fun holds _ => holds
      restart := fun holds _ => restart holds
      finished_rest := trivial }
  have follow : ∀ move ∈ run, Makes (fun t => t.Keeps (Contract.free M) () fun _ _ => True) move := by
    intro move inside
    cases move with
    | call t => exact Async.keeps_free t ()
    | resume | restart => exact trivial
    | alone t => exact (makes _ inside).elim
  obtain ⟨modes, governs⟩ := World.after_governed sound (World.start_governed start) follow clear
  exact governs.fit

section Marks

/-- The mode of a call noted something of the events so far, whatever the others do. -/
structure Contract.Marks (C : Contract M) (ok : List (Event M) → Event M → Prop)
    (noted : List (Event M) → Nat → C.Mode → Prop) : Prop where
  step : ∀ {trace m who r s a s'}, noted trace who m → C.Permit m r → M.perform r s = some (a, s') →
    ok trace ⟨who, r, s, s'⟩ → ∃ m', C.Next m r a m' ∧ noted (⟨who, r, s, s'⟩ :: trace) who m'
  others : ∀ {trace i m e}, noted trace i m → e.who ≠ i → noted (e :: trace) i m
  begins : ∀ {trace i}, (∀ e ∈ trace, e.who < i) → noted trace i C.finished

variable {noted : List (Event M) → Nat → C.Mode → Prop}

theorem Contract.Marks.run (marks : C.Marks ok noted) {through : Bool} {who : Nat} (t : Async M ε α) (s : M.State)
    (trace : List (Event M)) {m : C.Mode} {post : C.Mode → Except ε α → Prop} (keeps : t.Keeps C m post)
    (mine : noted trace who m) (clear : Clear ok (t.run through who s trace).2.2) :
    ∃ m', (t.run through who s trace).1.Keeps C m' post ∧ noted (t.run through who s trace).2.2 who m' := by
  induction t generalizing s trace m with
  | done r => exact ⟨m, keeps, mine⟩
  | call r next ih =>
    cases answer : M.perform r s with
    | none =>
      simp only [Async.run, answer]
      exact ⟨m, keeps, mine⟩
    | some reply =>
      rw [Async.run_call answer] at clear ⊢
      have now := (Async.run_clear through who _ _ _ clear).1
      obtain ⟨m', moved, mine'⟩ := marks.step mine keeps.1 answer now
      exact ih reply.1 _ _ (keeps.2 _ m' moved) mine' clear
  | await next ih =>
    cases through with
    | true => exact ih s trace keeps.2 mine clear
    | false => exact ⟨m, keeps.2, mine⟩

theorem Contract.Marks.run_others (marks : C.Marks ok noted) {through : Bool} {who i : Nat} (apart : who ≠ i)
    (t : Async M ε α) (s : M.State) (trace : List (Event M)) {m : C.Mode} (his : noted trace i m) :
    noted (t.run through who s trace).2.2 i m := by
  induction t generalizing s trace with
  | done r => exact his
  | call r next ih =>
    cases answer : M.perform r s with
    | none =>
      simp only [Async.run, answer]
      exact his
    | some reply =>
      rw [Async.run_call answer]
      exact ih reply.1 _ _ (marks.others his apart)
  | await next ih =>
    cases through with
    | true => exact ih s trace his
    | false => exact his

namespace World

/-- Every call there is follows the contract from a mode that noted the truth. -/
structure Marked (C : Contract M) (noted : List (Event M) → Nat → C.Mode → Prop) (w : World M ε α) : Prop where
  calls : ∀ {i t}, w.tasks[i]? = some (some t) → ∃ m, t.Keeps C m (fun m _ => C.Final m) ∧ noted w.trace i m
  made : ∀ e ∈ w.trace, e.who < w.tasks.length

variable {w : World M ε α}

theorem resume_marked (marks : C.Marks ok noted) (marked : w.Marked C noted) (through : Bool) (i : Nat)
    (clear : Clear ok (w.resume through i).trace) : (w.resume through i).Marked C noted := by
  unfold resume at clear ⊢
  split at clear
  · rename_i t here
    have inside : i < w.tasks.length := (List.getElem?_eq_some_iff.mp here).1
    obtain ⟨m, keeps, mine⟩ := marked.calls here
    constructor
    · intro j t' found
      by_cases same : j = i
      · subst same
        have now : (t.run through j w.state w.trace).1 = t' := by simpa [inside] using found
        subst now
        exact marks.run t w.state w.trace keeps mine clear
      · obtain ⟨m', keeps', his⟩ := marked.calls (by simpa [Ne.symm same] using found)
        exact ⟨m', keeps', marks.run_others (Ne.symm same) t w.state w.trace his⟩
    · rw [List.length_set]
      exact Async.run_made through i t w.state w.trace inside marked.made
  · exact marked

theorem move_marked (marks : C.Marks ok noted) (marked : w.Marked C noted) {move : Move M ε α}
    (makes : Makes (fun t => t.Keeps C C.finished fun m _ => C.Final m) move) (clear : Clear ok (w.move move).trace) :
    (w.move move).Marked C noted := by
  cases move with
  | call t =>
    refine resume_marked marks ⟨fun {i t'} found => ?_, fun e inside => ?_⟩ false _ clear
    · rcases Nat.lt_trichotomy i w.tasks.length with old | new | beyond
      · exact marked.calls (by simpa [List.getElem?_append_left old] using found)
      · subst new
        have now : t = t' := by simpa using found
        subst now
        exact ⟨C.finished, makes, marks.begins marked.made⟩
      · rw [List.getElem?_eq_none (by simp; omega)] at found
        cases found
    · rw [List.length_append]
      exact Nat.lt_add_right _ (marked.made e inside)
  | resume i => exact resume_marked marks marked false i clear
  | alone t => exact makes.elim
  | restart =>
    refine ⟨fun found => ?_, by simpa [World.move] using marked.made⟩
    simp only [World.move, List.getElem?_map, Option.map_eq_some_iff] at found
    obtain ⟨_, _, gone⟩ := found
    cases gone

theorem after_marked (marks : C.Marks ok noted) (marked : w.Marked C noted)
    {run : List (Move M ε α)} (makes : ∀ move ∈ run, Makes (fun t => t.Keeps C C.finished fun m _ => C.Final m) move)
    (clear : Clear ok (w.after run).trace) : (w.after run).Marked C noted :=
  after_induct (I := fun w => w.Marked C noted) (fun marked makes clear => move_marked marks marked makes clear) marked makes
    clear

theorem after_finished (marks : C.Marks ok noted) {s : M.State} {run : List (Move M ε α)}
    (makes : ∀ move ∈ run, Makes (fun t => t.Keeps C C.finished fun m _ => C.Final m) move)
    (clear : Clear ok ((start s).after run).trace) {i : Nat} {r : Except ε α}
    (ended : ((start s).after run).tasks[i]? = some (some (.done r))) :
    ∃ m, C.Final m ∧ noted ((start s).after run).trace i m := by
  have begun : (start s : World M ε α).Marked C noted := ⟨by simp [start], by simp [start]⟩
  exact (after_marked marks begun makes clear).calls ended

end World
end Marks

end Echo.Lib
