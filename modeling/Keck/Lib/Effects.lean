import Mathlib.Logic.Function.Basic
import Mathlib.Data.Set.Defs
/-!
# Programs over calls that may fail

A program is a tree: it returns, or it makes a call and goes on with the
answer. `run` executes a program alone, with `faults` saying for each call how
it fails; `Sys.exec` executes several programs in turns, one call at a time,
with the schedule choosing whose turn it is and how that call fails.

A program is described in two ways: by a `Triple`, and by the operations it
`Uses`. What all used operations keep, every execution keeps (`Triple.of_uses`,
`Sys.inv_exec`).
-/

namespace Keck.Lib.Effects

/-- A program over operations `Op`, where `op` is answered by an `Ans op`. -/
inductive Prog {Op : Type} (Ans : Op → Type) (α : Type) : Type
  | ret (a : α)
  | call (op : Op) (next : Ans op → Prog Ans α)

variable {Op F S ι ε α β : Type} {Ans : Op → Type}

namespace Prog

protected def bind : Prog Ans α → (α → Prog Ans β) → Prog Ans β
  | ret a, k => k a
  | call op next, k => call op fun x => (next x).bind k

instance : Monad (Prog Ans) where
  pure := ret
  bind := Prog.bind

/-- One call, returning its answer. -/
def request (op : Op) : Prog Ans (Ans op) := call op ret

/-- `if err := p; err != nil { return fail(err) }`, then `rest`. -/
def orReturn (p : Prog Ans (Option ε)) (fail : ε → α) (rest : Prog Ans α) : Prog Ans α :=
  p >>= fun
    | some e => ret (fail e)
    | none => rest

@[simp] theorem ret_bind (a : α) (k : α → Prog Ans β) : (ret a : Prog Ans α) >>= k = k a := rfl

@[simp] theorem call_bind (op : Op) (next : Ans op → Prog Ans α) (k : α → Prog Ans β) :
    call op next >>= k = call op fun x => next x >>= k := rfl

@[simp] theorem request_bind (op : Op) (k : Ans op → Prog Ans β) :
    (request op : Prog Ans (Ans op)) >>= k = call op k := rfl

@[simp] theorem pure_eq (a : α) : (pure a : Prog Ans α) = ret a := rfl

/-! ## The calls a program makes -/

/-- Every call the program can make, whatever the answers, satisfies `allowed`. -/
def Uses (allowed : Op → Prop) : Prog Ans α → Prop
  | ret _ => True
  | call op next => allowed op ∧ ∀ x, (next x).Uses allowed

@[simp] theorem uses_call {allowed : Op → Prop} {op : Op} {next : Ans op → Prog Ans α} :
    (call op next).Uses allowed ↔ allowed op ∧ ∀ x, (next x).Uses allowed := Iff.rfl

theorem Uses.bind {allowed : Op → Prop} {p : Prog Ans α} {k : α → Prog Ans β} (hp : p.Uses allowed)
    (hk : ∀ a, (k a).Uses allowed) : (p >>= k).Uses allowed := by
  induction p with
  | ret a => exact hk a
  | call op next ih => exact ⟨hp.1, fun x => ih x (hp.2 x)⟩

theorem Uses.orReturn {allowed : Op → Prop} {p : Prog Ans (Option ε)} {fail : ε → α} {rest : Prog Ans α}
    (hp : p.Uses allowed) (hr : rest.Uses allowed) : (p.orReturn fail rest).Uses allowed := by
  apply hp.bind
  intro e
  cases e with
  | none => exact hr
  | some e => trivial

theorem Uses.mono {allowed other : Op → Prop} {p : Prog Ans α} (hp : p.Uses allowed)
    (h : ∀ op, allowed op → other op) : p.Uses other := by
  induction p with
  | ret a => trivial
  | call op next ih => exact ⟨h op hp.1, fun x => ih x (hp.2 x)⟩

theorem Uses.and {allowed other : Op → Prop} {p : Prog Ans α} (hp : p.Uses allowed) (hp' : p.Uses other) :
    p.Uses fun op => allowed op ∧ other op := by
  induction p with
  | ret a => trivial
  | call op next ih => exact ⟨⟨hp.1, hp'.1⟩, fun x => ih x (hp.2 x) (hp'.2 x)⟩

/-- A call satisfying `last` is always the program's last one. -/
def LastCall (last : Op → Prop) : Prog Ans α → Prop
  | ret _ => True
  | call op next => (last op → ∀ x, ∃ a, next x = ret a) ∧ ∀ x, (next x).LastCall last

theorem LastCall.bind {last : Op → Prop} {p : Prog Ans α} {k : α → Prog Ans β}
    (hp : p.Uses fun op => ¬last op) (hk : ∀ a, (k a).LastCall last) : (p >>= k).LastCall last := by
  induction p with
  | ret a => exact hk a
  | call op next ih => exact ⟨fun h => absurd h hp.1, fun x => ih x (hp.2 x)⟩

end Prog

/-! ## Running one program -/

section Run
variable (handle : (op : Op) → F → S → Ans op × S) (faults : Op → F)

/-- Run a program alone: `handle` answers each call, failing it as `faults`
says. -/
def run : Prog Ans α → S → α × S
  | .ret a, s => (a, s)
  | .call op next, s => run (next (handle op (faults op) s).1) (handle op (faults op) s).2

@[simp] theorem run_ret (a : α) (s : S) : run handle faults (.ret a : Prog Ans α) s = (a, s) := rfl

@[simp] theorem run_call (op : Op) (next : Ans op → Prog Ans α) (s : S) :
    run handle faults (.call op next) s =
      run handle faults (next (handle op (faults op) s).1) (handle op (faults op) s).2 := rfl

theorem run_bind (p : Prog Ans α) (k : α → Prog Ans β) (s : S) :
    run handle faults (p >>= k) s =
      run handle faults (k (run handle faults p s).1) (run handle faults p s).2 := by
  induction p generalizing s with
  | ret a => rfl
  | call op next ih => exact ih _ _

/-- From every state in `P`, the program ends with a result and a state in `Q`. -/
def Triple (P : S → Prop) (p : Prog Ans α) (Q : α → S → Prop) : Prop :=
  ∀ s, P s → Q (run handle faults p s).1 (run handle faults p s).2

variable {handle faults} {P P' : S → Prop} {Q Q' : α → S → Prop} {R : β → S → Prop}

theorem Triple.ret {a : α} (h : ∀ s, P s → Q a s) : Triple handle faults P (.ret a : Prog Ans α) Q := h

theorem Triple.conseq {p : Prog Ans α} (hp : Triple handle faults P p Q) (hP : ∀ s, P' s → P s)
    (hQ : ∀ a s, Q a s → Q' a s) : Triple handle faults P' p Q' :=
  fun s hs => hQ _ _ (hp s (hP s hs))

theorem Triple.bind {p : Prog Ans α} {k : α → Prog Ans β} (hp : Triple handle faults P p Q)
    (hk : ∀ a, Triple handle faults (Q a) (k a) R) : Triple handle faults P (p >>= k) R := by
  intro s hs
  rw [run_bind]
  exact hk _ _ (hp s hs)

/-- A step that may fail: on failure the result is `fail e`, otherwise `rest`
goes on. -/
theorem Triple.orReturn {p : Prog Ans (Option ε)} {fail : ε → β} {rest : Prog Ans β} {M : S → Prop}
    (hp : Triple handle faults P p fun e s => match e with
      | some e => R (fail e) s
      | none => M s)
    (hr : Triple handle faults M rest R) : Triple handle faults P (p.orReturn fail rest) R := by
  unfold Prog.orReturn
  refine Triple.bind hp ?_
  intro e
  cases e with
  | some e => exact Triple.ret fun s hs => hs
  | none => exact hr

/-- The same for a postcondition that says nothing about failures. -/
theorem Triple.andThen {p : Prog Ans (Option ε)} {fail : ε → β} {rest : Prog Ans β} {M : S → Prop}
    (hp : Triple handle faults P p fun e s => e = none → M s) (hfail : ∀ e s, R (fail e) s)
    (hr : Triple handle faults M rest R) : Triple handle faults P (p.orReturn fail rest) R := by
  refine Triple.orReturn (hp.conseq (fun s hs => hs) ?_) hr
  intro e s h
  cases e with
  | none => exact h rfl
  | some e => exact hfail e s

/-- A step that does not fail. -/
theorem Triple.orReturn_of_none {p : Prog Ans (Option ε)} {fail : ε → β} {rest : Prog Ans β} {M : S → Prop}
    (hp : Triple handle faults P p fun e s => e = none ∧ M s) (hr : Triple handle faults M rest R) :
    Triple handle faults P (p.orReturn fail rest) R := by
  refine Triple.orReturn (hp.conseq (fun s hs => hs) ?_) hr
  intro e s h
  rw [h.1]
  exact h.2

/-- What every used operation keeps, the program keeps. -/
theorem Triple.of_uses {allowed : Op → Prop} {p : Prog Ans α} (hp : p.Uses allowed)
    (h : ∀ op s, allowed op → P s → P (handle op (faults op) s).2) :
    Triple handle faults P p fun _ => P := by
  induction p with
  | ret a => exact fun s hs => hs
  | call op next ih => exact fun s hs => ih _ (hp.2 _) _ (h op s hp.1 hs)

end Run

/-! ## Interleaving several programs -/

/-- Programs `threads i`, each at some point of its execution, over one state. -/
structure Sys {Op : Type} (Ans : Op → Type) (ι α S : Type) where
  threads : ι → Prog Ans α
  state : S

namespace Sys
variable [DecidableEq ι] (handle : (op : Op) → F → S → Ans op × S)

/-- Thread `i` makes its next call, which fails as `f` says. A thread that has
returned does nothing. -/
def step (sys : Sys Ans ι α S) (turn : ι × F) : Sys Ans ι α S :=
  match sys.threads turn.1 with
  | .ret _ => sys
  | .call op next =>
    ⟨Function.update sys.threads turn.1 (next (handle op turn.2 sys.state).1), (handle op turn.2 sys.state).2⟩

/-- The turns of a schedule, in order. -/
def exec (sys : Sys Ans ι α S) (schedule : List (ι × F)) : Sys Ans ι α S :=
  schedule.foldl (step handle) sys

variable {handle} {sys : Sys Ans ι α S} {i j : ι} {f : F}

theorem exec_concat (schedule : List (ι × F)) (turn : ι × F) :
    sys.exec handle (schedule ++ [turn]) = (sys.exec handle schedule).step handle turn := by
  simp [exec]

theorem step_ret {a : α} (h : sys.threads i = .ret a) : sys.step handle (i, f) = sys := by
  simp [step, h]

theorem step_call {op : Op} {next : Ans op → Prog Ans α} (h : sys.threads i = .call op next) :
    sys.step handle (i, f) =
      ⟨Function.update sys.threads i (next (handle op f sys.state).1), (handle op f sys.state).2⟩ := by
  simp [step, h]

theorem threads_step_of_ne (h : j ≠ i) : (sys.step handle (i, f)).threads j = sys.threads j := by
  unfold step
  split
  · rfl
  · exact Function.update_of_ne h _ _

/-- A thread uses in the rest of its execution what it uses in all of it. -/
theorem uses_step {allowed : Op → Prop} (h : (sys.threads j).Uses allowed) :
    ((sys.step handle (i, f)).threads j).Uses allowed := by
  by_cases hj : j = i
  · subst hj
    cases hp : sys.threads j with
    | ret a => rw [step_ret hp]; exact h
    | call op next =>
      rw [hp] at h
      rw [step_call hp]
      simpa using h.2 _
  · rw [threads_step_of_ne hj]
    exact h

/-- What every turn keeps, every schedule keeps. -/
theorem inv_exec {J : Sys Ans ι α S → Prop} (hstep : ∀ sys turn, J sys → J (sys.step handle turn))
    (schedule : List (ι × F)) (h : J sys) : J (sys.exec handle schedule) := by
  induction schedule generalizing sys with
  | nil => exact h
  | cons turn schedule ih => exact ih (hstep sys turn h)

/-! ### What the calls do, in order -/

section Trace
variable {E A : Type} (handle) (emit : (op : Op) → F → S → List E)

/-- The events of a turn, under the thread's name. -/
def emitted (sys : Sys Ans ι α S) (turn : ι × F) : List (ι × E) :=
  match sys.threads turn.1 with
  | .ret _ => []
  | .call op _ => (emit op turn.2 sys.state).map (turn.1, ·)

/-- The events of a schedule, in the order they happen. -/
def trace (sys : Sys Ans ι α S) : List (ι × F) → List (ι × E)
  | [] => []
  | turn :: schedule => sys.emitted emit turn ++ (sys.step handle turn).trace schedule

/-- The events of one thread. -/
def doneBy (i : ι) (events : List (ι × E)) : List E := (events.filter fun e => e.1 = i).map (·.2)

variable {handle emit}

theorem trace_append (schedule later : List (ι × F)) :
    sys.trace handle emit (schedule ++ later) =
      sys.trace handle emit schedule ++ (sys.exec handle schedule).trace handle emit later := by
  induction schedule generalizing sys with
  | nil => rfl
  | cons turn schedule ih =>
    rw [List.cons_append, trace, trace, ih, List.append_assoc]
    rfl

omit [DecidableEq ι] in
theorem emitted_ret {a : α} (h : sys.threads i = .ret a) : sys.emitted emit (i, f) = [] := by
  simp [emitted, h]

omit [DecidableEq ι] in
theorem emitted_call {op : Op} {next : Ans op → Prog Ans α} (h : sys.threads i = .call op next) :
    sys.emitted emit (i, f) = (emit op f sys.state).map (i, ·) := by
  simp [emitted, h]

theorem doneBy_append (events later : List (ι × E)) :
    doneBy i (events ++ later) = doneBy i events ++ doneBy i later := by
  simp [doneBy]

theorem doneBy_map (events : List E) : doneBy i (events.map (i, ·)) = events := by
  simp [doneBy, List.filter_map, Function.comp_def]

/-- A turn does nothing in another thread's name. -/
theorem doneBy_emitted_of_ne (h : j ≠ i) : doneBy j (sys.emitted emit (i, f)) = [] := by
  unfold emitted
  split
  · rfl
  · simp [doneBy, List.filter_map, Function.comp_def, Ne.symm h]

/-- What holds at the start, and every turn keeps together with the events so
far, holds after every schedule. -/
theorem inv_trace {J : Sys Ans ι α S → List (ι × E) → Prop} (h : J sys [])
    (hstep : ∀ sys events turn, J sys events → J (sys.step handle turn) (events ++ sys.emitted emit turn))
    (schedule : List (ι × F)) : J (sys.exec handle schedule) (sys.trace handle emit schedule) := by
  -- For any events so far, not only none.
  have main : ∀ (schedule : List (ι × F)) (sys : Sys Ans ι α S) (events : List (ι × E)), J sys events →
      J (sys.exec handle schedule) (events ++ sys.trace handle emit schedule) := by
    intro schedule
    induction schedule with
    | nil => intro sys events h; rw [trace, List.append_nil]; exact h
    | cons turn schedule ih =>
      intro sys events h
      rw [trace, ← List.append_assoc]
      exact ih _ _ (hstep sys events turn h)
  exact main schedule sys [] h

/-- What each call of a thread keeps together with the thread's events, holds
of the thread after every schedule, whatever the others do. -/
theorem inv_thread {J : Prog Ans α → List E → Prop} (h : J (sys.threads i) [])
    (hcall : ∀ op next f s done, J (.call op next) done → J (next (handle op f s).1) (done ++ emit op f s))
    (schedule : List (ι × F)) :
    J ((sys.exec handle schedule).threads i) (doneBy i (sys.trace handle emit schedule)) := by
  refine inv_trace (J := fun sys events => J (sys.threads i) (doneBy i events)) h (fun sys events turn h => ?_) schedule
  obtain ⟨j, f⟩ := turn
  rw [doneBy_append]
  by_cases hij : i = j
  · subst hij
    cases hp : sys.threads i with
    | ret a =>
      rw [step_ret hp, emitted_ret hp]
      simpa [doneBy] using h
    | call op next =>
      rw [hp] at h
      rw [step_call hp, emitted_call hp, doneBy_map]
      simpa using hcall op next f sys.state _ h
  · rw [threads_step_of_ne hij, doneBy_emitted_of_ne hij, List.append_nil]
    exact h

theorem uses_exec {allowed : Op → Prop} (h : (sys.threads i).Uses allowed) (schedule : List (ι × F)) :
    ((sys.exec handle schedule).threads i).Uses allowed :=
  inv_exec (J := fun sys => (sys.threads i).Uses allowed) (fun _ _ h => uses_step h) schedule h

/-- All events of a thread are events of operations it uses. -/
theorem forall_doneBy_of_uses {allowed : Op → Prop} {P : E → Prop} (h : (sys.threads i).Uses allowed)
    (hemit : ∀ op f s, allowed op → ∀ e ∈ emit op f s, P e) (schedule : List (ι × F)) :
    ∀ e ∈ doneBy i (sys.trace handle emit schedule), P e := by
  refine (inv_thread (J := fun (p : Prog Ans α) done => p.Uses allowed ∧ ∀ e ∈ done, P e) ⟨h, by simp⟩ ?_ schedule).2
  rintro op next f s done ⟨⟨hop, hnext⟩, hdone⟩
  refine ⟨hnext _, fun e he => ?_⟩
  rcases List.mem_append.1 he with he | he
  · exact hdone e he
  · exact hemit op f s hop e he

theorem mem_doneBy {events : List (ι × E)} {e : E} : e ∈ doneBy i events ↔ (i, e) ∈ events := by
  simp [doneBy]

/-- If every call does to a part of the state what its events say, every
interleaving does to it what its events say, one after the other. -/
theorem part_exec {part : S → A} {apply : A → E → A}
    (h : ∀ op f s, part (handle op f s).2 = (emit op f s).foldl apply (part s)) (schedule : List (ι × F)) :
    part (sys.exec handle schedule).state =
      ((sys.trace handle emit schedule).map (·.2)).foldl apply (part sys.state) := by
  refine inv_trace (J := fun sys' events => part sys'.state = (events.map (·.2)).foldl apply (part sys.state)) rfl
    (fun sys' events turn ih => ?_) schedule
  rw [List.map_append, List.foldl_append, ← ih]
  obtain ⟨i, f⟩ := turn
  cases hp : sys'.threads i with
  | ret a => rw [step_ret hp, emitted_ret hp]; rfl
  | call op next =>
    rw [step_call hp, emitted_call hp, h]
    simp [Function.comp_def]

end Trace

end Sys

end Keck.Lib.Effects
