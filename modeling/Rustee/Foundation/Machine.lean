/-
# Rustee.Foundation.Machine -- guarded machines and the runs they have

A component used by many parties at once is a state, the inputs that can reach it
(which party acts, on what, and everything its environment decides) and a partial
step.  `none` is an input that is blocked in that state, so nothing happened;
`some (after, output)` is one indivisible effect together with what its caller sees.
An interleaving is a list of inputs, so a statement about every interleaving is a
statement about every `Run`.

A run carries the trace of its inputs and outputs, oldest first.  Histories are read
off that trace instead of being threaded through the state, so the state of a machine
stays what the component really stores.

`Run allowed` keeps only the runs whose every step met `allowed` in the state before it and
with the trace so far; `Reaches` is the unrestricted case.  The rules are

* `Run.invariant`: what holds initially and survives a step holds after every run;
* `Run.mono`: a restricted run is a run under anything weaker;
* `Leads.preserves`: what a step preserves holds in every later state;
* `exists_run_exec`: a concrete schedule that executes is a run.

A state that has a place for each party is a function; a step that moves one party updates it, and
`update_eq_iff` says where a party is then.
-/
import Mathlib.Data.List.Basic
import Mathlib.Logic.Function.Basic

namespace Rustee.Foundation

set_option autoImplicit false

universe u v w

structure Machine (State : Type u) (Input : Type v) (Output : Type w) where
  initial : State → Prop
  step : State → Input → Option (State × Output)

namespace Machine

variable {State : Type u} {Input : Type v} {Output : Type w}
variable {M : Machine State Input Output}
variable {allowed : State → List (Input × Output) → Input → Prop}

/-! ## Runs -/

/-- The states a machine reaches by steps that met `allowed`, each with the trace of the
inputs taken and the outputs seen on the way. -/
inductive Run (M : Machine State Input Output)
    (allowed : State → List (Input × Output) → Input → Prop) : State → List (Input × Output) → Prop
  | start {s : State} (initial : M.initial s) : Run M allowed s []
  | next {before after : State} {trace : List (Input × Output)} {input : Input}
      {output : Output} (run : Run M allowed before trace) (admitted : allowed before trace input)
      (stepped : M.step before input = some (after, output)) :
      Run M allowed after (trace ++ [(input, output)])

/-- Every run, with no restriction on its steps. -/
def Reaches (M : Machine State Input Output) : State → List (Input × Output) → Prop :=
  M.Run fun _ _ _ => True

/-- **The invariant rule.**  The step case may use that its state is reached, so an
invariant can rest on one proved before it. -/
theorem Run.invariant {I : State → List (Input × Output) → Prop}
    (start : ∀ s, M.initial s → I s [])
    (next : ∀ before after trace input output, M.Run allowed before trace → I before trace →
      allowed before trace input → M.step before input = some (after, output) →
      I after (trace ++ [(input, output)]))
    {s : State} {trace : List (Input × Output)} (run : M.Run allowed s trace) : I s trace := by
  induction run with
  | start initial => exact start _ initial
  | next run admitted stepped ih => exact next _ _ _ _ _ run ih admitted stepped

theorem Run.mono {wider : State → List (Input × Output) → Input → Prop}
    (le : ∀ s trace i, allowed s trace i → wider s trace i)
    {s : State} {trace : List (Input × Output)} (run : M.Run allowed s trace) :
    M.Run wider s trace := by
  induction run with
  | start initial => exact .start initial
  | next _ admitted stepped ih => exact .next ih (le _ _ _ admitted) stepped

/-! ## Later states -/

/-- The steps of `trace` lead from one state to another. -/
inductive Path (M : Machine State Input Output) :
    State → List (Input × Output) → State → Prop
  | refl (s : State) : Path M s [] s
  | next {earlier before after : State} {trace : List (Input × Output)} {input : Input}
      {output : Output} (path : Path M earlier trace before)
      (stepped : M.step before input = some (after, output)) :
      Path M earlier (trace ++ [(input, output)]) after

/-- `later` is reached from `earlier` by any number of steps. -/
def Leads (M : Machine State Input Output) (earlier later : State) : Prop :=
  ∃ trace, M.Path earlier trace later

/-- What a step preserves, later states have. -/
theorem Leads.preserves {P : State → Prop}
    (next : ∀ before after input output, P before → M.step before input = some (after, output) →
      P after) {earlier later : State} (leads : M.Leads earlier later) (held : P earlier) :
    P later := by
  obtain ⟨trace, path⟩ := leads
  induction path with
  | refl => exact held
  | next _ stepped ih => exact next _ _ _ _ ih stepped

/-! ## Executing a schedule -/

/-- The state and trace after the inputs of a schedule, if none of them blocks and each
meets `allowed`. -/
def exec (M : Machine State Input Output) (allowed : State → List (Input × Output) → Input → Prop)
    [∀ s trace i, Decidable (allowed s trace i)] :
    State → List (Input × Output) → List Input → Option (State × List (Input × Output))
  | s, trace, [] => some (s, trace)
  | s, trace, input :: rest =>
    if allowed s trace input then
      match M.step s input with
      | none => none
      | some (after, output) => M.exec allowed after (trace ++ [(input, output)]) rest
    else none

theorem run_exec [∀ s trace i, Decidable (allowed s trace i)] {s : State}
    {trace : List (Input × Output)} (reached : M.Run allowed s trace) {inputs : List Input}
    {done : State × List (Input × Output)} (executed : M.exec allowed s trace inputs = some done) :
    M.Run allowed done.1 done.2 := by
  induction inputs generalizing s trace with
  | nil =>
    simp only [exec, Option.some.injEq] at executed
    subst executed
    exact reached
  | cons input rest ih =>
    simp only [exec] at executed
    split at executed
    · rename_i admitted
      split at executed
      · cases executed
      · rename_i after output stepped
        exact ih (reached.next admitted stepped) executed
    · cases executed

/-- A schedule that executes and passes a check shows a run with what was checked. -/
theorem exists_run_exec (M : Machine State Input Output)
    (allowed : State → List (Input × Output) → Input → Prop)
    [∀ s trace i, Decidable (allowed s trace i)] {s : State} (initial : M.initial s)
    (inputs : List Input) (P : State → List (Input × Output) → Prop)
    [∀ s trace, Decidable (P s trace)]
    (checked : (M.exec allowed s [] inputs).any (fun done => P done.1 done.2) = true) :
    ∃ s trace, M.Run allowed s trace ∧ P s trace := by
  cases executed : M.exec allowed s [] inputs with
  | none => simp [executed] at checked
  | some done =>
    refine ⟨done.1, done.2, run_exec (.start initial) executed, ?_⟩
    simpa [executed] using checked

end Machine

/-! ## One party moves -/

theorem update_eq_iff {Party : Type u} {Place : Type v} [DecidableEq Party]
    {places : Party → Place} {party other : Party} {next found : Place} :
    Function.update places party next other = found ↔
      other = party ∧ next = found ∨ other ≠ party ∧ places other = found := by
  by_cases same : other = party
  · subst same
    simp
  · simp [same]

end Rustee.Foundation
