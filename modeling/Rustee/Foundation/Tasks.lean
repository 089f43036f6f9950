/-
# Rustee.Foundation.Tasks -- many callers of one store

A call is a `Future`: it waits for one operation at a time and goes on with the answer.  A pool
has a store and what every caller has still to do; a step starts a call or serves the operation a
caller waits for, in one piece and as its `choice` says.  So the runs of a pool are all
interleavings of the single operations of any number of callers, and a caller that is never served
again has crashed where it stands.

The trace shows what each step led to: the operation its caller waits for next, or what it
returned.

`Pool.invariant` is the rule for an assertion about every caller and one about the store: a caller
keeps its own by a step of its own, and everybody else's by not interfering.  Where all that callers
do to each other is to move the store along a preorder, `Pool.obeys` is the shorter rule: a program
is proved alone, against stores that have moved on, and its parts in sequence by `Obeys.bind`.
-/
import Rustee.Foundation.Async

namespace Rustee.Foundation

set_option autoImplicit false

/-- What a future comes to before anything else is answered. -/
inductive Turn (Op α : Type) where
  | waits (op : Op)
  | returns (value : α)
  deriving DecidableEq

def Future.turn {Op : Type} {Res : Op → Type} {α : Type} : Future Op Res α → Turn Op α
  | .ready value => .returns value
  | .call op _ => .waits op

/-- A call that was started: with what, and what is left of it. -/
structure Task (Entry Op : Type) (Res : Op → Type) (α : Type) where
  entry : Entry
  rest : Future Op Res α

structure Pool (Caller Store Entry Op : Type) (Res : Op → Type) (α : Type) where
  store : Store
  task : Caller → Option (Task Entry Op Res α)

namespace Pool

inductive Input (Caller Entry Choice : Type) where
  | start (caller : Caller) (entry : Entry)
  | serve (caller : Caller) (choice : Choice)
  deriving DecidableEq

def Input.caller {Caller Entry Choice : Type} : Input Caller Entry Choice → Caller
  | .start caller _ => caller
  | .serve caller _ => caller

variable {Caller Store Entry Op Choice α : Type} {Res : Op → Type}

/-- How operations are served, and the program of a call. -/
structure Service (Store Entry Op : Type) (Res : Op → Type) (Choice α : Type) where
  initial : Store → Prop
  program : Entry → Future Op Res α
  serve : Store → (op : Op) → Choice → Option (Store × Res op)

variable (S : Service Store Entry Op Res Choice α)

/-- A move of one caller: what it does to the store and to what the caller has to do. -/
inductive Move : Store → Option (Task Entry Op Res α) → Input Caller Entry Choice →
    Store → Task Entry Op Res α → Prop
  | start {store : Store} {caller : Caller} {entry : Entry} :
      Move store none (.start caller entry) store ⟨entry, S.program entry⟩
  | serve {store after : Store} {caller : Caller} {entry : Entry} {op : Op} {choice : Choice}
      {resume : Res op → Future Op Res α} {response : Res op}
      (served : S.serve store op choice = some (after, response)) :
      Move store (some ⟨entry, .call op resume⟩) (.serve caller choice) after
        ⟨entry, resume response⟩

variable [DecidableEq Caller]

def put (p : Pool Caller Store Entry Op Res α) (caller : Caller) (store : Store)
    (task : Task Entry Op Res α) : Pool Caller Store Entry Op Res α :=
  ⟨store, Function.update p.task caller (some task)⟩

@[simp] theorem put_task_self (p : Pool Caller Store Entry Op Res α) (caller : Caller)
    (store : Store) (task : Task Entry Op Res α) :
    (p.put caller store task).task caller = some task :=
  Function.update_self ..

theorem put_task_of_ne (p : Pool Caller Store Entry Op Res α) {caller other : Caller}
    (differ : other ≠ caller) (store : Store) (task : Task Entry Op Res α) :
    (p.put caller store task).task other = p.task other :=
  Function.update_of_ne differ ..

def machine : Machine (Pool Caller Store Entry Op Res α) (Input Caller Entry Choice) (Turn Op α) where
  initial p := S.initial p.store ∧ ∀ caller, p.task caller = none
  step p
    | .start caller entry =>
      match p.task caller with
      | some _ => none
      | none => some (p.put caller p.store ⟨entry, S.program entry⟩, (S.program entry).turn)
    | .serve caller choice =>
      match p.task caller with
      | some ⟨entry, .call op resume⟩ =>
        (S.serve p.store op choice).map fun served =>
          (p.put caller served.1 ⟨entry, resume served.2⟩, (resume served.2).turn)
      | _ => none

/-- A step is a move of its caller. -/
theorem move_of_step {p after : Pool Caller Store Entry Op Res α}
    {input : Input Caller Entry Choice} {turn : Turn Op α}
    (stepped : (machine S).step p input = some (after, turn)) :
    ∃ store task, Move S p.store (p.task input.caller) input store task ∧
      after = p.put input.caller store task ∧ turn = task.rest.turn := by
  cases input with
  | start caller entry =>
    simp only [machine] at stepped
    split at stepped
    · cases stepped
    · rename_i fresh
      cases stepped
      exact ⟨_, _, by rw [Input.caller, fresh]; exact .start, rfl, rfl⟩
  | serve caller choice =>
    simp only [machine] at stepped
    split at stepped
    · rename_i entry op resume waits
      obtain ⟨served, isServed, same⟩ := Option.map_eq_some_iff.1 stepped
      cases same
      exact ⟨_, _, by rw [Input.caller, waits]; exact .serve isServed, rfl, rfl⟩
    · cases stepped

/-- **Invariants of interleaved tasks.**  `I` is about the store, `A` about one caller and what it
has still to do; both may look at the trace. -/
theorem invariant
    {allowed : Pool Caller Store Entry Op Res α → List (Input Caller Entry Choice × Turn Op α) →
      Input Caller Entry Choice → Prop}
    {I : Store → List (Input Caller Entry Choice × Turn Op α) → Prop}
    {A : Caller → Option (Task Entry Op Res α) → Store →
      List (Input Caller Entry Choice × Turn Op α) → Prop}
    (begun : ∀ store, S.initial store → I store [] ∧ ∀ caller, A caller none store [])
    (own : ∀ p trace input mover store task, allowed p trace input → I p.store trace →
      A input.caller mover p.store trace → Move S p.store mover input store task →
      I store (trace ++ [(input, task.rest.turn)]) ∧
        A input.caller (some task) store (trace ++ [(input, task.rest.turn)]))
    (other : ∀ p trace input mover store task caller held, allowed p trace input →
      I p.store trace → A input.caller mover p.store trace →
      Move S p.store mover input store task → caller ≠ input.caller → A caller held p.store trace →
      A caller held store (trace ++ [(input, task.rest.turn)]))
    {p : Pool Caller Store Entry Op Res α} {trace : List (Input Caller Entry Choice × Turn Op α)}
    (run : (machine S).Run allowed p trace) :
    I p.store trace ∧ ∀ caller, A caller (p.task caller) p.store trace := by
  refine run.invariant (I := fun p trace => I p.store trace ∧
    ∀ caller, A caller (p.task caller) p.store trace) ?_ ?_
  · rintro p ⟨initial, idle⟩
    obtain ⟨holds, at_none⟩ := begun p.store initial
    refine ⟨holds, fun caller => ?_⟩
    rw [idle caller]
    exact at_none caller
  · rintro before after trace input turn - ⟨holds, each⟩ admitted stepped
    obtain ⟨store, task, move, rfl, rfl⟩ := move_of_step S stepped
    obtain ⟨kept, mine⟩ := own before trace input _ store task admitted holds (each input.caller) move
    refine ⟨kept, fun caller => ?_⟩
    by_cases same : caller = input.caller
    · subst same
      rw [put_task_self]
      exact mine
    · rw [put_task_of_ne before same]
      exact other before trace input _ store task caller _ admitted holds (each input.caller) move
        same (each caller)

end Pool

/-! ## Programs against a store that moves on -/

section Obeys

variable {Store Op Choice α β : Type} {Res : Op → Type}

/-- What a program promises from a store on, whatever the others do to it: `pre` of every operation
it asks for, `post` of what it returns. -/
def Obeys (grows : Store → Store → Prop)
    (serve : Store → (op : Op) → Choice → Option (Store × Res op)) (pre : Op → Store → Prop)
    (post : α → Store → Prop) : Future Op Res α → Store → Prop
  | .ready value, store => ∀ later, grows store later → post value later
  | .call op resume, store =>
    ∀ later, grows store later → pre op later ∧
      ∀ choice after response, serve later op choice = some (after, response) →
        Obeys grows serve pre post (resume response) after

variable {grows : Store → Store → Prop}
  {serve : Store → (op : Op) → Choice → Option (Store × Res op)} {pre : Op → Store → Prop}
  {post : α → Store → Prop}

variable {store : Store}

theorem Obeys.later (trans : ∀ s t u, grows s t → grows t u → grows s u) {f : Future Op Res α}
    {after : Store} (obeys : Obeys grows serve pre post f store) (grown : grows store after) :
    Obeys grows serve pre post f after := by
  cases f with
  | ready value => exact fun later grownAfter => obeys later (trans _ _ _ grown grownAfter)
  | call op resume => exact fun later grownAfter => obeys later (trans _ _ _ grown grownAfter)

/-- What a program has come to keeps the promise. -/
theorem Obeys.turn (refl : ∀ s, grows s s) {f : Future Op Res α}
    (obeys : Obeys grows serve pre post f store) :
    match f.turn with
    | .waits op => pre op store
    | .returns value => post value store := by
  cases f with
  | ready value => exact obeys store (refl store)
  | call op resume => exact (obeys store (refl store)).1

/-- What a program is waiting for meets its precondition. -/
theorem Obeys.waits (refl : ∀ s, grows s s) {op : Op} {resume : Res op → Future Op Res α}
    (obeys : Obeys grows serve pre post (.call op resume) store) : pre op store :=
  obeys.turn refl

/-- Programs in sequence: the second starts where the first left the store, or later. -/
theorem Obeys.bind (refl : ∀ s, grows s s) {middle : β → Store → Prop} {f : Future Op Res β}
    {g : β → Future Op Res α} (first : Obeys grows serve pre middle f store)
    (second : ∀ value store, middle value store → Obeys grows serve pre post (g value) store) :
    Obeys grows serve pre post (f.bind g) store := by
  induction f generalizing store with
  | ready value => exact second value store (first store (refl store))
  | call op resume ih =>
    intro later grown
    obtain ⟨met, resumed⟩ := first later grown
    exact ⟨met, fun choice after response served => ih response (resumed choice after response served)⟩

/-- A move grows the store, when everything that is served does. -/
theorem Pool.Move.grown {Caller Entry : Type} {S : Pool.Service Store Entry Op Res Choice α}
    (refl : ∀ s, grows s s)
    (moves : ∀ store op choice after response, S.serve store op choice = some (after, response) →
      grows store after)
    {after : Store} {mover : Option (Task Entry Op Res α)} {input : Pool.Input Caller Entry Choice}
    {task : Task Entry Op Res α} (move : Pool.Move S store mover input after task) :
    grows store after := by
  cases move with
  | start => exact refl _
  | serve served => exact moves _ _ _ _ _ served

/-- So does a run from any state. -/
theorem Pool.grown_of_leads {Caller Entry : Type} [DecidableEq Caller]
    (S : Pool.Service Store Entry Op Res Choice α) (refl : ∀ s, grows s s)
    (trans : ∀ s t u, grows s t → grows t u → grows s u)
    (moves : ∀ store op choice after response,
      S.serve store op choice = some (after, response) → grows store after)
    {p later : Pool Caller Store Entry Op Res α} (leads : (Pool.machine S).Leads p later) :
    grows p.store later.store := by
  refine leads.preserves (P := fun later => grows p.store later.store) ?_ (refl _)
  intro before after input turn grown stepped
  obtain ⟨store, task, move, rfl, -⟩ := Pool.move_of_step S stepped
  exact trans _ _ _ grown (move.grown refl moves)

/-- **Every call does what its program promises.** -/
theorem Pool.obeys {Caller Entry : Type} [DecidableEq Caller]
    (S : Pool.Service Store Entry Op Res Choice α) {pre : Entry → Op → Store → Prop}
    {post : Entry → α → Store → Prop} (refl : ∀ s, grows s s)
    (trans : ∀ s t u, grows s t → grows t u → grows s u)
    (programs : ∀ entry store, Obeys grows S.serve (pre entry) (post entry) (S.program entry) store)
    (moves : ∀ store op choice after response,
      S.serve store op choice = some (after, response) → grows store after)
    {allowed : Pool Caller Store Entry Op Res α →
      List (Pool.Input Caller Entry Choice × Turn Op α) → Pool.Input Caller Entry Choice → Prop}
    {p : Pool Caller Store Entry Op Res α}
    {trace : List (Pool.Input Caller Entry Choice × Turn Op α)}
    (run : (Pool.machine S).Run allowed p trace) {caller : Caller} {task : Task Entry Op Res α}
    (runs : p.task caller = some task) :
    Obeys grows S.serve (pre task.entry) (post task.entry) task.rest p.store := by
  have each := (Pool.invariant S (I := fun _ _ => True) (A := fun _ held store _ =>
    ∀ task, held = some task → Obeys grows S.serve (pre task.entry) (post task.entry) task.rest store)
    ?_ ?_ ?_ run).2 caller task runs
  · exact each
  · exact fun _ _ => ⟨trivial, by simp⟩
  · rintro p trace input mover store task - - mine move
    refine ⟨trivial, fun task isTask => ?_⟩
    cases isTask
    cases move with
    | start => exact programs _ _
    | serve served => exact (mine _ rfl _ (refl _)).2 _ _ _ served
  · rintro p trace input mover store task caller held - - - move - theirs task' isTask
    exact (theirs task' isTask).later trans (move.grown refl moves)

end Obeys

end Rustee.Foundation
