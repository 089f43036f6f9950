/-
# Rustee.Foundation.Async -- futures, streams and who polls them

A future is a value, or a call and what to do with the answer.  A stream makes a future of
its state: the next item, or none, and the state after it.

A consumer polls a stream.  Between two steps it holds the future it is waiting for, so it may
be left alone in any state, and that is what dropping a stream is: a statement about every
state that is reached is one about every point at which the consumer stops.  It does not poll
again once the stream has ended.

`stopAfter` and `andThen` are two combinators of streams; the second calls a function that
may change what it captured.
-/
import Rustee.Foundation.Machine

namespace Rustee.Foundation

set_option autoImplicit false

/-! ## Futures -/

inductive Future (Op : Type) (Res : Op → Type) (α : Type) where
  | ready (value : α)
  | call (op : Op) (resume : Res op → Future Op Res α)

variable {Op : Type} {Res : Op → Type} {α β Item Out : Type}

namespace Future

def bind : Future Op Res α → (α → Future Op Res β) → Future Op Res β
  | .ready value, f => f value
  | .call op resume, f => .call op fun response => (resume response).bind f

@[simp] theorem ready_bind (value : α) (f : α → Future Op Res β) :
    (Future.ready value : Future Op Res α).bind f = f value := rfl

@[simp] theorem call_bind (op : Op) (resume : Res op → Future Op Res α)
    (f : α → Future Op Res β) :
    (Future.call op resume).bind f = .call op fun response => (resume response).bind f := rfl

/-- A future that has a store to itself. -/
def alone {Store : Type} (serve : Store → (op : Op) → Store × Res op) :
    Future Op Res α → Store → Store × α
  | .ready value, store => (store, value)
  | .call op resume, store => (resume (serve store op).2).alone serve (serve store op).1

end Future

/-! ## Streams -/

structure EventStream (Op : Type) (Res : Op → Type) (Item : Type) where
  State : Type
  start : State
  next : State → Future Op Res (Option Item × State)

namespace EventStream

/-- The items up to and including the first terminal one. -/
def stopAfter (terminal : Item → Bool) (stream : EventStream Op Res Item) :
    EventStream Op Res Item where
  State := stream.State × Bool
  start := (stream.start, false)
  next
    | (state, true) => .ready (none, (state, true))
    | (state, false) =>
      (stream.next state).bind fun
        | (none, state) => .ready (none, (state, false))
        | (some item, state) => .ready (some item, (state, terminal item))

/-- `StreamExt::then`: every item is handed to a function that may change what it has
captured, and whose future gives the item that takes its place. -/
def andThen {Captured : Type} (captured : Captured)
    (f : Captured → Item → Captured × Future Op Res Out) (stream : EventStream Op Res Item) :
    EventStream Op Res Out where
  State := stream.State × Captured
  start := (stream.start, captured)
  next
    | (state, captured) =>
      (stream.next state).bind fun
        | (none, state) => .ready (none, (state, captured))
        | (some item, state) =>
          (f captured item).2.bind fun out => .ready (some out, (state, (f captured item).1))

end EventStream

/-! ## Consumers -/

/-- What a consumer holds: the stream, the future of a poll that has not come back, the calls
answered so far with their answers, and what was emitted. -/
structure Consumer (stream : EventStream Op Res Item) where
  state : stream.State
  pending : Option (Future Op Res (Option Item × stream.State))
  answered : List (Σ op, Res op)
  emitted : List Item
  ended : Bool

namespace Consumer

variable {stream : EventStream Op Res Item}

def fresh (stream : EventStream Op Res Item) : Consumer stream := ⟨stream.start, none, [], [], false⟩

/-- A future is driven until it is ready or waits for an answer. -/
def advance (c : Consumer stream) : Future Op Res (Option Item × stream.State) → Consumer stream
  | .ready (some item, state) =>
    { c with state := state, pending := none, emitted := c.emitted ++ [item] }
  | .ready (none, state) => { c with state := state, pending := none, ended := true }
  | .call op resume => { c with pending := some (.call op resume) }

/-- The calls made so far: those answered, and the one that is waited for. -/
def calls (c : Consumer stream) : List Op :=
  c.answered.map Sigma.fst ++
    match c.pending with
    | some (.call op _) => [op]
    | _ => []

inductive Input (Op : Type) (Res : Op → Type) where
  | poll
  /-- The call that is waited for is answered. -/
  | answer (respond : ∀ op, Res op)

def answer (c : Consumer stream) (op : Op) (response : Res op) : Consumer stream :=
  { c with answered := c.answered ++ [⟨op, response⟩] }

def machine (stream : EventStream Op Res Item) :
    Machine (Consumer stream) (Input Op Res) Unit where
  initial c := c = fresh stream
  step c
    | .poll =>
      if c.ended = true ∨ c.pending.isSome = true then none
      else some (c.advance (stream.next c.state), ())
    | .answer respond =>
      match c.pending with
      | some (.call op resume) =>
        some ((c.answer op (respond op)).advance (resume (respond op)), ())
      | _ => none

/-- What holds of a fresh consumer, and survives a poll and an answer, holds of every
consumer. -/
theorem invariant {I : Consumer stream → Prop} (start : I (fresh stream))
    (poll : ∀ c, I c → c.ended = false → c.pending = none → I (c.advance (stream.next c.state)))
    (answer : ∀ c op resume (response : Res op), I c → c.pending = some (.call op resume) →
      I ((c.answer op response).advance (resume response)))
    {c : Consumer stream} {trace : List (Input Op Res × Unit)}
    (reached : (machine stream).Reaches c trace) : I c := by
  refine reached.invariant (I := fun c _ => I c) ?_ ?_
  · rintro c rfl
    exact start
  · rintro before after - input output - held - stepped
    cases input with
    | poll =>
      simp only [machine] at stepped
      split_ifs at stepped with blocked
      cases stepped
      push Not at blocked
      exact poll before held (by simpa using blocked.1) (by simpa using blocked.2)
    | answer respond =>
      simp only [machine] at stepped
      split at stepped
      · rename_i op resume waits
        cases stepped
        exact answer before op resume (respond op) held waits
      · cases stepped

end Consumer

end Rustee.Foundation
