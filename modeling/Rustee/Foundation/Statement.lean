/-
# Rustee.Foundation.Statement -- statements whose answers can be lost

A caller sends a statement to a store and waits.  The store takes the statement as one step of its
own, and the caller hears its answer; or the step is taken and the answer does not arrive; or the
statement fails and nothing happened.  A caller that hears nothing cannot tell the last two apart.
-/
import Mathlib.Data.Option.Basic

namespace Rustee.Foundation

set_option autoImplicit false

inductive Fate where
  | answered
  | unanswered
  | refused
  deriving DecidableEq, Repr

namespace Fate

variable {Store Answer Failure : Type}

/-- The store after a statement that would make it `done.1` and answer `done.2`, and what its
caller hears. -/
def deliver (fate : Fate) (failure : Failure) (store : Store) (done : Store × Answer) :
    Store × Except Failure Answer :=
  match fate with
  | .answered => (done.1, .ok done.2)
  | .unanswered => (done.1, .error failure)
  | .refused => (store, .error failure)

/-- The statement took effect or nothing happened, and an answer is the statement's own. -/
theorem deliver_eq {fate : Fate} {failure : Failure} {store after : Store} {done : Store × Answer}
    {heard : Except Failure Answer} (delivered : fate.deliver failure store done = (after, heard)) :
    (after = store ∨ after = done.1) ∧
      ∀ answer, heard = .ok answer → after = done.1 ∧ answer = done.2 := by
  cases fate with
  | answered =>
    cases delivered
    refine ⟨.inr rfl, ?_⟩
    rintro answer same
    cases same
    exact ⟨rfl, rfl⟩
  | unanswered =>
    cases delivered
    exact ⟨.inr rfl, by simp⟩
  | refused =>
    cases delivered
    exact ⟨.inl rfl, by simp⟩

end Fate

end Rustee.Foundation
