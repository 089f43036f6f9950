/-
# Rustee.Foundation.Lease -- the history of one leased item

An item is claimed under a token until an instant, and the holder of the token either
releases it (it may be claimed again) or finishes it (it may not).  A lease that has run
out is not taken off the item; it only stops protecting it from the next claim.

`LeaseCell` is what a store keeps of an item and `LeaseCell.apply` is what it admits.  A
`LeaseHistory` is a sequence of admitted events in which no token is claimed twice.  Its
cell determines

* `LeaseHistory.attempts`: how often the item was claimed;
* `LeaseHistory.settled_once`: that a token is released or finished at most once;
* `LeaseHistory.unsettled`: that a token that was not settled is the cell's, or ran out
  before a later claim, so that at most one token is unexpired.
-/
import Mathlib.Data.List.Basic

namespace Rustee.Foundation

set_option autoImplicit false

universe u

variable {Token : Type u}

inductive LeaseEvent (Token : Type u) where
  | claim (token : Token) (now expires : Int)
  | release (token : Token)
  | finish (token : Token)
  deriving DecidableEq, Repr

namespace LeaseEvent

def isClaim : LeaseEvent Token → Bool
  | .claim .. => true
  | _ => false

def claimed : LeaseEvent Token → Option Token
  | .claim token .. => some token
  | _ => none

/-- The event takes `token` off the item. -/
def settles [DecidableEq Token] (token : Token) : LeaseEvent Token → Bool
  | .claim .. => false
  | .release t => t = token
  | .finish t => t = token

end LeaseEvent

/-- The lease on an item, the number of claims so far, and whether it is finished. -/
structure LeaseCell (Token : Type u) where
  lease : Option (Token × Int)
  attempts : Nat
  finished : Bool
  deriving DecidableEq, Repr

namespace LeaseCell

def fresh : LeaseCell Token := ⟨none, 0, false⟩

def heldBy [DecidableEq Token] (cell : LeaseCell Token) (token : Token) : Bool :=
  match cell.lease with
  | some (holder, _) => holder = token
  | none => false

/-- No lease protects the item at `now`. -/
def claimable (cell : LeaseCell Token) (now : Int) : Bool :=
  match cell.lease with
  | some (_, expires) => expires ≤ now
  | none => true

def apply [DecidableEq Token] (cell : LeaseCell Token) : LeaseEvent Token → Option (LeaseCell Token)
  | .claim token now expires =>
    if cell.finished = false ∧ cell.claimable now = true then
      some ⟨some (token, expires), cell.attempts + 1, false⟩
    else none
  | .release token =>
    if cell.finished = false ∧ cell.heldBy token = true then some { cell with lease := none }
    else none
  | .finish token =>
    if cell.finished = false ∧ cell.heldBy token = true then
      some { cell with lease := none, finished := true }
    else none

end LeaseCell

/-- The sequences of admitted events, oldest first, each with the cell they leave. -/
inductive LeaseHistory [DecidableEq Token] : List (LeaseEvent Token) → LeaseCell Token → Prop
  | start : LeaseHistory [] .fresh
  | next {events : List (LeaseEvent Token)} {cell after : LeaseCell Token}
      {event : LeaseEvent Token} (history : LeaseHistory events cell)
      (unused : ∀ token, event.claimed = some token → ∀ e ∈ events, e.claimed ≠ some token)
      (admitted : cell.apply event = some after) : LeaseHistory (events ++ [event]) after

namespace LeaseHistory

variable [DecidableEq Token] {events : List (LeaseEvent Token)} {cell : LeaseCell Token}

/-- What each kind of event asks of the cell and leaves of it. -/
def Effect (cell after : LeaseCell Token) : LeaseEvent Token → Prop
  | .claim token now expires =>
    (∀ holder deadline, cell.lease = some (holder, deadline) → deadline ≤ now) ∧
      after = ⟨some (token, expires), cell.attempts + 1, false⟩
  | .release token =>
    (∃ expires, cell.lease = some (token, expires)) ∧ after = { cell with lease := none }
  | .finish token =>
    (∃ expires, cell.lease = some (token, expires)) ∧
      after = { cell with lease := none, finished := true }

theorem apply_cases {after : LeaseCell Token} {event : LeaseEvent Token}
    (admitted : cell.apply event = some after) :
    cell.finished = false ∧ Effect cell after event := by
  have holds : ∀ token, cell.heldBy token = true → ∃ expires, cell.lease = some (token, expires) := by
    intro token held
    unfold LeaseCell.heldBy at held
    split at held
    · rename_i holder expires lease
      exact ⟨expires, by rw [lease, of_decide_eq_true held]⟩
    · cases held
  cases event with
  | claim token now expires =>
    simp only [LeaseCell.apply] at admitted
    split at admitted
    · rename_i free
      refine ⟨free.1, fun holder deadline lease => ?_, (Option.some.inj admitted).symm⟩
      have := free.2
      simpa [LeaseCell.claimable, lease] using this
    · cases admitted
  | release token =>
    simp only [LeaseCell.apply] at admitted
    split at admitted
    · rename_i mine
      exact ⟨mine.1, holds token mine.2, (Option.some.inj admitted).symm⟩
    · cases admitted
  | finish token =>
    simp only [LeaseCell.apply] at admitted
    split at admitted
    · rename_i mine
      exact ⟨mine.1, holds token mine.2, (Option.some.inj admitted).symm⟩
    · cases admitted

theorem finished_lease (history : LeaseHistory events cell) (finished : cell.finished = true) :
    cell.lease = none := by
  induction history with
  | start => rfl
  | @next events cell after event history unused admitted ih =>
    have shape := (apply_cases admitted).2
    cases event with
    | claim token now expires => rw [shape.2] at finished; cases finished
    | release token => rw [shape.2]
    | finish token => rw [shape.2]

/-- The cell counts the claims. -/
theorem attempts (history : LeaseHistory events cell) :
    cell.attempts = events.countP LeaseEvent.isClaim := by
  induction history with
  | start => rfl
  | @next events cell after event history unused admitted ih =>
    have shape := (apply_cases admitted).2
    rw [List.countP_append, List.countP_singleton, ← ih]
    cases event with
    | claim token now expires => rw [shape.2]; rfl
    | release token => rw [shape.2]; rfl
    | finish token => rw [shape.2]; rfl

variable {token : Token} {expires : Int}

/-- A token is on the cell only if it was claimed. -/
theorem lease_mem (history : LeaseHistory events cell) (lease : cell.lease = some (token, expires)) :
    ∃ now, .claim token now expires ∈ events := by
  induction history with
  | start => cases lease
  | @next events cell after event history unused admitted ih =>
    have shape := (apply_cases admitted).2
    cases event with
    | claim claimant now deadline =>
      rw [shape.2] at lease
      cases lease
      exact ⟨now, by simp⟩
    | release holder => rw [shape.2] at lease; cases lease
    | finish holder => rw [shape.2] at lease; cases lease

/-- Only the token on the cell can be settled. -/
theorem settles_lease {after : LeaseCell Token} {event : LeaseEvent Token}
    (admitted : cell.apply event = some after) (settles : event.settles token = true) :
    (∃ expires, cell.lease = some (token, expires)) ∧ after.lease = none := by
  have shape := (apply_cases admitted).2
  cases event with
  | claim claimant now expires => cases settles
  | release holder =>
    rw [← of_decide_eq_true settles, shape.2]
    exact ⟨shape.1, rfl⟩
  | finish holder =>
    rw [← of_decide_eq_true settles, shape.2]
    exact ⟨shape.1, rfl⟩

theorem settled_mem (history : LeaseHistory events cell) {e : LeaseEvent Token} (member : e ∈ events)
    (settles : e.settles token = true) :
    ∃ e ∈ events, e.claimed = some token := by
  induction history with
  | start => cases member
  | @next events cell after event history unused admitted ih =>
    rcases List.mem_append.1 member with member | member
    · obtain ⟨c, earlier, claimed⟩ := ih member
      exact ⟨c, List.mem_append_left _ earlier, claimed⟩
    · rw [List.mem_singleton.1 member] at settles
      obtain ⟨⟨expires, lease⟩, -⟩ := settles_lease admitted settles
      obtain ⟨now, claimed⟩ := history.lease_mem lease
      exact ⟨_, List.mem_append_left _ claimed, rfl⟩

/-- The token on the cell was not settled. -/
theorem lease_unsettled (history : LeaseHistory events cell)
    (lease : cell.lease = some (token, expires)) : ∀ e ∈ events, e.settles token = false := by
  cases history with
  | start => cases lease
  | @next events cell _ event history unused admitted =>
    have shape := (apply_cases admitted).2
    cases event with
    | claim claimant now deadline =>
      rw [shape.2] at lease
      cases lease
      intro e member
      rcases List.mem_append.1 member with member | member
      · -- a settled token was claimed, and this claim is the token's first
        by_contra settled
        obtain ⟨c, earlier, claimed⟩ :=
          history.settled_mem member (Bool.not_eq_false _ ▸ settled)
        exact unused _ rfl c earlier claimed
      · rw [List.mem_singleton.1 member]; rfl
    | release holder => rw [shape.2] at lease; cases lease
    | finish holder => rw [shape.2] at lease; cases lease

/-- A token is settled at most once. -/
theorem settled_once (history : LeaseHistory events cell) (token : Token) :
    events.countP (LeaseEvent.settles token) ≤ 1 := by
  induction history with
  | start => exact Nat.zero_le 1
  | @next events cell after event history unused admitted ih =>
    rw [List.countP_append, List.countP_singleton]
    by_cases settles : event.settles token = true
    · obtain ⟨⟨expires, lease⟩, -⟩ := settles_lease admitted settles
      have none_before : events.countP (LeaseEvent.settles token) = 0 :=
        List.countP_eq_zero.2 fun e member => by
          rw [history.lease_unsettled lease e member]; exact Bool.false_ne_true
      simp [none_before, settles]
    · rw [if_neg settles]
      exact ih

/-- A token that was not settled is on the cell, or a later claim found it expired. -/
theorem unsettled (history : LeaseHistory events cell) {now : Int}
    (claimed : .claim token now expires ∈ events) (unsettled : ∀ e ∈ events, e.settles token = false) :
    cell.lease = some (token, expires) ∨
      ∃ other later deadline, .claim other later deadline ∈ events ∧ expires ≤ later := by
  induction history with
  | start => cases claimed
  | @next events cell after event history unused admitted ih =>
    have shape := (apply_cases admitted).2
    rcases List.mem_append.1 claimed with earlier | last
    · rcases ih earlier fun e member => unsettled e (List.mem_append_left _ member) with
        lease | ⟨other, later, deadline, member, expired⟩
      · cases event with
        | claim claimant now' deadline =>
          exact .inr ⟨claimant, now', deadline, by simp, shape.1 _ _ lease⟩
        | release holder =>
          obtain ⟨⟨_, held⟩, -⟩ := shape
          rw [lease] at held
          cases held
          simpa [LeaseEvent.settles] using unsettled (.release token) (by simp)
        | finish holder =>
          obtain ⟨⟨_, held⟩, -⟩ := shape
          rw [lease] at held
          cases held
          simpa [LeaseEvent.settles] using unsettled (.finish token) (by simp)
      · exact .inr ⟨other, later, deadline, List.mem_append_left _ member, expired⟩
    · cases List.mem_singleton.1 last
      rw [shape.2]
      exact .inl rfl

end LeaseHistory

end Rustee.Foundation
