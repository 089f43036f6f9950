/-
# Rustee.Jobs.Retry -- the provider-neutral retry policy

`rustee-jobs/src/delivery/retry.rs`.  A failed delivery is retried after an exponential
backoff that is capped, until the delivery budget is used up.  `u16` and `u32` are `Nat`
with their saturation written out.
-/
import Rustee.Foundation.RustStd
import Mathlib.Algebra.Group.Nat.Defs

namespace Rustee.Jobs

open Rustee.Foundation

set_option autoImplicit false

structure RetryPolicy where
  maxDeliveries : Nat
  initialBackoff : Duration
  maxBackoff : Duration
  deriving DecidableEq, Repr

inductive DeliveryAction where
  | acknowledge
  | retry (nextAttempt : Nat) (delay : Duration)
  | deadLetter
  deriving DecidableEq, Repr

def u16Max : Nat := 65535

def u32Max : Nat := 4294967295

/-- `Duration::MAX`: the largest number of seconds and 999 999 999 nanoseconds. -/
def durationMax : Duration := ⟨18446744073709551615 * 1000000000 + 999999999⟩

/-- `Duration::saturating_mul`. -/
def saturatingMul (d : Duration) (n : Nat) : Duration := ⟨min (d.nanos * n) durationMax.nanos⟩

namespace RetryPolicy

def isValid (policy : RetryPolicy) : Bool :=
  policy.maxDeliveries ≠ 0 ∧ policy.initialBackoff.nanos ≠ 0 ∧
    policy.initialBackoff.nanos ≤ policy.maxBackoff.nanos

/-- The delay before the delivery after `attempt`. -/
def backoff (policy : RetryPolicy) (attempt : Nat) : Duration :=
  let multiplier := min (2 ^ (attempt - 1)) u32Max
  ⟨min (saturatingMul policy.initialBackoff multiplier).nanos policy.maxBackoff.nanos⟩

def afterFailure (policy : RetryPolicy) (attempt : Nat) : DeliveryAction :=
  if policy.isValid = false ∨ attempt = 0 ∨ attempt ≥ policy.maxDeliveries then .deadLetter
  else .retry (min (attempt + 1) u16Max) (policy.backoff attempt)

theorem backoff_le (policy : RetryPolicy) (attempt : Nat) :
    (policy.backoff attempt).nanos ≤ policy.maxBackoff.nanos :=
  Nat.min_le_right ..

variable {policy : RetryPolicy} {attempt : Nat}

/-- Under the cap the saturation of the product does not show. -/
theorem backoff_nanos (fits : policy.maxBackoff.nanos ≤ durationMax.nanos) (attempt : Nat) :
    (policy.backoff attempt).nanos =
      min (policy.initialBackoff.nanos * min (2 ^ (attempt - 1)) u32Max) policy.maxBackoff.nanos := by
  simp only [backoff, saturatingMul]
  rw [Nat.min_assoc, Nat.min_eq_right fits]

/-- The first backoff is the shortest. -/
theorem le_backoff (valid : policy.isValid = true) (fits : policy.maxBackoff.nanos ≤ durationMax.nanos)
    (attempt : Nat) :
    policy.initialBackoff.nanos ≤ (policy.backoff attempt).nanos := by
  obtain ⟨-, -, ordered⟩ := of_decide_eq_true valid
  have positive : 1 ≤ min (2 ^ (attempt - 1)) u32Max :=
    Nat.le_min.2 ⟨Nat.one_le_two_pow, by decide⟩
  rw [backoff_nanos fits]
  exact Nat.le_min.2 ⟨Nat.le_mul_of_pos_right _ positive, ordered⟩

/-- Backoffs are whole multiples of a unit when the two ends of the range are. -/
theorem dvd_backoff {unit : Nat} (initial : unit ∣ policy.initialBackoff.nanos)
    (max : unit ∣ policy.maxBackoff.nanos) (fits : policy.maxBackoff.nanos ≤ durationMax.nanos)
    (attempt : Nat) : unit ∣ (policy.backoff attempt).nanos := by
  rw [backoff_nanos fits]
  rcases Nat.le_total (policy.initialBackoff.nanos * min (2 ^ (attempt - 1)) u32Max)
    policy.maxBackoff.nanos with below | above
  · rw [Nat.min_eq_left below]
    exact Nat.dvd_mul_right_of_dvd initial _
  · rw [Nat.min_eq_right above]
    exact max

theorem backoff_whole (initial : policy.initialBackoff.wholeMillis = true)
    (max : policy.maxBackoff.wholeMillis = true) (fits : policy.maxBackoff.nanos ≤ durationMax.nanos)
    (attempt : Nat) :
    (policy.backoff attempt).wholeMillis = true :=
  decide_eq_true (Nat.mod_eq_zero_of_dvd (dvd_backoff
    (Nat.dvd_of_mod_eq_zero (of_decide_eq_true initial))
    (Nat.dvd_of_mod_eq_zero (of_decide_eq_true max)) fits attempt))

theorem afterFailure_retry {next : Nat} {delay : Duration}
    (retried : policy.afterFailure attempt = .retry next delay) :
    policy.isValid = true ∧ 0 < attempt ∧ attempt < policy.maxDeliveries ∧
      next = min (attempt + 1) u16Max ∧ delay = policy.backoff attempt := by
  unfold afterFailure at retried
  split at retried
  · cases retried
  · rename_i open_
    simp only [not_or, Bool.not_eq_false, Nat.not_le, ge_iff_le] at open_
    obtain ⟨valid, positive, within⟩ := open_
    cases retried
    exact ⟨valid, Nat.pos_of_ne_zero positive, within, rfl, rfl⟩

theorem afterFailure_eq_retry (valid : policy.isValid = true) (positive : 0 < attempt)
    (within : attempt < policy.maxDeliveries) :
    policy.afterFailure attempt = .retry (min (attempt + 1) u16Max) (policy.backoff attempt) := by
  simp [afterFailure, valid, Nat.ne_of_gt positive, Nat.not_le.2 within]

theorem afterFailure_last (exhausted : policy.maxDeliveries ≤ attempt) :
    policy.afterFailure attempt = .deadLetter := by
  simp [afterFailure, exhausted]

end RetryPolicy

end Rustee.Jobs
