/-
# Rustee.Jobs.RetrySchedule -- the deliveries of a job that always fails

Following `next_attempt` from the first delivery, a valid policy makes as many deliveries as it
allows and then gives up (`schedule_eq`).  The delay after a delivery is the doubled backoff, capped,
as long as the doubling fits a `u32`: from the 33rd delivery on the factor stays at `u32::MAX`, so
that a larger cap is never reached (`retry_schedule`).
-/
import Rustee.Jobs.Retry

namespace Rustee.Jobs

open Rustee.Foundation

set_option autoImplicit false

namespace RetryPolicy

/-- The deliveries from `attempt` on, each with what is done after it failed. -/
def schedule (policy : RetryPolicy) : (fuel attempt : Nat) → List (Nat × DeliveryAction)
  | 0, _ => []
  | fuel + 1, attempt =>
    match policy.afterFailure attempt with
    | .retry next delay => (attempt, .retry next delay) :: policy.schedule fuel next
    | action => [(attempt, action)]

/-- The doubled backoff, capped, in exact arithmetic. -/
def exactBackoff (policy : RetryPolicy) (attempt : Nat) : Duration :=
  ⟨min (policy.initialBackoff.nanos * 2 ^ (attempt - 1)) policy.maxBackoff.nanos⟩

/-- The exact schedule: `maxDeliveries` deliveries, the last of which is dead-lettered. -/
def exactSchedule (policy : RetryPolicy) : List (Nat × DeliveryAction) :=
  (List.range' 1 policy.maxDeliveries).map fun attempt =>
    (attempt,
      if attempt < policy.maxDeliveries then .retry (attempt + 1) (policy.exactBackoff attempt)
      else .deadLetter)

/-- The doubling fits a `u32` for all deliveries, or reaches the cap before it does not. -/
def Doubles (policy : RetryPolicy) : Prop :=
  policy.maxDeliveries ≤ 33 ∨ policy.maxBackoff.nanos ≤ policy.initialBackoff.nanos * u32Max

variable {policy : RetryPolicy}

variable {attempt : Nat}

theorem schedule_from (valid : policy.isValid = true) (bounded : policy.maxDeliveries ≤ u16Max)
    (left : Nat)
    {fuel : Nat} (positive : 0 < attempt) (isLeft : attempt + left = policy.maxDeliveries + 1)
    (isFuel : left ≤ fuel) (any : 0 < left) :
    policy.schedule fuel attempt =
      (List.range' attempt left).map fun attempt => (attempt, policy.afterFailure attempt) := by
  induction left generalizing attempt fuel with
  | zero => cases any
  | succ left ih =>
    obtain ⟨fuel, rfl⟩ := Nat.exists_eq_add_of_le' (Nat.le_trans (Nat.le_add_left 1 left) isFuel)
    rw [schedule, List.range'_succ, List.map_cons]
    by_cases last : left = 0
    · subst last
      rw [afterFailure_last (by omega)]
      rfl
    · have next : min (attempt + 1) u16Max = attempt + 1 := Nat.min_eq_left (by omega)
      rw [afterFailure_eq_retry valid positive (by omega), next]
      simp only
      rw [ih (by omega) (by omega) (by omega) (by omega)]

/-- As many deliveries as the policy allows, whatever the delays are. -/
theorem schedule_eq (valid : policy.isValid = true) (bounded : policy.maxDeliveries ≤ u16Max)
    {fuel : Nat} (enough : policy.maxDeliveries ≤ fuel) :
    policy.schedule fuel 1 = (List.range' 1 policy.maxDeliveries).map fun attempt =>
      (attempt, policy.afterFailure attempt) := by
  obtain ⟨some_, -, -⟩ := of_decide_eq_true valid
  exact schedule_from valid bounded policy.maxDeliveries (by decide) (Nat.add_comm ..) enough
    (Nat.pos_of_ne_zero some_)

theorem backoff_eq_exact_of_le (fits : policy.maxBackoff.nanos ≤ durationMax.nanos)
    (early : attempt ≤ 32) : policy.backoff attempt = policy.exactBackoff attempt := by
  have doubling : min (2 ^ (attempt - 1)) u32Max = 2 ^ (attempt - 1) := by
    refine Nat.min_eq_left (Nat.le_trans (Nat.pow_le_pow_right (by decide) ?_)
      (by decide : 2 ^ 31 ≤ u32Max))
    omega
  exact congrArg Duration.mk ((backoff_nanos fits attempt).trans (by rw [doubling]))

/-- Past the range of `u32` the factor is one short, and stays there. -/
theorem backoff_late (fits : policy.maxBackoff.nanos ≤ durationMax.nanos) (late : 33 ≤ attempt) :
    (policy.backoff attempt).nanos =
      min (policy.initialBackoff.nanos * u32Max) policy.maxBackoff.nanos := by
  have saturated : min (2 ^ (attempt - 1)) u32Max = u32Max := by
    refine Nat.min_eq_right (Nat.le_trans (by decide : u32Max ≤ 2 ^ 32)
      (Nat.pow_le_pow_right (by decide) ?_))
    omega
  rw [backoff_nanos fits, saturated]

theorem backoff_eq_exact_iff (valid : policy.isValid = true)
    (fits : policy.maxBackoff.nanos ≤ durationMax.nanos) (late : 33 ≤ attempt) :
    policy.backoff attempt = policy.exactBackoff attempt ↔
      policy.maxBackoff.nanos ≤ policy.initialBackoff.nanos * u32Max := by
  obtain ⟨-, some_, -⟩ := of_decide_eq_true valid
  have more : policy.initialBackoff.nanos * u32Max <
      policy.initialBackoff.nanos * 2 ^ (attempt - 1) := by
    refine Nat.mul_lt_mul_of_pos_left (Nat.lt_of_lt_of_le (by decide : u32Max < 2 ^ 32)
      (Nat.pow_le_pow_right (by decide) ?_)) (Nat.pos_of_ne_zero some_)
    omega
  have isExact : (policy.exactBackoff attempt).nanos =
      min (policy.initialBackoff.nanos * 2 ^ (attempt - 1)) policy.maxBackoff.nanos := rfl
  have isLate := backoff_late fits late
  constructor
  · intro same
    rw [same, isExact] at isLate
    omega
  · intro capped
    refine congrArg Duration.mk ?_
    show (policy.backoff attempt).nanos = (policy.exactBackoff attempt).nanos
    rw [isLate, isExact, Nat.min_eq_right capped, Nat.min_eq_right (Nat.le_of_lt (Nat.lt_of_le_of_lt capped more))]

theorem delays_exact_iff (valid : policy.isValid = true)
    (fits : policy.maxBackoff.nanos ≤ durationMax.nanos) :
    (∀ attempt, 0 < attempt → attempt < policy.maxDeliveries →
      policy.backoff attempt = policy.exactBackoff attempt) ↔ policy.Doubles := by
  constructor
  · intro exact_
    by_cases short : policy.maxDeliveries ≤ 33
    · exact .inl short
    · exact .inr ((backoff_eq_exact_iff valid fits (Nat.le_refl 33)).1 (exact_ 33 (by decide) (by omega)))
  · intro doubles attempt positive within
    by_cases late : 33 ≤ attempt
    · rcases doubles with short | capped
      · omega
      · exact (backoff_eq_exact_iff valid fits late).2 capped
    · exact backoff_eq_exact_of_le fits (by omega)

/-- **The retry schedule.**  It is the exact one if and only if the doubling fits a `u32` for all
deliveries, or reaches the cap before it does not. -/
theorem retry_schedule (policy : RetryPolicy) (valid : policy.isValid = true)
    (bounded : policy.maxDeliveries ≤ u16Max) (fits : policy.maxBackoff.nanos ≤ durationMax.nanos) :
    (∀ fuel, policy.maxDeliveries ≤ fuel → policy.schedule fuel 1 = policy.exactSchedule) ↔
      policy.Doubles := by
  rw [← delays_exact_iff valid fits]
  constructor
  · intro exact_ attempt positive within
    have same := exact_ policy.maxDeliveries (Nat.le_refl _)
    rw [schedule_eq valid bounded (Nat.le_refl _), exactSchedule, List.map_inj_left] at same
    have step := same attempt (List.mem_range'_1.2 ⟨positive, by omega⟩)
    rw [afterFailure_eq_retry valid positive within, if_pos within] at step
    injection step with _ retried
    injection retried
  · intro exact_ fuel enough
    rw [schedule_eq valid bounded enough, exactSchedule, List.map_inj_left]
    intro attempt isAttempt
    obtain ⟨positive, -⟩ := List.mem_range'_1.1 isAttempt
    split
    · rename_i within
      rw [afterFailure_eq_retry valid positive within, exact_ attempt positive within,
        Nat.min_eq_left (by omega)]
    · rename_i exhausted
      rw [afterFailure_last (Nat.not_lt.1 exhausted)]

def defaultPolicy : RetryPolicy := ⟨5, ⟨1000000000⟩, ⟨300000000000⟩⟩

/-- The default policy: one, two, four and eight seconds. -/
theorem retry_schedule_default :
    defaultPolicy.schedule 5 1 = defaultPolicy.exactSchedule ∧
      defaultPolicy.exactSchedule =
        [(1, .retry 2 ⟨1000000000⟩), (2, .retry 3 ⟨2000000000⟩), (3, .retry 4 ⟨4000000000⟩),
          (4, .retry 5 ⟨8000000000⟩), (5, .deadLetter)] :=
  ⟨(retry_schedule defaultPolicy (by decide) (by decide) (by decide)).2 (.inl (by decide)) 5
    (by decide), by decide⟩

/-- From one nanosecond on, the delay after the 33rd delivery is one short of the doubled one. -/
theorem doubling_stops :
    (⟨34, ⟨1⟩, ⟨10000000000⟩⟩ : RetryPolicy).isValid = true ∧
      (⟨34, ⟨1⟩, ⟨10000000000⟩⟩ : RetryPolicy).afterFailure 33 = .retry 34 ⟨4294967295⟩ ∧
      (⟨34, ⟨1⟩, ⟨10000000000⟩⟩ : RetryPolicy).exactBackoff 33 = ⟨4294967296⟩ := by
  decide

end RetryPolicy

end Rustee.Jobs
