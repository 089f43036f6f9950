/-
# Rustee.Jobs.ProviderRetry -- retry policies that a broker carries out

Two brokers delay a redelivery themselves, and each worker refuses at start-up a policy that the
broker cannot carry out.

* RabbitMQ (`rustee-jobs-rabbitmq`) delays the `n`th redelivery by `n` times a minimum, capped.
  `matches` accepts a policy whose cap is at most three times its first backoff, where the linear
  and the doubled sequence are the same (`delayFor_eq`).
* SQS (`rustee-jobs-sqs`) hides a message for a whole number of seconds, at most twelve hours.
  `validate_retry_policy` asks this of the two ends of the range, and then every backoff in between
  is such a number as well (`durationSeconds_backoff`).
-/
import Rustee.Jobs.Retry

namespace Rustee.Jobs

open Rustee.Foundation

set_option autoImplicit false

/-! ## RabbitMQ -/

namespace RabbitMq

/-- The errors of processing a delivery, and of refusing a policy. -/
inductive RabbitMqError where
  | deadLetterPublish
  | deadLetterConfirmation
  | deadLetterNack
  | deadLetterUnroutable
  | deadLetterTimeout
  | acknowledge
  | retryReturn
  | retryPolicyMismatch
  | deliveryMetadata
  | workerTask
  deriving DecidableEq, Repr

/-- `RabbitMqNativeRetryConfig`; the last four fields are what `new` checks. -/
structure RabbitMqNativeRetryConfig where
  minimumDelay : Duration
  maximumDelay : Duration
  minimum_pos : minimumDelay.asMillis ≠ 0
  minimum_whole : minimumDelay.wholeMillis = true
  maximum_whole : maximumDelay.wholeMillis = true
  ordered : minimumDelay.nanos ≤ maximumDelay.nanos

def RabbitMqNativeRetryConfig.matches (config : RabbitMqNativeRetryConfig) (policy : RetryPolicy) :
    Bool :=
  policy.isValid = true ∧ policy.initialBackoff = config.minimumDelay ∧
    policy.maxBackoff = config.maximumDelay ∧
    config.maximumDelay.nanos ≤ (saturatingMul config.minimumDelay 3).nanos

namespace RabbitMqNativeRetryConfig

def delayFor (config : RabbitMqNativeRetryConfig) (nextAttempt : Nat) : Duration :=
  ⟨min (saturatingMul config.minimumDelay (nextAttempt - 1)).nanos config.maximumDelay.nanos⟩

variable {config : RabbitMqNativeRetryConfig} {policy : RetryPolicy}

theorem delayFor_nanos (fits : config.maximumDelay.nanos ≤ durationMax.nanos) (nextAttempt : Nat) :
    (config.delayFor nextAttempt).nanos =
      min (config.minimumDelay.nanos * (nextAttempt - 1)) config.maximumDelay.nanos := by
  simp only [delayFor, saturatingMul]
  rw [Nat.min_assoc, Nat.min_eq_right fits]

/-- The two sequences agree in their first two terms, and from the third on both are at the cap. -/
theorem delayFor_eq (accepted : config.matches policy = true) {attempt next : Nat} {delay : Duration}
    (retried : policy.afterFailure attempt = .retry next delay) :
    2 ≤ next ∧ config.delayFor next = delay := by
  obtain ⟨valid, initial, max, short⟩ := of_decide_eq_true accepted
  obtain ⟨-, positive, -, rfl, rfl⟩ := RetryPolicy.afterFailure_retry retried
  have fits : config.maximumDelay.nanos ≤ durationMax.nanos := Nat.le_trans short (Nat.min_le_right ..)
  have short : config.maximumDelay.nanos ≤ config.minimumDelay.nanos * 3 :=
    Nat.le_trans short (Nat.min_le_left ..)
  refine ⟨Nat.le_min.2 ⟨by omega, by decide⟩, congrArg Duration.mk ?_⟩
  show (config.delayFor _).nanos = (policy.backoff attempt).nanos
  rw [delayFor_nanos fits, RetryPolicy.backoff_nanos (max ▸ fits), initial, max]
  rcases Nat.lt_or_ge attempt 3 with early | late
  · obtain rfl | rfl : attempt = 1 ∨ attempt = 2 := by omega
    · rfl
    · rfl
  · have linear : 3 ≤ min (attempt + 1) u16Max - 1 := by
      unfold u16Max
      omega
    have doubled : 3 ≤ min (2 ^ (attempt - 1)) u32Max := by
      have four : 2 ^ 2 ≤ 2 ^ (attempt - 1) := Nat.pow_le_pow_right (by decide) (by omega)
      unfold u32Max
      omega
    rw [Nat.min_eq_right (Nat.le_trans short (Nat.mul_le_mul_left _ linear)),
      Nat.min_eq_right (Nat.le_trans short (Nat.mul_le_mul_left _ doubled))]

end RabbitMqNativeRetryConfig

/-- The AMQP types that `delivery_attempt` reads, and the others. -/
inductive AmqpValue where
  | shortShortUInt (value : Nat)
  | shortUInt (value : Nat)
  | longUInt (value : Nat)
  | longInt (value : Int)
  | longLongInt (value : Int)
  | other
  deriving DecidableEq, Repr

def u16TryFrom (value : Int) : Except RabbitMqError Nat :=
  if 0 ≤ value ∧ value ≤ u16Max then .ok value.toNat else .error .deliveryMetadata

/-- `delivery_attempt`, from the header `x-acquired-count`. -/
def deliveryAttempt (acquiredCount : Option AmqpValue) : Except RabbitMqError Nat :=
  match acquiredCount with
  | none => .ok 1
  | some value => do
    let attempt ← match value with
      | .shortShortUInt value => .ok value
      | .shortUInt value => .ok value
      | .longUInt value => u16TryFrom value
      | .longInt value => u16TryFrom value
      | .longLongInt value => u16TryFrom value
      | .other => .error .deliveryMetadata
    if attempt = 0 then .error .deliveryMetadata else .ok attempt

/-- How a publish ended; the flag says that the message was returned. -/
inductive Publish where
  | timedOut
  | failed
  | unconfirmed
  | ack (returned : Bool)
  | nack (returned : Bool)
  | notRequested
  deriving DecidableEq, Repr

/-- What the broker answers; `none` is a request that failed. -/
structure Broker where
  acked : Option Bool
  rejected : Option Bool
  published : Publish

namespace Broker

def acknowledge (broker : Broker) : Except RabbitMqError Unit :=
  if broker.acked = some true then .ok () else .error .acknowledge

def returnForRetry (broker : Broker) : Except RabbitMqError Unit :=
  if broker.rejected = some true then .ok () else .error .retryReturn

/-- `publish_confirmed` of a dead letter. -/
def publishConfirmed (broker : Broker) : Except RabbitMqError Unit :=
  match broker.published with
  | .timedOut => .error .deadLetterTimeout
  | .failed => .error .deadLetterPublish
  | .unconfirmed => .error .deadLetterConfirmation
  | .ack false => .ok ()
  | .ack true | .nack true => .error .deadLetterUnroutable
  | .nack false => .error .deadLetterNack
  | .notRequested => .error .deadLetterConfirmation

end Broker

inductive JobDeliveryOutcome where
  | acknowledged
  | retried
  | deadLettered
  deriving DecidableEq, Repr

def retryAndReturn (config : RabbitMqNativeRetryConfig) (broker : Broker) (nextAttempt : Nat)
    (delay : Duration) : Except RabbitMqError Unit :=
  if nextAttempt < 2 then .error .retryPolicyMismatch
  else if delay ≠ config.delayFor nextAttempt then .error .retryPolicyMismatch
  else broker.returnForRetry

def deadLetterAndAcknowledge (broker : Broker) : Except RabbitMqError Unit := do
  broker.publishConfirmed
  broker.acknowledge

def settleAction (config : RabbitMqNativeRetryConfig) (broker : Broker) :
    DeliveryAction → Except RabbitMqError JobDeliveryOutcome
  | .acknowledge => broker.acknowledge.map fun _ => .acknowledged
  | .retry nextAttempt delay =>
    (retryAndReturn config broker nextAttempt delay).map fun _ => .retried
  | .deadLetter => (deadLetterAndAcknowledge broker).map fun _ => .deadLettered

/-- What decoding and the handler made of a delivery. -/
inductive Verdict where
  | undecodable
  | handled
  | handlerFailed
  deriving DecidableEq, Repr

/-- `process_delivery` and `process_registry_delivery`.  The attempt that was read is never zero,
which is where the two would differ. -/
def processDelivery (config : RabbitMqNativeRetryConfig) (policy : RetryPolicy) (broker : Broker)
    (acquiredCount : Option AmqpValue) (verdict : Verdict) :
    Except RabbitMqError (Nat × JobDeliveryOutcome) :=
  match deliveryAttempt acquiredCount with
  | .error _ => (deadLetterAndAcknowledge broker).map fun _ => (1, .deadLettered)
  | .ok attempt =>
    let action := match verdict with
      | .undecodable => .deadLetter
      | .handled => .acknowledge
      | .handlerFailed => policy.afterFailure attempt
    (settleAction config broker action).map fun outcome => (attempt, outcome)

/-- One delivery with all that decides what becomes of it. -/
structure Handled where
  broker : Broker
  acquiredCount : Option AmqpValue
  verdict : Verdict

/-- `run_with`, up to the errors of its connection: the policy is checked, then the tasks of the
deliveries are joined until one fails.  `none` is a task that panicked. -/
def runWith (config : RabbitMqNativeRetryConfig) (policy : RetryPolicy)
    (joined : List (Option Handled)) : Except RabbitMqError Unit :=
  if config.matches policy = false then .error .retryPolicyMismatch
  else joined.forM fun
    | none => .error .workerTask
    | some delivery =>
      (processDelivery config policy delivery.broker delivery.acquiredCount
        delivery.verdict).map fun _ => ()

section Agreement

variable {config : RabbitMqNativeRetryConfig} {policy : RetryPolicy}

theorem acknowledge_ne (broker : Broker) : broker.acknowledge ≠ .error .retryPolicyMismatch := by
  unfold Broker.acknowledge
  split <;> simp

theorem deadLetterAndAcknowledge_ne (broker : Broker) :
    deadLetterAndAcknowledge broker ≠ .error .retryPolicyMismatch := by
  intro mismatch
  rcases bind_eq_error.1 mismatch with published | ⟨-, -, acknowledged⟩
  · unfold Broker.publishConfirmed at published
    split at published <;> cases published
  · exact acknowledge_ne broker acknowledged

theorem retryAndReturn_ne (accepted : config.matches policy = true) (broker : Broker)
    {attempt next : Nat} {delay : Duration}
    (retried : policy.afterFailure attempt = .retry next delay) :
    retryAndReturn config broker next delay ≠ .error .retryPolicyMismatch := by
  obtain ⟨second, same⟩ := RabbitMqNativeRetryConfig.delayFor_eq accepted retried
  rw [retryAndReturn, if_neg (Nat.not_lt.2 second), if_neg (not_not_intro same.symm)]
  unfold Broker.returnForRetry
  split <;> simp

theorem settleAction_ne (accepted : config.matches policy = true) (broker : Broker)
    {action : DeliveryAction}
    (chosen : ∀ next delay, action = .retry next delay →
      ∃ attempt, policy.afterFailure attempt = .retry next delay) :
    settleAction config broker action ≠ .error .retryPolicyMismatch := by
  cases action with
  | acknowledge => exact fun mismatch => acknowledge_ne broker (map_eq_error.1 mismatch)
  | retry next delay =>
    obtain ⟨attempt, retried⟩ := chosen next delay rfl
    exact fun mismatch => retryAndReturn_ne accepted broker retried (map_eq_error.1 mismatch)
  | deadLetter => exact fun mismatch => deadLetterAndAcknowledge_ne broker (map_eq_error.1 mismatch)

theorem processDelivery_ne (accepted : config.matches policy = true) (broker : Broker)
    (acquiredCount : Option AmqpValue) (verdict : Verdict) :
    processDelivery config policy broker acquiredCount verdict ≠ .error .retryPolicyMismatch := by
  unfold processDelivery
  split
  · exact fun mismatch => deadLetterAndAcknowledge_ne broker (map_eq_error.1 mismatch)
  · rename_i attempt _
    intro mismatch
    refine settleAction_ne accepted broker ?_ (map_eq_error.1 mismatch)
    intro next delay isRetry
    cases verdict with
    | undecodable | handled => cases isRetry
    | handlerFailed => exact ⟨attempt, isRetry⟩

/-- **RabbitMQ retries as the policy says.**  A policy that is accepted at start-up has its delays
carried out by the broker, and a worker reports a mismatch only for a policy it did not accept. -/
theorem native_retry_agrees (config : RabbitMqNativeRetryConfig) (policy : RetryPolicy)
    (accepted : config.matches policy = true) :
    (∀ attempt next delay, policy.afterFailure attempt = .retry next delay →
      config.delayFor next = delay) ∧
    (∀ broker acquiredCount verdict,
      processDelivery config policy broker acquiredCount verdict ≠ .error .retryPolicyMismatch) ∧
    ∀ joined, runWith config policy joined ≠ .error .retryPolicyMismatch := by
  refine ⟨fun _ _ _ retried => (RabbitMqNativeRetryConfig.delayFor_eq accepted retried).2,
    processDelivery_ne accepted, fun joined => ?_⟩
  rw [runWith, if_neg (by simp [accepted])]
  induction joined with
  | nil => simp [pure, Except.pure]
  | cons task rest ih =>
    intro mismatch
    rcases bind_eq_error.1 mismatch with failed | ⟨-, -, later⟩
    · cases task with
      | none => cases failed
      | some delivery => exact processDelivery_ne accepted _ _ _ (map_eq_error.1 failed)
    · exact ih later

/-- Ten milliseconds, at most thirty. -/
def tens : RabbitMqNativeRetryConfig := ⟨⟨10000000⟩, ⟨30000000⟩, by decide, by decide, by decide, by decide⟩

theorem native_retry_agrees_tens :
    (⟨5, ⟨10000000⟩, ⟨30000000⟩⟩ : RetryPolicy).afterFailure 4 = .retry 5 ⟨30000000⟩ ∧
      tens.delayFor 5 = ⟨30000000⟩ := by
  have retried : (⟨5, ⟨10000000⟩, ⟨30000000⟩⟩ : RetryPolicy).afterFailure 4 = .retry 5 ⟨30000000⟩ := by
    decide
  exact ⟨retried, (native_retry_agrees tens ⟨5, ⟨10000000⟩, ⟨30000000⟩⟩ (by decide)).1 4 5 _ retried⟩

end Agreement

end RabbitMq

/-! ## SQS -/

namespace Sqs

/-- The errors of settling a delivery, and of refusing a policy. -/
inductive SqsError where
  | invalidMessageBody
  | visibilityLease
  | retryVisibility
  | deadLetterPublish
  | delete
  | retryPolicyMismatch
  deriving DecidableEq, Repr

def maxVisibilitySeconds : Nat := 43200

def nanosPerSecond : Nat := 1000000000

def asSecs (d : Duration) : Nat := d.nanos / nanosPerSecond

def subsecNanos (d : Duration) : Nat := d.nanos % nanosPerSecond

def validateWholeSeconds (value : Duration) (minimumSeconds maximumSeconds : Nat) : Except Unit Nat :=
  if subsecNanos value ≠ 0 ∨ asSecs value < minimumSeconds ∨ asSecs value > maximumSeconds then
    .error ()
  else if asSecs value ≤ u32Max then .ok (asSecs value)
  else .error ()

def i32Max : Nat := 2147483647

def durationSeconds (value : Duration) : Except Unit Nat := do
  let seconds ← validateWholeSeconds value 0 maxVisibilitySeconds
  if seconds ≤ i32Max then .ok seconds else .error ()

def validateRetryPolicy (policy : RetryPolicy) (expectedRedriveMaxReceiveCount : Nat) :
    Except SqsError Unit :=
  if policy.isValid = false ∨ policy.maxDeliveries > expectedRedriveMaxReceiveCount ∨
      (validateWholeSeconds policy.initialBackoff 1 maxVisibilitySeconds).isOk = false ∨
      (validateWholeSeconds policy.maxBackoff 1 maxVisibilitySeconds).isOk = false then
    .error .retryPolicyMismatch
  else .ok ()

/-- What came of the requests of a settlement, and whether the payload is UTF-8. -/
structure Requests where
  visibilityChanged : Bool
  deadLetterSent : Bool
  deleted : Bool
  textPayload : Bool

def deleteDelivery (requests : Requests) : Except SqsError Unit :=
  if requests.deleted then .ok () else .error .delete

def settleDelivery (requests : Requests) : DeliveryAction → Except SqsError Unit
  | .acknowledge => deleteDelivery requests
  | .retry _ delay =>
    match durationSeconds delay with
    | .error () => .error .retryPolicyMismatch
    | .ok _ => if requests.visibilityChanged then .ok () else .error .retryVisibility
  | .deadLetter =>
    if requests.textPayload = false then .error .invalidMessageBody
    else if requests.deadLetterSent = false then .error .deadLetterPublish
    else deleteDelivery requests

/-- What the handler made of a delivery while its lease was renewed. -/
inductive Verdict where
  | undecodable
  | handled
  | handlerFailed
  | handlerTimedOut
  | leaseLost
  deriving DecidableEq, Repr

/-- The processor of `run_until` and `run_registry_until`, from a delivery's attempt on. -/
def processDelivery (policy : RetryPolicy) (requests : Requests) (attempt : Nat) :
    Verdict → Except SqsError Unit
  | .undecodable => settleDelivery requests .deadLetter
  | .handled => settleDelivery requests .acknowledge
  | .handlerFailed => settleDelivery requests (policy.afterFailure attempt)
  | .handlerTimedOut => settleDelivery requests (policy.afterFailure attempt)
  | .leaseLost => .error .visibilityLease

variable {policy : RetryPolicy} {value : Duration}

theorem validateWholeSeconds_isOk {minimumSeconds maximumSeconds : Nat}
    (accepted : (validateWholeSeconds value minimumSeconds maximumSeconds).isOk = true) :
    nanosPerSecond ∣ value.nanos ∧ minimumSeconds ≤ asSecs value ∧ asSecs value ≤ maximumSeconds := by
  unfold validateWholeSeconds at accepted
  split at accepted
  · cases accepted
  · rename_i within
    simp only [not_or, ne_eq, not_not, Nat.not_lt, gt_iff_lt] at within
    exact ⟨Nat.dvd_of_mod_eq_zero within.1, within.2⟩

theorem durationSeconds_ok (whole : nanosPerSecond ∣ value.nanos)
    (short : asSecs value ≤ maxVisibilitySeconds) : durationSeconds value = .ok (asSecs value) := by
  have noRest : subsecNanos value = 0 := Nat.mod_eq_zero_of_dvd whole
  have fits : asSecs value ≤ i32Max := Nat.le_trans short (by decide)
  have fits' : asSecs value ≤ u32Max := Nat.le_trans short (by decide)
  simp [durationSeconds, validateWholeSeconds, noRest, Nat.not_lt.2 short, fits', fits, bind, Except.bind]

theorem validateRetryPolicy_ok {expectedRedriveMaxReceiveCount : Nat}
    (accepted : validateRetryPolicy policy expectedRedriveMaxReceiveCount = .ok ()) :
    nanosPerSecond ∣ policy.initialBackoff.nanos ∧ nanosPerSecond ∣ policy.maxBackoff.nanos ∧
      asSecs policy.maxBackoff ≤ maxVisibilitySeconds := by
  unfold validateRetryPolicy at accepted
  split at accepted
  · cases accepted
  · rename_i checked
    simp only [not_or, Bool.not_eq_false] at checked
    obtain ⟨-, -, initial, max⟩ := checked
    obtain ⟨initialWhole, -, -⟩ := validateWholeSeconds_isOk initial
    obtain ⟨maxWhole, -, maxShort⟩ := validateWholeSeconds_isOk max
    exact ⟨initialWhole, maxWhole, maxShort⟩

/-- Between two whole numbers of seconds the backoff is one as well. -/
theorem durationSeconds_backoff {expectedRedriveMaxReceiveCount : Nat}
    (accepted : validateRetryPolicy policy expectedRedriveMaxReceiveCount = .ok ()) (attempt : Nat) :
    asSecs (policy.backoff attempt) ≤ maxVisibilitySeconds ∧
      (policy.backoff attempt).nanos = asSecs (policy.backoff attempt) * nanosPerSecond ∧
      durationSeconds (policy.backoff attempt) = .ok (asSecs (policy.backoff attempt)) := by
  obtain ⟨initialWhole, maxWhole, maxShort⟩ := validateRetryPolicy_ok accepted
  have fits : policy.maxBackoff.nanos ≤ durationMax.nanos := by
    unfold asSecs nanosPerSecond maxVisibilitySeconds at maxShort
    unfold durationMax
    simp only
    omega
  have whole := RetryPolicy.dvd_backoff initialWhole maxWhole fits attempt
  have short : asSecs (policy.backoff attempt) ≤ maxVisibilitySeconds :=
    Nat.le_trans (Nat.div_le_div_right (policy.backoff_le attempt)) maxShort
  exact ⟨short, (Nat.div_mul_cancel whole).symm, durationSeconds_ok whole short⟩

theorem settleDelivery_ne (requests : Requests) (action : DeliveryAction)
    (representable : ∀ next delay, action = .retry next delay →
      ∃ seconds, durationSeconds delay = .ok seconds) :
    settleDelivery requests action ≠ .error .retryPolicyMismatch := by
  cases action with
  | acknowledge =>
    simp only [settleDelivery, deleteDelivery]
    split <;> simp
  | retry next delay =>
    obtain ⟨seconds, isSeconds⟩ := representable next delay rfl
    simp only [settleDelivery, isSeconds]
    split <;> simp
  | deadLetter =>
    simp only [settleDelivery, deleteDelivery]
    split
    · simp
    · split
      · simp
      · split <;> simp

/-- **SQS can hide a message for every delay.**  The delay of a retry under an accepted policy is a
whole number of seconds that SQS takes, so no settlement fails on its delay. -/
theorem retry_delays_representable (policy : RetryPolicy) (expectedRedriveMaxReceiveCount : Nat)
    (accepted : validateRetryPolicy policy expectedRedriveMaxReceiveCount = .ok ()) :
    (∀ attempt next delay, policy.afterFailure attempt = .retry next delay →
      ∃ seconds ≤ maxVisibilitySeconds, delay.nanos = seconds * nanosPerSecond ∧
        durationSeconds delay = .ok seconds) ∧
    ∀ requests attempt verdict,
      processDelivery policy requests attempt verdict ≠ .error .retryPolicyMismatch := by
  have representable : ∀ attempt next delay, policy.afterFailure attempt = .retry next delay →
      ∃ seconds ≤ maxVisibilitySeconds, delay.nanos = seconds * nanosPerSecond ∧
        durationSeconds delay = .ok seconds := by
    intro attempt next delay retried
    obtain ⟨-, -, -, -, rfl⟩ := RetryPolicy.afterFailure_retry retried
    exact ⟨_, durationSeconds_backoff accepted attempt⟩
  refine ⟨representable, fun requests attempt verdict => ?_⟩
  have settles : settleDelivery requests (policy.afterFailure attempt) ≠ .error .retryPolicyMismatch := by
    refine settleDelivery_ne requests _ fun next delay retried => ?_
    obtain ⟨seconds, -, -, isSeconds⟩ := representable attempt next delay retried
    exact ⟨seconds, isSeconds⟩
  cases verdict with
  | undecodable => exact settleDelivery_ne requests .deadLetter (by simp)
  | handled => exact settleDelivery_ne requests .acknowledge (by simp)
  | handlerFailed => exact settles
  | handlerTimedOut => exact settles
  | leaseLost => simp [processDelivery]

/-- Two seconds, at most twelve hours, after the sixteenth delivery. -/
theorem retry_delays_representable_capped :
    (⟨20, ⟨2000000000⟩, ⟨43200000000000⟩⟩ : RetryPolicy).afterFailure 16 =
        .retry 17 ⟨43200000000000⟩ ∧
      durationSeconds ⟨43200000000000⟩ = .ok 43200 := by
  have retried : (⟨20, ⟨2000000000⟩, ⟨43200000000000⟩⟩ : RetryPolicy).afterFailure 16 =
      .retry 17 ⟨43200000000000⟩ := by decide
  obtain ⟨seconds, -, isSeconds, converted⟩ :=
    (retry_delays_representable ⟨20, ⟨2000000000⟩, ⟨43200000000000⟩⟩ 20 (by decide)).1 16 17 _ retried
  have known : seconds = 43200 := by
    unfold nanosPerSecond at isSeconds
    simp only at isSeconds
    omega
  exact ⟨retried, known ▸ converted⟩

end Sqs

end Rustee.Jobs
