/-
# Rustee.RedisJobs.Scripts -- one group's Redis keys and the scripts on them

`rustee-jobs-redis/src/worker/settlement.rs`, `src/worker/receiver.rs`, `src/publisher.rs`.
The source stream is kept as its part after the group's last-delivered id (`unread`) and
the group's pending entries list; an entry that is neither was settled and is never looked
at again.  Entries are immutable and nothing trims the stream, so a pending record holds
its entry.  A Lua script is one function.

A body is the payload of a job together with the publication it came from.  The scripts
move bodies about and never look into them.
-/
import Rustee.Foundation.Keyed
import Rustee.Jobs.Retry
import Mathlib.Data.List.Sort

namespace Rustee.RedisJobs

open Rustee.Foundation Rustee.Jobs

set_option autoImplicit false

abbrev EntryId := Nat

structure Body where
  /-- Which publication this is, counted from zero. -/
  job : Nat
  payload : List UInt8
  deriving DecidableEq, Repr

/-- A stream entry: the `payload` and `attempt` fields under an id. -/
structure Entry where
  id : EntryId
  body : Body
  attempt : Nat
  deriving DecidableEq, Repr

structure Pending where
  entry : Entry
  consumer : String
  timesDelivered : Nat
  deriving DecidableEq, Repr

def Pending.id (pending : Pending) : EntryId := pending.entry.id

structure DeadLetter where
  body : Body
  attempt : Nat
  sourceEntryId : EntryId
  deriving DecidableEq, Repr

structure Redis where
  /-- `TIME`, in milliseconds. -/
  now : Nat
  /-- What `XADD *` will use next. -/
  nextId : EntryId
  unread : List Entry
  pending : List Pending
  /-- The retry zset, payload hash and attempt hash. -/
  schedule : List (EntryId × Nat)
  payloads : List (EntryId × Body)
  attempts : List (EntryId × Nat)
  deadLetters : List DeadLetter
  deriving DecidableEq, Repr

namespace Redis

/-- `XADD stream * payload .. attempt ..`. -/
def xadd (r : Redis) (body : Body) (attempt : Nat) : Redis :=
  { r with nextId := r.nextId + 1, unread := r.unread ++ [⟨r.nextId, body, attempt⟩] }

/-- `XREADGROUP .. COUNT count .. >`. -/
def xreadgroup (r : Redis) (consumer : String) (count : Nat) : Redis × List Entry :=
  let entries := r.unread.take count
  ({ r with unread := r.unread.drop count
            pending := r.pending ++ entries.map fun entry => ⟨entry, consumer, 1⟩ }, entries)

/-- `XAUTOCLAIM .. 0-0 COUNT count`, of the entries that have been `idle` long enough. -/
def xautoclaim (r : Redis) (consumer : String) (idle : List EntryId) (count : Nat) :
    Redis × List Entry :=
  let claimed := (r.pending.filter fun p => p.id ∈ idle).take count
  let ids := claimed.map Pending.id
  ({ r with pending := r.pending.map fun p =>
      if p.id ∈ ids then { p with consumer, timesDelivered := p.timesDelivered + 1 } else p },
    claimed.map Pending.entry)

/-- `XPENDING stream group id id 1`. -/
def xpending (r : Redis) (id : EntryId) : Option Pending := r.pending.find? fun p => p.id = id

/-- `XPENDING stream group id id 1 consumer` is not empty. -/
def ownedBy (r : Redis) (id : EntryId) (consumer : String) : Bool :=
  r.pending.any fun p => p.id = id ∧ p.consumer = consumer

/-- `XACK`: the state after it and the number of entries it removed. -/
def xack (r : Redis) (id : EntryId) : Redis × Nat :=
  ({ r with pending := Keyed.remove Pending.id id r.pending },
    r.pending.countP fun p => p.id = id)

/-! ## The scripts -/

/-- `ACK_IF_OWNED_SCRIPT`. -/
def ackIfOwned (r : Redis) (id : EntryId) (consumer : String) : Redis × Nat :=
  if r.ownedBy id consumer then r.xack id else (r, 0)

/-- `SCHEDULE_RETRY_SCRIPT`. -/
def scheduleRetry (r : Redis) (id : EntryId) (consumer : String) (delayMs : Nat) (body : Body)
    (nextAttempt : Nat) : Redis × Nat :=
  if r.ownedBy id consumer then
    xack { r with
        payloads := Keyed.hset r.payloads id body
        attempts := Keyed.hset r.attempts id nextAttempt
        schedule := Keyed.hset r.schedule id (r.now + delayMs) } id
  else (r, 0)

/-- `DEAD_LETTER_IF_OWNED_SCRIPT`. -/
def deadLetterIfOwned (r : Redis) (id : EntryId) (consumer : String) (body : Body)
    (attempt : Nat) : Redis × Nat :=
  if r.ownedBy id consumer then
    xack { r with deadLetters := r.deadLetters ++ [⟨body, attempt, id⟩] } id
  else (r, 0)

/-- `ZRANGEBYSCORE schedule -inf now LIMIT 0 count`. -/
def dueIds (r : Redis) (count : Nat) : List EntryId :=
  (((r.schedule.filter fun entry => entry.2 ≤ r.now).insertionSort fun a b =>
    a.2 < b.2 ∨ a.2 = b.2 ∧ a.1 ≤ b.1).take count).map Prod.fst

/-- The body of the second loop.  `XADD` refuses the `false` that `HGET` gives for a missing
field, and the script ends there. -/
def promoteOne (r : Redis) (id : EntryId) : Option Redis :=
  match Keyed.hget r.payloads id, Keyed.hget r.attempts id with
  | some body, some attempt =>
    let added := r.xadd body attempt
    some { added with
      payloads := Keyed.hdel r.payloads id
      attempts := Keyed.hdel r.attempts id
      schedule := Keyed.hdel r.schedule id }
  | _, _ => none

/-- The second loop: what it leaves, and whether it went through. -/
def promoteAll : List EntryId → Redis → Redis × Bool
  | [], r => (r, true)
  | id :: rest, r =>
    match r.promoteOne id with
    | some r => promoteAll rest r
    | none => (r, false)

/-- `PROMOTE_DUE_RETRIES_SCRIPT`: the number promoted, or `none` when it fails.  Its first
loop never stops it: `HEXISTS` answers with a number, and in Lua zero counts as true. -/
def promoteDueRetries (r : Redis) (count : Nat) : Redis × Option Nat :=
  let ids := r.dueIds count
  match promoteAll ids r with
  | (r, true) => (r, some ids.length)
  | (r, false) => (r, none)

end Redis

/-! ## Deliveries -/

inductive RedisStreamsError where
  | deliveryMetadata
  | deliveryOwnershipLost
  | retrySchedule
  | retryPromotion
  | retryPolicy
  deriving DecidableEq, Repr

/-- `RedisStreamsDelivery`, as its worker's consumer holds it. -/
structure Delivery where
  consumer : String
  entryId : EntryId
  body : Body
  attempt : Option Nat
  deriving DecidableEq, Repr

/-- `delivery_from_entry`. -/
def deliveryFromEntry (consumer : String) (entry : Entry) (pendingDeliveries : Option Nat) :
    Delivery where
  consumer := consumer
  entryId := entry.id
  body := entry.body
  attempt :=
    let attempt := match pendingDeliveries with
      | some deliveries =>
        if deliveries = 0 ∨ u16Max < deliveries - 1 ∨ u16Max < entry.attempt + (deliveries - 1) then
          none
        else some (entry.attempt + (deliveries - 1))
      | none => some entry.attempt
    attempt.filter fun attempt => attempt > 0

/-- `usize::MAX` of a 64-bit target. -/
def usizeMax : Nat := 18446744073709551615

/-- `nonzero_duration_to_millis`. -/
def nonzeroDurationToMillis (duration : Duration) : Option Nat :=
  if duration.nanos = 0 then none
  else if duration.wholeMillis = false then none
  else if usizeMax < duration.asMillis then none
  else if duration.asMillis = 0 then none
  else some duration.asMillis

/-- `validate_retry_policy`. -/
def validateRetryPolicy (policy : RetryPolicy) : Except RedisStreamsError Unit :=
  if policy.isValid ∧ (nonzeroDurationToMillis policy.initialBackoff).isSome ∧
      (nonzeroDurationToMillis policy.maxBackoff).isSome then .ok ()
  else .error .retryPolicy

/-- A policy that `run_with` goes on with. -/
structure WorkerPolicy where
  policy : RetryPolicy
  valid : validateRetryPolicy policy = .ok ()

inductive JobDeliveryOutcome where
  | acknowledged
  | retried
  | deadLettered
  deriving DecidableEq, Repr

/-- What decoding and the handler made of a delivery. -/
inductive Verdict where
  | undecodable
  | handled
  | handlerFailed
  deriving DecidableEq, Repr

/-- The action `process_delivery` and `process_registry_delivery` choose.  The attempt of a
delivery is never zero, which is where the two would differ. -/
def chooseAction (policy : RetryPolicy) (delivery : Delivery) (verdict : Verdict) : DeliveryAction :=
  match delivery.attempt with
  | none => .deadLetter
  | some attempt =>
    match verdict with
    | .undecodable => .deadLetter
    | .handled => .acknowledge
    | .handlerFailed => policy.afterFailure attempt

theorem chooseAction_retry {policy : RetryPolicy} {delivery : Delivery} {verdict : Verdict}
    {nextAttempt : Nat} {delay : Duration}
    (chosen : chooseAction policy delivery verdict = .retry nextAttempt delay) :
    verdict = .handlerFailed ∧ ∃ attempt, delivery.attempt = some attempt ∧
      policy.afterFailure attempt = .retry nextAttempt delay := by
  unfold chooseAction at chosen
  split at chosen
  · cases chosen
  · rename_i attempt known
    split at chosen
    · cases chosen
    · cases chosen
    · exact ⟨rfl, attempt, known, chosen⟩

/-- `settled == 1`, or the ownership was lost. -/
def settledBy (answer : Redis × Nat) (outcome : JobDeliveryOutcome) :
    Redis × Except RedisStreamsError JobDeliveryOutcome :=
  if answer.2 = 1 then (answer.1, .ok outcome) else (answer.1, .error .deliveryOwnershipLost)

/-- `settle_action`. -/
def settleAction (r : Redis) (delivery : Delivery) (action : DeliveryAction) :
    Redis × Except RedisStreamsError JobDeliveryOutcome :=
  match action with
  | .acknowledge => settledBy (r.ackIfOwned delivery.entryId delivery.consumer) .acknowledged
  | .retry nextAttempt delay =>
    match nonzeroDurationToMillis delay with
    | none => (r, .error .retrySchedule)
    | some delayMs =>
      settledBy (r.scheduleRetry delivery.entryId delivery.consumer delayMs delivery.body
        nextAttempt) .retried
  | .deadLetter =>
    settledBy (r.deadLetterIfOwned delivery.entryId delivery.consumer delivery.body
      (delivery.attempt.getD 1)) .deadLettered

end Rustee.RedisJobs
