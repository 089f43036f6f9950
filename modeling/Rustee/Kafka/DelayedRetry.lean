/-
# Rustee.Kafka.DelayedRetry -- retries recorded before the source offset is committed

`rustee-events-kafka-sqlx`: `PostgresKafkaDelayedRetryRouter::route` answers `Retry` once
its insert has gone through, whereupon the consumer commits the source offset; a relay
claims due rows, publishes them and marks them published.

The insert does nothing when a row of the same origin and attempt exists.  The origin is a
place in a topic, so two consumer groups that fail on one record arrive at the same key
with different retry topics: the second one is answered `Retry` with no row of its own
(`second_group_lost`).  When calls that share an origin and an attempt ask for the same retry, those
whose answer was lost among them, and no row is claimed as often as its counter counts, every call
answered `Retry` has its row in every later state, published or still due (`retries_recorded`).
-/
import Rustee.Events.Message
import Rustee.Foundation.Machine
import Rustee.Foundation.Statement
import Rustee.Kafka.Record
import Mathlib.Data.Int.Order.Basic

namespace Rustee.Kafka.DelayedRetry

open Rustee.Foundation Rustee.Events

set_option autoImplicit false

/-! ## Rows -/

/-- The columns an insert fixes. -/
structure RetryMessage where
  id : Nat
  origin : FailureOrigin
  retryTopic : String
  retryAttempt : Nat
  failureKind : KafkaFailureKind
  eventKey : Option (List UInt8)
  payload : List UInt8
  deriving DecidableEq

/-- A row of `rustee_kafka_delayed_retries`; instants are microseconds. -/
structure RetryRow where
  message : RetryMessage
  availableAt : Int
  leasedUntil : Option Int
  leaseToken : Option Nat
  relayAttempt : Nat
  publishedAt : Option Int
  createdAt : Int
  deriving DecidableEq

/-- The columns of the unique constraint. -/
def RetryMessage.conflictKey (message : RetryMessage) : FailureOrigin × Nat :=
  (message.origin, message.retryAttempt)

/-- `validate_delayed_retry_record`. -/
def validateDelayedRetryRecord (payload : List UInt8) (key : Option (List UInt8)) :
    Except KafkaError Unit :=
  if payload.isEmpty ∨ payload.length > maxEventEnvelopeBytes ∨
      (key.any fun key => key.length > maxEventEnvelopeBytes) then .error .failureRoute
  else .ok ()

/-- `KafkaDelayedRetryDelay`; the fields after the data are what `new` checks. -/
@[ext]
structure KafkaDelayedRetryDelay where
  delay : Duration
  whole : delay.wholeMillis = true
  bounded : (Duration.fromMillis 1).nanos ≤ delay.nanos ∧
    delay.nanos ≤ (Duration.fromMillis (366 * 24 * 60 * 60 * 1000)).nanos

instance : DecidableEq KafkaDelayedRetryDelay := fun one other =>
  decidable_of_iff (one.delay = other.delay) KafkaDelayedRetryDelay.ext_iff.symm

/-- The delay as the statements add it to an instant. -/
def KafkaDelayedRetryDelay.micros (delay : KafkaDelayedRetryDelay) : Int :=
  delay.delay.asMillis * 1000

/-- `PostgresKafkaDelayedRetryRouter`, with the configuration of its fallback publisher. -/
structure Router where
  retryConfig : KafkaRetryConfig
  delay : KafkaDelayedRetryDelay
  deriving DecidableEq

/-- What a route call meets: the id it draws, what becomes of its insert, and whether the broker
acknowledges a dead letter. -/
structure RouteCall where
  router : Router
  record : Record
  origin : FailureOrigin
  failure : KafkaFailureKind
  attempt : Nat
  id : Nat
  database : Fate
  broker : Bool
  /-- `KafkaFailureRecord::new` took the origin from the record. -/
  origin_ok : FailureOrigin.fromMessage record = .ok origin
  deriving DecidableEq

/-- `after_failure`, as the call asks it. -/
def RouteCall.action (call : RouteCall) : KafkaRetryAction :=
  call.router.retryConfig.afterFailure call.attempt

/-- The row the insert would add. -/
def RouteCall.row (call : RouteCall) (nextAttempt : Nat) (payload : List UInt8) (now : Int) :
    RetryRow where
  message := ⟨call.id, call.origin, call.router.retryConfig.retryTopic, nextAttempt, call.failure,
    call.record.key, payload⟩
  availableAt := now + call.router.delay.micros
  leasedUntil := none
  leaseToken := none
  relayAttempt := 0
  publishedAt := none
  createdAt := now

/-- `INSERT .. ON CONFLICT (origin_topic, origin_partition, origin_offset, retry_attempt) DO
NOTHING`.  A row whose id is taken violates the primary key, which the clause does not
name. -/
def insertRetry (rows : List RetryRow) (row : RetryRow) : Option (List RetryRow) :=
  if rows.any fun old => old.message.conflictKey = row.message.conflictKey then some rows
  else if rows.any fun old => old.message.id = row.message.id then none
  else some (rows ++ [row])

/-- `PostgresKafkaDelayedRetryRouter::route`. -/
def route (rows : List RetryRow) (now : Int) (call : RouteCall) :
    List RetryRow × Except KafkaError KafkaRetryAction :=
  match call.action with
  | .deadLetter =>
    -- the fallback publisher
    match call.record.payload with
    | none => (rows, .error .missingPayload)
    | some _ => (rows, if call.broker then .ok .deadLetter else .error .failurePublish)
  | .retry nextAttempt =>
    match call.record.payload with
    | none => (rows, .error .missingPayload)
    | some payload =>
      match validateDelayedRetryRecord payload call.record.key with
      | .error error => (rows, .error error)
      | .ok () =>
        match insertRetry rows (call.row nextAttempt payload now) with
        | some stored => call.database.deliver .failureRoute rows (stored, .retry nextAttempt)
        | none => (rows, .error .failureRoute)

/-! ## Relays -/

/-- The `WHERE` of `CLAIM_DUE_ROWS_SQL`. -/
def due (now : Int) (row : RetryRow) : Bool :=
  row.publishedAt = none ∧ row.availableAt ≤ now ∧ ∀ deadline ∈ row.leasedUntil, deadline ≤ now

structure State where
  clock : Int
  rows : List RetryRow

inductive Input where
  | tick (micros : Nat)
  | route (call : RouteCall)
  /-- A relay claims those of the due rows it gets, under `token`. -/
  | claim (token : Nat) (chosen : List Nat) (lease : KafkaDelayedRetryDelay)
  /-- A row the broker has acknowledged is marked published. -/
  | confirm (id token : Nat)
  /-- `release_claims`. -/
  | release (token : Nat) (retryAfterFailure : KafkaDelayedRetryDelay)
  deriving DecidableEq

inductive Output where
  | done
  | routed (result : Except KafkaError KafkaRetryAction)
  | failed
  deriving DecidableEq

def step (s : State) : Input → Option (State × Output)
  | .tick micros => some ({ s with clock := s.clock + micros }, .done)
  | .route call =>
    let (rows, result) := route s.rows s.clock call
    some ({ s with rows }, .routed result)
  | .claim token chosen lease =>
    let claims := fun row : RetryRow => due s.clock row && decide (row.message.id ∈ chosen)
    -- `relay_attempt` is an `integer`; an addition that leaves its range fails the statement
    if s.rows.any fun row => claims row && decide (i32Max < row.relayAttempt + 1) then
      some (s, .failed)
    else
      let rows := s.rows.map fun row =>
        if claims row then
          { row with leaseToken := some token
                     leasedUntil := some (s.clock + lease.micros)
                     relayAttempt := row.relayAttempt + 1 }
        else row
      some ({ s with rows }, .done)
  | .confirm id token =>
    let rows := s.rows.map fun row =>
      if row.message.id = id ∧ row.leaseToken = some token then
        { row with publishedAt := some s.clock, leasedUntil := none, leaseToken := none }
      else row
    some ({ s with rows }, .done)
  | .release token retryAfterFailure =>
    let rows := s.rows.map fun row =>
      if row.publishedAt = none ∧ row.leaseToken = some token then
        { row with availableAt := s.clock + retryAfterFailure.micros
                   leasedUntil := none, leaseToken := none }
      else row
    some ({ s with rows }, .done)

/-- Routers and relays over one table. -/
def table : Machine State Input Output where
  initial s := s.rows = []
  step := step

/-! ## What is recorded -/

/-- The row is not published, and from some time on it is due and has room for another claim. -/
def RetryRow.StillDue (row : RetryRow) : Prop :=
  row.publishedAt = none ∧ row.relayAttempt < i32Max ∧
    ∃ first, ∀ now, first ≤ now → due now row = true

/-- The message is what the call asks for: its origin and attempt, the router's topic, and the
record's payload and key. -/
structure RetryMessage.IsFor (message : RetryMessage) (call : RouteCall) (nextAttempt : Nat) :
    Prop where
  origin : message.origin = call.origin
  attempt : message.retryAttempt = nextAttempt
  topic : message.retryTopic = call.router.retryConfig.retryTopic
  payload : some message.payload = call.record.payload
  key : message.eventKey = call.record.key

/-- The table has a row for the call, published or still due. -/
def Recorded (rows : List RetryRow) (call : RouteCall) (nextAttempt : Nat) : Prop :=
  ∃ row ∈ rows, row.message.IsFor call nextAttempt ∧
    (row.publishedAt.isSome = true ∨ row.StillDue)

theorem published_or_due {row : RetryRow} (room : row.relayAttempt < i32Max) :
    row.publishedAt.isSome = true ∨ row.StillDue := by
  cases published : row.publishedAt with
  | some at_ => exact .inl rfl
  | none =>
    refine .inr ⟨published, room, max row.availableAt (row.leasedUntil.getD row.availableAt), ?_⟩
    intro now later
    refine decide_eq_true ⟨published, (le_max_left ..).trans later, fun deadline leased => ?_⟩
    rw [Option.mem_def.1 leased] at later
    exact (le_max_right ..).trans later

/-! ## Calls that agree -/

/-- An earlier call for the same origin and attempt, whose insert may have gone through, asked for
the same retry. -/
def agrees (call : RouteCall) : Input × Output → Bool
  | (.route earlier, _) =>
    decide (call.action ≠ .deadLetter → earlier.action = call.action →
      earlier.database ≠ .refused → earlier.origin = call.origin →
      earlier.router.retryConfig.retryTopic = call.router.retryConfig.retryTopic ∧
        earlier.record.payload = call.record.payload ∧ earlier.record.key = call.record.key)
  | _ => true

/-- The condition on a step: a call agrees with those before it, and a claim does not take the
counter of a row to its end. -/
def keepsApart (s : State) (trace : List (Input × Output)) : Input → Bool
  | .route call => trace.all (agrees call)
  | .claim _ chosen _ =>
    s.rows.all fun row => !(due s.clock row && decide (row.message.id ∈ chosen)) ||
      decide (row.relayAttempt + 1 < i32Max)
  | _ => true

variable {call : RouteCall} {nextAttempt : Nat} {s after : State} {input : Input} {output : Output}
  {trace : List (Input × Output)}

/-- What a call does to the table: nothing, unless its insert went through. -/
theorem route_cases (rows : List RetryRow) (now : Int) (call : RouteCall) :
    ((route rows now call).1 = rows ∧ ∀ n, (route rows now call).2 ≠ .ok (.retry n)) ∨
      ∃ nextAttempt payload, call.action = .retry nextAttempt ∧
        call.record.payload = some payload ∧ call.database ≠ .refused ∧
        insertRetry rows (call.row nextAttempt payload now) = some (route rows now call).1 ∧
        ∀ n, (route rows now call).2 = .ok (.retry n) → n = nextAttempt := by
  unfold route
  split
  · refine .inl ?_
    split
    · exact ⟨rfl, fun n => nofun⟩
    · split <;> exact ⟨rfl, fun n => nofun⟩
  · rename_i nextAttempt action
    split
    · exact .inl ⟨rfl, fun n => nofun⟩
    · rename_i payload present
      split
      · exact .inl ⟨rfl, fun n => nofun⟩
      · split
        · rename_i stored inserted
          cases fate : call.database with
          | refused => exact .inl ⟨rfl, fun n => nofun⟩
          | answered =>
            refine .inr ⟨nextAttempt, payload, action, present, nofun, inserted, ?_⟩
            rintro n ⟨⟩
            rfl
          | unanswered =>
            exact .inr ⟨nextAttempt, payload, action, present, nofun, inserted, fun n => nofun⟩
        · exact .inl ⟨rfl, fun n => nofun⟩

/-- The insert finds a row of its key, or appends its own. -/
theorem insertRetry_cases {rows stored : List RetryRow} {row : RetryRow}
    (inserted : insertRetry rows row = some stored) :
    (stored = rows ∧ ∃ old ∈ rows, old.message.conflictKey = row.message.conflictKey) ∨
      stored = rows ++ [row] := by
  unfold insertRetry at inserted
  split at inserted
  · rename_i taken
    obtain ⟨old, isOld, same⟩ := List.any_eq_true.1 taken
    exact .inl ⟨(Option.some.inj inserted).symm, old, isOld, of_decide_eq_true same⟩
  · split at inserted
    · cases inserted
    · exact .inr (Option.some.inj inserted).symm

/-- What a step does to the rows.  A call whose insert went through is the only one that can add a
row, and if it adds none then one of its key is there. -/
inductive Effect (s after : State) : Input → Output → Prop
  | moved {input : Input} {output : Output} (f : RetryRow → RetryRow)
      (rows : after.rows = s.rows.map f) (same : ∀ row, (f row).message = row.message)
      (counts : ∀ row ∈ s.rows, (f row).relayAttempt = row.relayAttempt ∨
        (f row).relayAttempt = row.relayAttempt + 1 ∧ ∃ token chosen lease,
          input = .claim token chosen lease ∧ due s.clock row = true ∧ row.message.id ∈ chosen)
      (silent : ∀ call n, input = .route call → output ≠ .routed (.ok (.retry n))) :
      Effect s after input output
  | inserted {call : RouteCall} {nextAttempt : Nat} {payload : List UInt8}
      {result : Except KafkaError KafkaRetryAction} (action : call.action = .retry nextAttempt)
      (present : call.record.payload = some payload) (taken : call.database ≠ .refused)
      (rows : (after.rows = s.rows ∧
          ∃ old ∈ s.rows, old.message.conflictKey = (call.origin, nextAttempt)) ∨
        after.rows = s.rows ++ [call.row nextAttempt payload s.clock])
      (answer : ∀ n, result = .ok (.retry n) → n = nextAttempt) :
      Effect s after (.route call) (.routed result)

/-- A step that leaves the rows. -/
theorem Effect.still (rows : after.rows = s.rows)
    (silent : ∀ call n, input = .route call → output ≠ .routed (.ok (.retry n))) :
    Effect s after input output :=
  .moved id (by simpa using rows) (fun _ => rfl) (fun _ _ => .inl rfl) silent

theorem step_effect (stepped : step s input = some (after, output)) :
    Effect s after input output := by
  cases input with
  | tick micros =>
    cases stepped
    exact .still rfl nofun
  | route call =>
    simp only [step, Option.some.injEq, Prod.mk.injEq] at stepped
    obtain ⟨rfl, rfl⟩ := stepped
    rcases route_cases s.rows s.clock call with
      ⟨same, other⟩ | ⟨nextAttempt, payload, action, present, taken, inserted, answer⟩
    · refine .still same fun other' n isRoute isRetry => other n ?_
      exact Output.routed.inj isRetry
    · exact .inserted action present taken (insertRetry_cases inserted) answer
  | claim token chosen lease =>
    simp only [step] at stepped
    split at stepped
    · cases stepped
      exact .still rfl nofun
    · cases stepped
      refine .moved _ rfl (fun row => by split <;> rfl) (fun row stored => ?_) nofun
      split
      · rename_i claims
        rw [Bool.and_eq_true, decide_eq_true_eq] at claims
        exact .inr ⟨rfl, token, chosen, lease, rfl, claims⟩
      · exact .inl rfl
  | confirm id token =>
    cases stepped
    refine .moved _ rfl (fun row => by split <;> rfl) (fun row _ => .inl ?_) nofun
    split <;> rfl
  | release token retryAfterFailure =>
    cases stepped
    refine .moved _ rfl (fun row => by split <;> rfl) (fun row _ => .inl ?_) nofun
    split <;> rfl

/-! ## What was recorded stays recorded -/

/-- The trace has a call that was answered `Retry`. -/
def Answered (trace : List (Input × Output)) (call : RouteCall) (nextAttempt : Nat) : Prop :=
  (.route call, .routed (.ok (.retry nextAttempt))) ∈ trace

/-- The trace has the call that inserted the row. -/
def Comes (trace : List (Input × Output)) (row : RetryRow) : Prop :=
  ∃ call output nextAttempt, (.route call, output) ∈ trace ∧ call.database ≠ .refused ∧
    call.action = .retry nextAttempt ∧ row.message.IsFor call nextAttempt

/-- Rows are there for the calls that were answered, each with room for another claim. -/
structure Inv (s : State) (trace : List (Input × Output)) : Prop where
  comes : ∀ row ∈ s.rows, Comes trace row
  room : ∀ row ∈ s.rows, row.relayAttempt < i32Max
  kept : ∀ call nextAttempt, Answered trace call nextAttempt →
    ∃ row ∈ s.rows, row.message.IsFor call nextAttempt

theorem Comes.append {row : RetryRow} (comes : Comes trace row) (entry : Input × Output) :
    Comes (trace ++ [entry]) row := by
  obtain ⟨call, output, n, called, rest⟩ := comes
  exact ⟨call, output, n, List.mem_append_left _ called, rest⟩

theorem answered_append {entry : Input × Output}
    (answered : Answered (trace ++ [entry]) call nextAttempt) :
    Answered trace call nextAttempt ∨ entry = (.route call, .routed (.ok (.retry nextAttempt))) := by
  rcases List.mem_append.1 answered with earlier | last
  · exact .inl earlier
  · exact .inr (List.mem_singleton.1 last).symm

/-- The row that keeps a call's insert from adding one is the row the call asks for. -/
theorem Inv.isFor_of_taken (inv : Inv s trace) (agreed : trace.all (agrees call) = true)
    (action : call.action = .retry nextAttempt) {old : RetryRow} (stored : old ∈ s.rows)
    (taken : old.message.conflictKey = (call.origin, nextAttempt)) :
    old.message.IsFor call nextAttempt := by
  obtain ⟨earlier, output, n, called, executed, earlierAction, isFor⟩ := inv.comes old stored
  obtain ⟨sameOrigin, sameAttempt⟩ := Prod.mk.inj taken
  obtain rfl : n = nextAttempt := isFor.attempt.symm.trans sameAttempt
  have isRetry : call.action ≠ .deadLetter := by
    rw [action]
    exact nofun
  obtain ⟨topic, payload, key⟩ := of_decide_eq_true (List.all_eq_true.1 agreed _ called) isRetry
    (earlierAction.trans action.symm) executed (isFor.origin.symm.trans sameOrigin)
  exact ⟨sameOrigin, sameAttempt, isFor.topic.trans topic, isFor.payload.trans payload,
    isFor.key.trans key⟩

theorem Inv.moved (inv : Inv s trace) (admitted : keepsApart s trace input = true)
    {f : RetryRow → RetryRow} (rows : after.rows = s.rows.map f)
    (same : ∀ row, (f row).message = row.message)
    (counts : ∀ row ∈ s.rows, (f row).relayAttempt = row.relayAttempt ∨
      (f row).relayAttempt = row.relayAttempt + 1 ∧ ∃ token chosen lease,
        input = .claim token chosen lease ∧ due s.clock row = true ∧ row.message.id ∈ chosen)
    (silent : ∀ call n, input = .route call → output ≠ .routed (.ok (.retry n))) :
    Inv after (trace ++ [(input, output)]) := by
  refine ⟨fun next isNext => ?_, fun next isNext => ?_, fun call n answered => ?_⟩
  · rw [rows] at isNext
    obtain ⟨row, stored, rfl⟩ := List.mem_map.1 isNext
    obtain ⟨call, earlier, n, called, executed, action, isFor⟩ := (inv.comes row stored).append _
    exact ⟨call, earlier, n, called, executed, action, same row ▸ isFor⟩
  · rw [rows] at isNext
    obtain ⟨row, stored, rfl⟩ := List.mem_map.1 isNext
    rcases counts row stored with kept | ⟨counted, token, chosen, lease, rfl, isDue, isChosen⟩
    · rw [kept]
      exact inv.room row stored
    · have roomy := List.all_eq_true.1 admitted row stored
      simp only [isDue, isChosen, decide_true, Bool.and_self, Bool.not_true, Bool.false_or,
        decide_eq_true_eq] at roomy
      rw [counted]
      exact_mod_cast roomy
  · rcases answered_append answered with earlier | last
    · obtain ⟨row, stored, isFor⟩ := inv.kept call n earlier
      exact ⟨f row, rows ▸ List.mem_map_of_mem stored, same row ▸ isFor⟩
    · cases last
      exact absurd rfl (silent call n rfl)

theorem Inv.inserted (inv : Inv s trace) (agreed : trace.all (agrees call) = true)
    {payload : List UInt8} {result : Except KafkaError KafkaRetryAction}
    (action : call.action = .retry nextAttempt) (present : call.record.payload = some payload)
    (taken : call.database ≠ .refused)
    (rows : (after.rows = s.rows ∧
        ∃ old ∈ s.rows, old.message.conflictKey = (call.origin, nextAttempt)) ∨
      after.rows = s.rows ++ [call.row nextAttempt payload s.clock])
    (answer : ∀ n, result = .ok (.retry n) → n = nextAttempt) :
    Inv after (trace ++ [(.route call, .routed result)]) := by
  have isNew : (call.row nextAttempt payload s.clock).message.IsFor call nextAttempt :=
    ⟨rfl, rfl, rfl, present.symm, rfl⟩
  -- the old rows are there in both cases, and so is one for the call
  have old : ∀ row ∈ s.rows, row ∈ after.rows := by
    intro row stored
    rcases rows with ⟨same, -⟩ | added
    · rwa [same]
    · rw [added]
      exact List.mem_append_left _ stored
  have mine : ∃ row ∈ after.rows, row.message.IsFor call nextAttempt := by
    rcases rows with ⟨same, row, stored, isTaken⟩ | added
    · exact ⟨row, old row stored, inv.isFor_of_taken agreed action stored isTaken⟩
    · exact ⟨_, added ▸ List.mem_append_right _ List.mem_cons_self, isNew⟩
  have each : ∀ next ∈ after.rows, next ∈ s.rows ∨ next = call.row nextAttempt payload s.clock := by
    intro next isNext
    rcases rows with ⟨same, -⟩ | added
    · exact .inl (same ▸ isNext)
    · rw [added] at isNext
      exact (List.mem_append.1 isNext).imp_right List.mem_singleton.1
  refine ⟨fun next isNext => ?_, fun next isNext => ?_, fun other n answered => ?_⟩
  · rcases each next isNext with stored | rfl
    · exact (inv.comes next stored).append _
    · exact ⟨call, _, nextAttempt, List.mem_append_right _ List.mem_cons_self, taken, action, isNew⟩
  · rcases each next isNext with stored | rfl
    · exact inv.room next stored
    · exact (by decide : ((0 : Nat) : Int) < i32Max)
  · rcases answered_append answered with earlier | last
    · obtain ⟨row, stored, isFor⟩ := inv.kept other n earlier
      exact ⟨row, old row stored, isFor⟩
    · cases last
      obtain rfl := answer n rfl
      exact mine

theorem run_inv (run : table.Run (fun s trace input => keepsApart s trace input = true) s trace) :
    Inv s trace := by
  induction run with
  | start initial =>
    have empty : _ = [] := initial
    refine ⟨fun row stored => ?_, fun row stored => ?_, nofun⟩ <;>
      · rw [empty] at stored
        cases stored
  | next run admitted stepped ih =>
    cases step_effect stepped with
    | moved f rows same counts silent => exact ih.moved admitted rows same counts silent
    | inserted action present taken rows answer =>
      exact ih.inserted admitted action present taken rows answer

/-- **No retry is lost**, in runs whose steps keep apart: every call answered `Retry` has its row in
the table, published or still due. -/
theorem retries_recorded
    (run : table.Run (fun s trace input => keepsApart s trace input = true) s trace) :
    ∀ call nextAttempt, (Input.route call, Output.routed (.ok (.retry nextAttempt))) ∈ trace →
      Recorded s.rows call nextAttempt := by
  intro call nextAttempt answered
  have inv := run_inv run
  obtain ⟨row, stored, isFor⟩ := inv.kept call nextAttempt answered
  exact ⟨row, stored, isFor, published_or_due (inv.room row stored)⟩

/-! ## Two groups, one record -/

def delay : KafkaDelayedRetryDelay := ⟨Duration.fromMillis 1000, by decide, by decide⟩

def billing : Router where
  retryConfig := ⟨"billing.retry", "billing.dlq", 3, by decide, by decide, by decide, by decide,
    by decide⟩
  delay := delay

def shipping : Router where
  retryConfig := ⟨"shipping.retry", "shipping.dlq", 3, by decide, by decide, by decide, by decide,
    by decide⟩
  delay := delay

/-- A record of `orders.paid`, on which the handler of a group fails. -/
def failed (router : Router) (offset id : Nat) : RouteCall where
  router := router
  record := ⟨"orders.paid", 0, offset, none, some [1], []⟩
  origin := ⟨"orders.paid", 0, offset⟩
  failure := .handler
  attempt := 1
  id := id
  database := .answered
  broker := true
  origin_ok := by
    have named : validateTopicName "orders.paid" = true := by decide
    simp only [FailureOrigin.fromMessage, uniqueHeaderText, List.filter_nil, bind, Except.bind, pure,
      Except.pure, named]
    rfl

/-- One group fails on a record, is given it again after a crash and fails again; another group
fails on the next record.  A relay publishes the first retry. -/
theorem retries_recorded_two_groups :
    ∃ s trace, table.Run (fun s trace input => keepsApart s trace input = true) s trace ∧
      Recorded s.rows (failed billing 7 2) 2 ∧ Recorded s.rows (failed shipping 8 3) 2 ∧
      s.rows.map (·.publishedAt.isSome) = [true, false] := by
  have start : table.initial ⟨0, []⟩ := rfl
  obtain ⟨s, trace, run, calls, published⟩ := Machine.exists_run_exec table
    (fun s trace input => keepsApart s trace input = true) start
    [.route (failed billing 7 1), .route (failed billing 7 2), .route (failed shipping 8 3),
      .tick 1000000, .claim 9 [1] delay, .confirm 1 9]
    (fun s trace => ((Input.route (failed billing 7 2), Output.routed (.ok (.retry 2))) ∈ trace ∧
      (Input.route (failed shipping 8 3), Output.routed (.ok (.retry 2))) ∈ trace) ∧
      s.rows.map (·.publishedAt.isSome) = [true, false]) (by decide +kernel)
  exact ⟨s, trace, run, retries_recorded run _ 2 calls.1, retries_recorded run _ 2 calls.2,
    published⟩

/-- Two groups fail on one record.  Both calls are answered `Retry`, and the second group's
retry is nowhere. -/
theorem second_group_lost :
    ∃ s trace, table.Reaches s trace ∧
      trace = [(.route (failed billing 7 1), .routed (.ok (.retry 2))),
        (.route (failed shipping 7 2), .routed (.ok (.retry 2)))] ∧
      ¬Recorded s.rows (failed shipping 7 2) 2 := by
  have start : table.initial ⟨0, []⟩ := rfl
  obtain ⟨s, trace, run, calls, topics⟩ := Machine.exists_run_exec table (fun _ _ _ => True) start
    [.route (failed billing 7 1), .route (failed shipping 7 2)]
    (fun s trace => trace = [(.route (failed billing 7 1), .routed (.ok (.retry 2))),
        (.route (failed shipping 7 2), .routed (.ok (.retry 2)))] ∧
      ∀ row ∈ s.rows, row.message.retryTopic ≠ "shipping.retry") (by decide)
  refine ⟨s, trace, run, calls, ?_⟩
  rintro ⟨row, stored, isFor, -⟩
  exact topics row stored isFor.topic

end Rustee.Kafka.DelayedRetry

namespace Rustee.Kafka.Relay

open Rustee.Foundation DelayedRetry

/-! ## Reading a stored row -/

/-- `validate_stored_retry_record`.  Partition and offset are of types without a sign. -/
def validateStoredRetryRecord (message : RetryMessage) : Except KafkaError Unit :=
  if message.retryAttempt < 2 then .error .failureRoute
  else if validateTopicName message.retryTopic = false then .error .failureRoute
  else if validateTopicName message.origin.topic = false then .error .failureRoute
  else validateDelayedRetryRecord message.payload message.eventKey

/-- `retry_from_row`, which reads the columns that the insert fixed. -/
def retryFromRow (message : RetryMessage) : Except KafkaError RetryMessage :=
  -- `u16::try_from`
  if message.retryAttempt > 65535 then .error .failureRoute
  else
    match validateStoredRetryRecord message with
    | .error error => .error error
    | .ok () => .ok message

end Rustee.Kafka.Relay
