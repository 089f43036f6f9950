/-
# Rustee.Outbox.Relay -- passes of a relay

`RelayCore::relay_once` of `rustee-outbox-sqlx/src/relay/executor.rs`, with what it needs of
`relay/config.rs`, `relay/kind.rs` and `lease/record.rs`, over the table and its stagers of
`Rustee.Outbox.Protocol`.  Any number of passes of any relays go on at once.  A pass waits for
the database or for the publisher between its steps.  A statement whose text PostgreSQL accepts is
answered, or takes effect and its answer is lost, or fails without effect; a publisher reports what
it likes; and a pass may be gone at any point.

Every effect on the table is one step of `Protocol.outbox` (`reaches_store`), so what holds of
every use of the table holds of passes.
-/
import Rustee.Events.Message
import Rustee.Jobs.Message
import Rustee.Outbox.Statements

namespace Rustee.Outbox.Relay

open Rustee.Foundation Rustee.Events Rustee.Jobs

set_option autoImplicit false

/-! ## Leased messages -/

inductive ProviderMessage where
  | event (message : EventMessage)
  | job (message : JobMessage)
  deriving DecidableEq

/-- `LeasedEvent` and `LeasedJob`. -/
structure Leased where
  lease : Lease
  destination : OutboxDestination
  message : ProviderMessage
  deriving DecidableEq

section Reconstruction

-- `Uuid::parse_str`
variable (parseUuid : String → Option Uuid)

/-- What the two `try_from_record` share. -/
def tryFromRecord (error : OutboxError) (fromParts : Uuid → StoredLease → Option ProviderMessage)
    (record : StoredLease) : Except OutboxError Leased :=
  match validateDurableMessageFields record.messageId record.messageType record.orderingKey
      record.deliveryAttempt record.payload with
  | .error _ => .error error
  | .ok () =>
    match (parseUuid record.messageId).bind fun messageId => fromParts messageId record with
    | none => .error error
    | some message => .ok ⟨record.lease, record.destination, message⟩

/-- `LeasedEvent::try_from_record`. -/
def LeasedEvent.tryFromRecord : StoredLease → Except OutboxError Leased :=
  Relay.tryFromRecord parseUuid .storedEvent fun messageId record =>
    (EventMessage.fromParts messageId record.messageType record.schemaVersion record.orderingKey
      record.payload).toOption.map .event

/-- `LeasedJob::try_from_record`. -/
def LeasedJob.tryFromRecord : StoredLease → Except OutboxError Leased :=
  Relay.tryFromRecord parseUuid .storedJob fun messageId record =>
    (JobMessage.fromParts messageId record.messageType record.schemaVersion record.deliveryAttempt
      record.payload).toOption.map .job

/-- The records of `lease_events` and `lease_jobs`: the first that is refused fails them all. -/
def leasedMessages : OutboxKind → List StoredLease → Except OutboxError (List Leased)
  | .event, records => records.mapM (LeasedEvent.tryFromRecord parseUuid)
  | .job, records => records.mapM (LeasedJob.tryFromRecord parseUuid)

end Reconstruction

/-! ## Passes -/

/-- `RelayConfig`; the last field is what `new` checks. -/
structure RelayConfig where
  lease : LeaseConfig
  retryDelay : Duration
  delay_fits : ¬((retryDelay.nanos ≠ 0 ∧ retryDelay.nanos < minPostgresInterval.nanos) ∨
    retryDelay.nanos > maxLeaseDuration.nanos)

structure RelayReport where
  claimed : Nat
  published : Nat
  retryScheduled : Nat
  leaseLost : Nat
  deriving DecidableEq, Repr

/-- `RelayCore`, without the handles that it calls. -/
structure RelayCore where
  kind : OutboxKind
  destination : OutboxDestination
  config : RelayConfig

inductive RelayError (Error : Type) where
  | outbox (error : OutboxError)
  | publisher (source : Error) (report : RelayReport)

/-- The message that a pass is at, and what is left of its batch. -/
structure Work where
  relay : RelayCore
  leased : Leased
  rest : List Leased
  report : RelayReport

inductive Pass (Error : Type) where
  | idle
  | publishing (work : Work)
  | acknowledging (work : Work)
  | retrying (work : Work) (source : Error)
  | done (result : Except (RelayError Error) RelayReport)
  | crashed

structure State (Error : Type) where
  store : Protocol.State
  passes : Nat → Pass Error

inductive Input (Error : Type) where
  /-- The clock, or a staging transaction. -/
  | stager (input : Protocol.Input)
  | start (pass : Nat) (relay : RelayCore) (token : Uuid) (locked : List OutboxId) (elapsed : Nat)
      (fate : Fate)
  | publish (pass : Nat) (result : Except Error Unit)
  | acknowledge (pass : Nat) (fate : Fate)
  | retry (pass : Nat) (fate : Fate)
  | crash (pass : Nat)

inductive Output where
  /-- A statement took effect. -/
  | table (input : Protocol.Input) (output : Protocol.Output)
  | refused
  /-- The publisher was given the message. -/
  | offered (leased : Leased)
  | gone

variable {Error : Type}

def State.setPass (s : State Error) (pass : Nat) (next : Pass Error) : State Error :=
  { s with passes := Function.update s.passes pass next }

/-- The loop's head. -/
def proceed (relay : RelayCore) (report : RelayReport) : List Leased → Pass Error
  | [] => .done (.ok report)
  | leased :: rest => .publishing ⟨relay, leased, rest, report⟩

/-- A pass after its claim. -/
def afterLease (parseUuid : String → Option Uuid) (relay : RelayCore) :
    Option Protocol.Output → Pass Error
  | some (.leased _ records) =>
    match leasedMessages parseUuid relay.kind records with
    | .ok leases => proceed relay ⟨leases.length, 0, 0, 0⟩ leases
    | .error error => .done (.error (.outbox error))
  | some (.failed error) => .done (.error (.outbox error))
  | _ => .done (.error (.outbox .database))

/-- A pass after it settled a published message. -/
def afterAcknowledge (work : Work) : Option Protocol.Output → Pass Error
  | some (.settled .applied) =>
    proceed work.relay { work.report with published := work.report.published + 1 } work.rest
  | some (.settled .lost) =>
    proceed work.relay { work.report with leaseLost := work.report.leaseLost + 1 } work.rest
  | _ => .done (.error (.outbox .database))

/-- A pass after it gave a message back.  It ends, and the rest of its batch stays leased. -/
def afterRetry (work : Work) (source : Error) : Option Protocol.Output → Pass Error
  | some (.settled .applied) =>
    .done (.error (.publisher source
      { work.report with retryScheduled := work.report.retryScheduled + 1 }))
  | some (.settled .lost) =>
    .done (.error (.publisher source { work.report with leaseLost := work.report.leaseLost + 1 }))
  | some (.failed error) => .done (.error (.outbox error))
  | _ => .done (.error (.outbox .database))

/-- A statement of a pass; `next` is what the pass does with the answer, if it gets one. -/
def State.execute (s : State Error) (pass : Nat) (sql : String) (fate : Fate)
    (input : Protocol.Input) (next : Option Protocol.Output → Pass Error) :
    Option (State Error × Output) :=
  match fateOf sql fate with
  | .refused => some (s.setPass pass (next none), .refused)
  | .unanswered =>
    (Protocol.step s.store input).map fun done =>
      ({ s.setPass pass (next none) with store := done.1 }, .table input done.2)
  | .answered =>
    (Protocol.step s.store input).map fun done =>
      ({ s.setPass pass (next (some done.2)) with store := done.1 }, .table input done.2)

/-- What is not a relay's. -/
def isStaging : Protocol.Input → Bool
  | .lease .. | .acknowledge .. | .retry .. => false
  | _ => true

def step (parseUuid : String → Option Uuid) (s : State Error) :
    Input Error → Option (State Error × Output)
  | .stager input =>
    if isStaging input then
      (Protocol.step s.store input).map fun done =>
        ({ s with store := done.1 }, .table input done.2)
    else none
  | .start pass relay token locked elapsed fate =>
    match s.passes pass with
    | .idle =>
      s.execute pass leaseSql fate
        (.lease relay.kind relay.destination relay.config.lease token locked elapsed)
        (afterLease parseUuid relay)
    | _ => none
  | .publish pass result =>
    match s.passes pass with
    | .publishing work =>
      match result with
      | .ok () => some (s.setPass pass (.acknowledging work), .offered work.leased)
      | .error source => some (s.setPass pass (.retrying work source), .offered work.leased)
    | _ => none
  | .acknowledge pass fate =>
    match s.passes pass with
    | .acknowledging work =>
      s.execute pass acknowledgeSql fate
        (.acknowledge work.leased.lease.id work.leased.lease.token) (afterAcknowledge work)
    | _ => none
  | .retry pass fate =>
    match s.passes pass with
    | .retrying work source =>
      s.execute pass retrySql fate
        (.retry work.leased.lease.id work.leased.lease.token work.relay.config.retryDelay)
        (afterRetry work source)
    | _ => none
  | .crash pass =>
    match s.passes pass with
    | .publishing _ | .acknowledging _ | .retrying .. =>
      some (s.setPass pass .crashed, .gone)
    | _ => none

/-- Relays over an empty table. -/
def relays (parseUuid : String → Option Uuid) : Machine (State Error) (Input Error) Output where
  initial s := Protocol.outbox.initial s.store ∧ s.passes = fun _ => .idle
  step := step parseUuid

/-! ## The table below -/

/-- The entry of the table's own trace. -/
def Output.onTable : Output → Option (Protocol.Input × Protocol.Output)
  | .table input output => some (input, output)
  | _ => none

def entries (trace : List (Input Error × Output)) : List (Protocol.Input × Protocol.Output) :=
  trace.filterMap fun event => event.2.onTable

/-- A step is one step of the table, or none. -/
inductive Below (s after : State Error) : Output → Prop
  | still {output : Output} (silent : output.onTable = none) (same : after.store = s.store) :
      Below s after output
  | stepped {input : Protocol.Input} {reply : Protocol.Output}
      (moved : Protocol.step s.store input = some (after.store, reply)) :
      Below s after (.table input reply)

variable {s after : State Error} {output : Output} {parseUuid : String → Option Uuid}

theorem execute_below {pass : Nat} {sql : String} {fate : Fate} {input : Protocol.Input}
    {next : Option Protocol.Output → Pass Error}
    (executed : s.execute pass sql fate input next = some (after, output)) :
    Below s after output := by
  unfold State.execute at executed
  split at executed
  · cases executed
    exact .still rfl rfl
  · obtain ⟨done, moved, same⟩ := Option.map_eq_some_iff.1 executed
    cases same
    exact .stepped moved
  · obtain ⟨done, moved, same⟩ := Option.map_eq_some_iff.1 executed
    cases same
    exact .stepped moved

/-- A statement whose text is refused leaves the table alone. -/
theorem execute_refused {pass : Nat} {sql : String} {fate : Fate} {input : Protocol.Input}
    {next : Option Protocol.Output → Pass Error} (refused : fateOf sql fate = .refused) :
    s.execute pass sql fate input next = some (s.setPass pass (next none), .refused) := by
  rw [State.execute, refused]

theorem step_below {input : Input Error} (stepped : step parseUuid s input = some (after, output)) :
    Below s after output := by
  cases input with
  | stager input =>
    simp only [step] at stepped
    split at stepped
    · obtain ⟨done, moved, same⟩ := Option.map_eq_some_iff.1 stepped
      cases same
      exact .stepped moved
    · cases stepped
  | start pass relay token locked elapsed fate =>
    simp only [step] at stepped
    split at stepped
    · exact execute_below stepped
    · cases stepped
  | publish pass result =>
    simp only [step] at stepped
    split at stepped
    · split at stepped <;> cases stepped <;> exact .still rfl rfl
    · cases stepped
  | acknowledge pass fate =>
    simp only [step] at stepped
    split at stepped
    · exact execute_below stepped
    · cases stepped
  | retry pass fate =>
    simp only [step] at stepped
    split at stepped
    · exact execute_below stepped
    · cases stepped
  | crash pass =>
    simp only [step] at stepped
    split at stepped <;> cases stepped <;> exact .still rfl rfl

/-- **Passes use the table as the protocol allows.** -/
theorem reaches_store {trace : List (Input Error × Output)} (run : (relays parseUuid).Reaches s trace) :
    Protocol.outbox.Reaches s.store (entries trace) := by
  induction run with
  | start initial => exact .start initial.1
  | next run admitted stepped ih =>
    rw [entries, List.filterMap_append]
    cases step_below stepped with
    | still silent same =>
      rw [same]
      simpa [silent, entries] using ih
    | stepped moved => exact .next ih trivial moved

end Rustee.Outbox.Relay
