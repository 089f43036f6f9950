/-
# Rustee.Outbox.RoundTrip -- from an envelope to a leased message

`message/staging.rs` of `rustee-outbox-sqlx` makes the rows and `lease/record.rs` reads them back.
`OutboxMessage::new` is private to the crate, so every staged message was made by one of four
constructors, and `ReturnsStaged` says of each what a lease should return.

No lease gets that far, for the statement that would give it is refused (`never_leased_back`).
-/
import Rustee.Events.Envelope
import Rustee.Jobs.Envelope
import Rustee.Outbox.Relay

namespace Rustee.Outbox

open Rustee.Foundation Rustee.Envelope Rustee.Events Rustee.Jobs Relay

set_option autoImplicit false

/-! ## Staging -/

inductive StageEventError where
  | envelope (source : Events.EnvelopeError)
  | outbox (source : OutboxMessageError)
  deriving DecidableEq, Repr

inductive StageJobError where
  | envelope (source : Jobs.EnvelopeError)
  | outbox (source : OutboxMessageError)
  deriving DecidableEq, Repr

section

variable {Payload : Type}

/-- `OutboxMessage::event`, given the row id it draws. -/
def OutboxMessage.event {event : EventType Payload} (serde : SerdeJson) (id : OutboxId)
    (destination : OutboxDestination) (envelope : EventEnvelope event) :
    Except StageEventError OutboxMessage := do
  let message ← (envelope.message serde).mapError .envelope
  (fromEventMessage id destination message).mapError .outbox

/-- `OutboxMessage::job`, given the row id it draws. -/
def OutboxMessage.job (job : JobType Payload) (serde : SerdeJson) (id : OutboxId)
    (destination : OutboxDestination) (envelope : JobEnvelope Payload) :
    Except StageJobError OutboxMessage := do
  let message ← (envelope.message job serde).mapError .envelope
  (fromJobMessage id destination message).mapError .outbox

end

/-! ## The round trip -/

/-- A leased message is what its row was staged from, whichever constructor staged it. -/
structure ReturnsStaged (serde : SerdeJson) (staged : OutboxMessage) (record : StoredLease)
    (leased : Leased) : Prop where
  lease : leased.lease = record.lease ∧ leased.lease.id = staged.id
  destination : leased.destination = staged.destination
  eventMessage : ∀ (id : OutboxId) (destination : OutboxDestination) (message : EventMessage)
    (made : OutboxMessage) (priority : OutboxPriority),
    fromEventMessage id destination message = .ok made → staged = made.withPriority priority →
    leased.message = .event message
  jobMessage : ∀ (id : OutboxId) (destination : OutboxDestination) (message : JobMessage)
    (made : OutboxMessage) (priority : OutboxPriority),
    fromJobMessage id destination message = .ok made → staged = made.withPriority priority →
    leased.message = .job message
  event : ∀ {Payload : Type} {event : EventType Payload} (envelope : EventEnvelope event)
    (id : OutboxId) (destination : OutboxDestination) (made : OutboxMessage)
    (priority : OutboxPriority), OutboxMessage.event serde id destination envelope = .ok made →
    staged = made.withPriority priority →
    leased.message = .event
        ⟨envelope.id, envelope.eventType, envelope.version, envelope.key, staged.payload⟩ ∧
      envelope.encode serde = .ok staged.payload
  job : ∀ {Payload : Type} {job : JobType Payload} (envelope : JobEnvelope Payload)
    (id : OutboxId) (destination : OutboxDestination) (made : OutboxMessage)
    (priority : OutboxPriority), OutboxMessage.job job serde id destination envelope = .ok made →
    staged = made.withPriority priority →
    leased.message = .job
        ⟨envelope.id, envelope.name, envelope.version, envelope.attempt, staged.payload⟩ ∧
      staged.messageId = uuidText envelope.id ∧ staged.messageType = envelope.name ∧
      staged.schemaVersion = envelope.version ∧ staged.deliveryAttempt = envelope.attempt ∧
      -- `serde_json` reads back this document, and the payload type its own value
      ((∀ document, envelope.json job = some document →
          serde.fromSlice (serde.toWriter document).flatten = some document) →
        (∀ value, job.serialize envelope.payload = some value →
          job.deserialize (some value) = some envelope.payload) →
        JobEnvelope.decode job serde staged.payload = .ok envelope)

/-- A job without arguments. -/
def welcomeJob : JobType Unit where
  name := "mail.welcome"
  version := 1
  serialize := fun _ => some .null
  deserialize := fun
    | some .null => some ()
    | _ => none

def welcomeEnvelope : JobEnvelope Unit := .withMetadata welcomeJob 7 () 1700000000000

@[irreducible] def welcomeBytes : List UInt8 :=
  utf8 ("\x7b\"id\":\"00000000-0000-0000-0000-000000000007\",\"name\":\"mail.welcome\"," ++
    "\"version\":1,\"payload\":null,\"idempotency_key\":null," ++
    "\"enqueued_at_unix_ms\":1700000000000,\"attempt\":1\x7d")

/-- `serde_json` on the one document. -/
def welcomeSerde : SerdeJson where
  toWriter := fun _ => [welcomeBytes]
  fromSlice := fun bytes => if bytes = welcomeBytes then welcomeEnvelope.json welcomeJob else none

def welcomeStaged : OutboxMessage where
  id := 1
  kind := .job
  destination := ⟨"letters", by decide⟩
  messageId := "00000000-0000-0000-0000-000000000007"
  messageType := "mail.welcome"
  schemaVersion := 1
  orderingKey := "00000000-0000-0000-0000-000000000007"
  deliveryAttempt := 1
  priority := 0
  payload := welcomeBytes
  valid := by decide +kernel

theorem welcome_job :
    OutboxMessage.job welcomeJob welcomeSerde 1 welcomeStaged.destination welcomeEnvelope =
      .ok welcomeStaged := by
  decide +kernel

/-- The table with the one row. -/
def welcomeOutbox : Protocol.State := ⟨0, [stagedRow welcomeStaged 0 0], [], []⟩

def welcomeTrace : List (Protocol.Input × Protocol.Output) :=
  [(.stage 1 welcomeStaged, .staged (.inserted 1)), (.commit 1, .done)]

theorem welcome_reached : Protocol.outbox.Reaches welcomeOutbox welcomeTrace :=
  .next (.next (.start Protocol.emptyOutbox_initial) trivial rfl) trivial rfl

/-! ## Leasing -/

/-- `lease_events` and `lease_jobs`, as their statement is sent. -/
def leaseMessages (rows : List OutboxRow) (kind : OutboxKind) (destination : OutboxDestination)
    (config : LeaseConfig) (token : Uuid) (locked : List OutboxId) (now claimedAt : Int) :
    Except OutboxError (List OutboxRow × List Leased) := do
  let (after, records) ← leaseSent rows kind destination config token locked now claimedAt
  let leases ← leasedMessages parseUuid kind records
  return (after, leases)

/-- Some lease, on a table that has a row of the message, yields what the message was made from. -/
def LeasedBack (serde : SerdeJson) (staged : OutboxMessage) : Prop :=
  ∃ rows row kind destination config token locked now claimedAt after leases,
    row ∈ rows ∧ row.message = staged ∧
    leaseMessages rows kind destination config token locked now claimedAt = .ok (after, leases) ∧
    ∃ record leased, leased ∈ leases ∧ ReturnsStaged serde staged record leased

/-- **No message is leased back.**  Every lease fails in the database. -/
theorem never_leased_back (serde : SerdeJson) (staged : OutboxMessage) :
    ¬LeasedBack serde staged ∧
      ∀ rows kind destination config token locked now claimedAt,
        leaseMessages rows kind destination config token locked now claimedAt =
          .error .database := by
  have fails : ∀ rows kind destination config token locked now claimedAt,
      leaseMessages rows kind destination config token locked now claimedAt =
        .error .database := by
    intro rows kind destination config token locked now claimedAt
    rw [leaseMessages, leaseSent_refused]
    rfl
  refine ⟨?_, fails⟩
  rintro ⟨rows, row, kind, destination, config, token, locked, now, claimedAt, after, leases, -, -,
    ok, -⟩
  rw [fails] at ok
  cases ok

/-- The job that is staged and committed, and the lease that should return it. -/
theorem welcome_not_leased :
    OutboxMessage.job welcomeJob welcomeSerde 1 welcomeStaged.destination welcomeEnvelope =
        .ok welcomeStaged ∧
      Protocol.outbox.Reaches welcomeOutbox welcomeTrace ∧
      leaseMessages welcomeOutbox.rows .job welcomeStaged.destination Protocol.shortLease 7 [] 0 0 =
        .error .database := by
  refine ⟨welcome_job, welcome_reached, ?_⟩
  rw [leaseMessages, leaseSent_refused]
  rfl

end Rustee.Outbox
