/-
# Rustee.Outbox.Message -- what is staged, and the bounds on its timing

`rustee-outbox-sqlx/src/message/model.rs` and `src/timing.rs`: the message a caller stages
in its own transaction, with the admission test every stored field has passed, and the
bounded durations that leases, retries and delayed staging are configured with.  Each type
carries its test as a field, so a value of it is a value the constructor accepted.
-/
import Rustee.Foundation.RustStd

namespace Rustee.Outbox

open Rustee.Foundation

set_option autoImplicit false

abbrev Uuid := BitVec 128

abbrev OutboxId := Uuid

instance : LawfulBEq OutboxId := inferInstance

def maxDestinationBytes : Nat := 255

def maxMessageIdBytes : Nat := 255

def maxMessageTypeBytes : Nat := 255

def maxOrderingKeyBytes : Nat := 512

def maxPayloadBytes : Nat := 1024 * 1024

/-! ## Messages -/

inductive OutboxMessageError where
  | invalidDestination
  | invalidMessageId
  | invalidMessageType
  | invalidOrderingKey
  | invalidDeliveryAttempt
  | invalidPayload
  deriving DecidableEq, Repr

/-- `validate_text`. -/
def validateText (value : String) (maxBytes : Nat) (error : OutboxMessageError) :
    Except OutboxMessageError Unit :=
  if isBoundedText maxBytes value then .ok () else .error error

structure OutboxDestination where
  value : String
  valid : validateText value maxDestinationBytes .invalidDestination = .ok ()
  deriving DecidableEq

def OutboxDestination.new (destination : String) : Except OutboxMessageError OutboxDestination :=
  match valid : validateText destination maxDestinationBytes .invalidDestination with
  | .error error => .error error
  | .ok () => .ok ⟨destination, valid⟩

inductive OutboxKind where
  | event
  | job
  deriving DecidableEq, Repr

/-- `OutboxPriority`; `NORMAL` is zero. -/
abbrev OutboxPriority := UInt8

/-- `validate_durable_message_fields`, the boundary that staging and the reconstruction of
leased records share. -/
def validateDurableMessageFields (messageId messageType orderingKey : String)
    (deliveryAttempt : UInt16) (payload : List UInt8) : Except OutboxMessageError Unit := do
  validateText messageId maxMessageIdBytes .invalidMessageId
  validateText messageType maxMessageTypeBytes .invalidMessageType
  validateText orderingKey maxOrderingKeyBytes .invalidOrderingKey
  if deliveryAttempt = 0 then throw .invalidDeliveryAttempt
  if payload.isEmpty ∨ payload.length > maxPayloadBytes then throw .invalidPayload

theorem validateText_eq_ok {value : String} {maxBytes : Nat} {error : OutboxMessageError} :
    validateText value maxBytes error = .ok () ↔ isBoundedText maxBytes value = true := by
  unfold validateText
  split <;> simp_all

/-- What the boundary admits. -/
structure DurableFields (messageId messageType orderingKey : String) (deliveryAttempt : UInt16)
    (payload : List UInt8) : Prop where
  messageId : isBoundedText maxMessageIdBytes messageId = true
  messageType : isBoundedText maxMessageTypeBytes messageType = true
  orderingKey : isBoundedText maxOrderingKeyBytes orderingKey = true
  attempted : deliveryAttempt ≠ 0
  nonempty : payload ≠ []
  bounded : payload.length ≤ maxPayloadBytes

theorem validateDurableMessageFields_eq_ok {messageId messageType orderingKey : String}
    {deliveryAttempt : UInt16} {payload : List UInt8} :
    validateDurableMessageFields messageId messageType orderingKey deliveryAttempt payload = .ok () ↔
      DurableFields messageId messageType orderingKey deliveryAttempt payload := by
  unfold validateDurableMessageFields
  constructor
  · intro ok
    obtain ⟨⟨⟩, isId, ok⟩ := bind_eq_ok.1 ok
    obtain ⟨⟨⟩, isType, ok⟩ := bind_eq_ok.1 ok
    obtain ⟨⟨⟩, isKey, ok⟩ := bind_eq_ok.1 ok
    by_cases attempted : deliveryAttempt = 0
    · simp [attempted, throw, throwThe, MonadExceptOf.throw, bind, Except.bind] at ok
    · by_cases refused : payload = [] ∨ maxPayloadBytes < payload.length
      · simp [attempted, refused, throw, throwThe, MonadExceptOf.throw] at ok
      · simp only [not_or, Nat.not_lt] at refused
        exact ⟨validateText_eq_ok.1 isId, validateText_eq_ok.1 isType, validateText_eq_ok.1 isKey,
          attempted, refused.1, refused.2⟩
  · intro fields
    rw [validateText_eq_ok.2 fields.messageId, validateText_eq_ok.2 fields.messageType,
      validateText_eq_ok.2 fields.orderingKey]
    have fits : ¬maxPayloadBytes < payload.length := Nat.not_lt.2 fields.bounded
    simp [fields.attempted, fields.nonempty, fits, bind, Except.bind, pure, Except.pure]

structure OutboxMessage where
  id : OutboxId
  kind : OutboxKind
  destination : OutboxDestination
  messageId : String
  messageType : String
  schemaVersion : UInt16
  orderingKey : String
  deliveryAttempt : UInt16
  priority : OutboxPriority
  payload : List UInt8
  valid : validateDurableMessageFields messageId messageType orderingKey deliveryAttempt payload =
    .ok ()
  deriving DecidableEq

/-- `OutboxMessage::new`, given the row id it draws. -/
def OutboxMessage.new (id : OutboxId) (kind : OutboxKind) (destination : OutboxDestination)
    (messageId messageType : String) (schemaVersion : UInt16) (orderingKey : String)
    (deliveryAttempt : UInt16) (payload : List UInt8) : Except OutboxMessageError OutboxMessage :=
  match valid : validateDurableMessageFields messageId messageType orderingKey deliveryAttempt
      payload with
  | .error error => .error error
  | .ok () =>
    .ok ⟨id, kind, destination, messageId, messageType, schemaVersion, orderingKey,
      deliveryAttempt, 0, payload, valid⟩

/-- `with_priority`. -/
def OutboxMessage.withPriority (message : OutboxMessage) (priority : OutboxPriority) :
    OutboxMessage :=
  { message with priority }

/-- The columns of the unique constraint. -/
def OutboxMessage.key (message : OutboxMessage) : OutboxKind × OutboxDestination × String :=
  (message.kind, message.destination, message.messageId)

inductive StageOutcome where
  | inserted (id : OutboxId)
  | alreadyPresent
  deriving DecidableEq, Repr

/-- `PostgresOutbox::stage`: `ON CONFLICT (kind, destination, message_id) DO NOTHING`. -/
def stage (outbox : List OutboxMessage) (message : OutboxMessage) :
    StageOutcome × List OutboxMessage :=
  if outbox.any fun present => decide (present.key = message.key) then (.alreadyPresent, outbox)
  else (.inserted message.id, outbox ++ [message])

theorem stage_eq_inserted {outbox added : List OutboxMessage} {message : OutboxMessage}
    {id : OutboxId} (staged : stage outbox message = (.inserted id, added)) : id = message.id := by
  unfold stage at staged
  split at staged <;> cases staged
  rfl

/-! ## Timing -/

def maxBatchSize : Nat := 1000

def minPostgresInterval : Duration := .fromMillis 1

def maxLeaseDuration : Duration := .fromMillis (60 * 60 * 1000)

def maxJobScheduleDelay : Duration := .fromMillis (8784 * 60 * 60 * 1000)

/-- `LeaseConfig`; the last fields are what `new` checks. -/
structure LeaseConfig where
  batchSize : Nat
  leaseDuration : Duration
  batch_pos : 0 < batchSize
  batch_fits : batchSize ≤ maxBatchSize
  duration_fits : minPostgresInterval.nanos ≤ leaseDuration.nanos ∧
    leaseDuration.nanos ≤ maxLeaseDuration.nanos

/-- The bounded delay that job and event schedules share, as `after` checks it. -/
structure Schedule where
  delay : Duration
  bounded : minPostgresInterval.nanos ≤ delay.nanos ∧ delay.nanos ≤ maxJobScheduleDelay.nanos
  deriving DecidableEq

abbrev JobSchedule := Schedule

abbrev EventSchedule := Schedule

def Schedule.delayMillis (schedule : Schedule) : Nat := schedule.delay.asMillis

end Rustee.Outbox
