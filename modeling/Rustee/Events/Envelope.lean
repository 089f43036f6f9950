/-
# Rustee.Events.Envelope -- a typed event and its serialized form

`rustee-events/src/envelope.rs` with `envelope/codec.rs`.  An envelope is validated when it is made,
by a constructor or by decoding, and encoding does not look at it again; so it carries its
validity.
-/
import Rustee.Envelope.Carrier
import Rustee.Events.Message
import Rustee.Foundation.Uuid

namespace Rustee.Events

open Rustee.Foundation Rustee.Envelope Rustee.Outbox

set_option autoImplicit false

/-- `Event`: its constants, and what its derived implementations do. -/
structure EventType (Payload : Type) where
  name : String
  version : UInt16
  serialize : Payload → Option Json
  deserialize : Option Json → Option Payload

inductive EnvelopeError where
  | serialize
  | deserialize
  | tooLarge
  | unexpectedEventType (expected actual : String)
  | invalidEventType
  | unsupportedVersion (expected actual : UInt16)
  | blankKey
  | keyTooLarge
  | blankCorrelationId
  | correlationIdTooLarge
  | blankCausationId
  | causationIdTooLarge
  | invalidTraceContext
  deriving DecidableEq, Repr

/-- `validate_event_type`. -/
def validateEventType (eventType : String) : Except EnvelopeError Unit :=
  if !isValidEventType eventType then .error .invalidEventType else .ok ()

/-- `validate_partition_key`. -/
def validatePartitionKey (key : String) : Except EnvelopeError Unit :=
  if isBlank key then .error .blankKey
  else if byteLen key > maxEventPartitionKeyBytes then .error .keyTooLarge
  else .ok ()

section

variable {Payload : Type} (event : EventType Payload)

/-- `validate_metadata`.  A carrier has passed its own check when it was made. -/
def validateMetadata (eventType key : String) (correlationId causationId : Option String)
    (traceContext : Option TraceContext) : Except EnvelopeError Unit :=
  if eventType ≠ event.name then .error (.unexpectedEventType event.name eventType)
  else do
    validateEventType eventType
    validatePartitionKey key
    validateOptionalBoundedIdentifier correlationId .blankCorrelationId .correlationIdTooLarge
    validateOptionalBoundedIdentifier causationId .blankCausationId .causationIdTooLarge
    if (traceContext.any fun context => !isCarrier context.traceparent context.tracestate) then
      .error .invalidTraceContext
    else .ok ()

/-- `EventEnvelope::validate`, of the fields. -/
def validate (eventType : String) (version : UInt16) (key : String)
    (correlationId causationId : Option String) (traceContext : Option TraceContext) :
    Except EnvelopeError Unit := do
  validateMetadata event eventType key correlationId causationId traceContext
  if version ≠ event.version then .error (.unsupportedVersion event.version version)
  else .ok ()

structure EventEnvelope where
  id : Uuid
  eventType : String
  version : UInt16
  key : String
  payload : Payload
  occurredAtUnixMs : UInt64
  correlationId : Option String
  causationId : Option String
  traceContext : Option TraceContext
  valid : validate event eventType version key correlationId causationId traceContext = .ok ()

variable {event}

/-! ## Encoding -/

/-- The derived serialization.  An absent trace context is left out, absent identifiers are
`null`. -/
def EventEnvelope.json (envelope : EventEnvelope event) : Option Json :=
  (event.serialize envelope.payload).map fun payload =>
    .object ([("id", .string (uuidText envelope.id)), ("event_type", .string envelope.eventType),
      ("version", .ofU16 envelope.version), ("key", .string envelope.key), ("payload", payload),
      ("occurred_at_unix_ms", .ofU64 envelope.occurredAtUnixMs),
      ("correlation_id", .ofOption envelope.correlationId),
      ("causation_id", .ofOption envelope.causationId)] ++
      envelope.traceContext.toList.map fun context => ("trace_context", context.json))

/-- `EventEnvelope::encode`. -/
def EventEnvelope.encode (serde : SerdeJson) (envelope : EventEnvelope event) :
    Except EnvelopeError (List UInt8) :=
  match toVecBounded serde envelope.json maxEventEnvelopeBytes with
  | .ok bytes => .ok bytes
  | .error .tooLarge => .error .tooLarge
  | .error .serialize => .error .serialize

/-- `EventEnvelope::message`. -/
def EventEnvelope.message (serde : SerdeJson) (envelope : EventEnvelope event) :
    Except EnvelopeError EventMessage := do
  return ⟨envelope.id, envelope.eventType, envelope.version, envelope.key, ← envelope.encode serde⟩

end

end Rustee.Events
