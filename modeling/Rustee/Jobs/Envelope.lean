/-
# Rustee.Jobs.Envelope -- a typed job and its serialized form

`rustee-jobs/src/envelope.rs` with `envelope/codec.rs`: an envelope is validated when it is encoded
and again when it is decoded, against the name and the version of the job type.
-/
import Rustee.Envelope.Carrier
import Rustee.Foundation.Uuid
import Rustee.Jobs.Message

namespace Rustee.Jobs

open Rustee.Foundation Rustee.Envelope Rustee.Outbox

set_option autoImplicit false

/-- `Job`: its constants, and what its derived implementations do.  A missing field is for the
payload type to judge. -/
structure JobType (Payload : Type) where
  name : String
  version : UInt16
  serialize : Payload → Option Json
  deserialize : Option Json → Option Payload

inductive EnvelopeError where
  | serialize
  | deserialize
  | tooLarge
  | invalidJobName
  | unexpectedJobName (expected actual : String)
  | unsupportedVersion (expected actual : UInt16)
  | invalidAttempt
  | attemptOverflow
  | blankIdempotencyKey
  | idempotencyKeyTooLarge
  | invalidTraceContext
  deriving DecidableEq, Repr

structure JobEnvelope (Payload : Type) where
  id : Uuid
  name : String
  version : UInt16
  payload : Payload
  idempotencyKey : Option String
  enqueuedAtUnixMs : UInt64
  attempt : UInt16
  traceContext : Option TraceContext

structure SerializedJobEnvelope (Payload : Type) where
  id : Uuid
  name : String
  version : UInt16
  payload : Payload
  idempotencyKey : Option String
  enqueuedAtUnixMs : UInt64
  attempt : UInt16
  traceContext : Option SerializedTraceContext

section

variable {Payload : Type} (job : JobType Payload)

/-! ## Validation -/

/-- `validate_metadata`.  A carrier has passed its own check when it was made. -/
def validateMetadata (name : String) (idempotencyKey : Option String) (attempt : UInt16)
    (traceContext : Option TraceContext) : Except EnvelopeError Unit :=
  if !isValidJobName job.name || !isValidJobName name then .error .invalidJobName
  else if name ≠ job.name then .error (.unexpectedJobName job.name name)
  else if attempt = 0 then .error .invalidAttempt
  else
    match validateOptionalBoundedIdentifier idempotencyKey EnvelopeError.blankIdempotencyKey
        .idempotencyKeyTooLarge with
    | .error error => .error error
    | .ok () =>
      if (traceContext.any fun context => !isCarrier context.traceparent context.tracestate) then
        .error .invalidTraceContext
      else .ok ()

/-- `JobEnvelope::validate`. -/
def JobEnvelope.validate (envelope : JobEnvelope Payload) : Except EnvelopeError Unit := do
  validateMetadata job envelope.name envelope.idempotencyKey envelope.attempt envelope.traceContext
  if envelope.version ≠ job.version then .error (.unsupportedVersion job.version envelope.version)
  else .ok ()

/-! ## Construction -/

/-- `with_metadata`. -/
def JobEnvelope.withMetadata (id : Uuid) (payload : Payload) (enqueuedAtUnixMs : UInt64) :
    JobEnvelope Payload :=
  ⟨id, job.name, job.version, payload, none, enqueuedAtUnixMs, 1, none⟩

/-! ## Encoding -/

/-- The derived serialization.  An absent trace context is left out, an absent key is `null`. -/
def JobEnvelope.json (envelope : JobEnvelope Payload) : Option Json :=
  (job.serialize envelope.payload).map fun payload =>
    .object ([("id", .string (uuidText envelope.id)), ("name", .string envelope.name),
      ("version", .ofU16 envelope.version), ("payload", payload),
      ("idempotency_key", .ofOption envelope.idempotencyKey),
      ("enqueued_at_unix_ms", .ofU64 envelope.enqueuedAtUnixMs),
      ("attempt", .ofU16 envelope.attempt)] ++
      envelope.traceContext.toList.map fun context => ("trace_context", context.json))

/-- `JobEnvelope::encode`. -/
def JobEnvelope.encode (serde : SerdeJson) (envelope : JobEnvelope Payload) :
    Except EnvelopeError (List UInt8) := do
  envelope.validate job
  match toVecBounded serde (envelope.json job) maxJobEnvelopeBytes with
  | .ok bytes => return bytes
  | .error .tooLarge => throw .tooLarge
  | .error .serialize => throw .serialize

/-- `JobEnvelope::message`. -/
def JobEnvelope.message (serde : SerdeJson) (envelope : JobEnvelope Payload) :
    Except EnvelopeError JobMessage := do
  return ⟨envelope.id, envelope.name, envelope.version, envelope.attempt,
    ← envelope.encode job serde⟩

/-! ## Decoding -/

def SerializedJobEnvelope.ofJson (value : Json) : Option (SerializedJobEnvelope Payload) := do
  match ← value.structFields ["id", "name", "version", "payload", "idempotency_key",
      "enqueued_at_unix_ms", "attempt", "trace_context"] with
  | [id, name, version, payload, idempotencyKey, enqueuedAtUnixMs, attempt, traceContext] =>
    return ⟨← (← Json.required Json.asString id) |> parseUuid, ← Json.required Json.asString name,
      ← Json.required Json.asU16 version, ← job.deserialize payload,
      ← Json.optional Json.asString idempotencyKey, ← Json.required Json.asU64 enqueuedAtUnixMs,
      ← Json.required Json.asU16 attempt,
      ← Json.optional SerializedTraceContext.ofJson traceContext⟩
  | _ => none

/-- `JobEnvelope::from_serialized`. -/
def JobEnvelope.fromSerialized (serialized : SerializedJobEnvelope Payload) :
    Except EnvelopeError (JobEnvelope Payload) := do
  let traceContext ← match serialized.traceContext with
    | none => pure none
    | some context =>
      match TraceContext.fromSerialized context with
      | some context => pure (some context)
      | none => throw .invalidTraceContext
  let envelope : JobEnvelope Payload := ⟨serialized.id, serialized.name, serialized.version,
    serialized.payload, serialized.idempotencyKey, serialized.enqueuedAtUnixMs, serialized.attempt,
    traceContext⟩
  envelope.validate job
  return envelope

/-- `JobEnvelope::decode`. -/
def JobEnvelope.decode (serde : SerdeJson) (bytes : List UInt8) :
    Except EnvelopeError (JobEnvelope Payload) :=
  if bytes.length > maxJobEnvelopeBytes then .error .tooLarge
  else
    match (serde.fromSlice bytes).bind (SerializedJobEnvelope.ofJson job) with
    | none => .error .deserialize
    | some serialized => JobEnvelope.fromSerialized job serialized

end

end Rustee.Jobs
