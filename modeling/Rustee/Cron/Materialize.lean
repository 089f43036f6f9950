/-
# Rustee.Cron.Materialize -- from a stored schedule to a staged job

`rustee-jobs-cron-sqlx/src/model.rs`: the columns of `rustee_recurring_jobs`, their
reconstruction, and the envelope that one firing renders.  The envelope carries two texts
that registration could not see, the clock of the pass and the instant the row was scheduled
for, so its size at a later pass is a new question each time.

JSON parsing and the printing of a parsed value are parameters (`Serde`): a payload comes
back from storage as a value and is printed again inside the envelope.
-/
import Rustee.Cron.Schedule
import Rustee.Envelope.Carrier
import Rustee.Jobs.Message

namespace Rustee.Cron

open Rustee.Foundation Rustee.Outbox Rustee.Jobs

set_option autoImplicit false

/-- What the module uses of `serde_json`: `from_slice` into a `Value`, and its text. -/
structure Serde where
  Value : Type
  fromSlice : List UInt8 → Option Value
  toText : Value → String

/-- A row of `rustee_recurring_jobs`, the columns that are read.  A timestamp is the number
of milliseconds it was written from. -/
structure RecurringJobRow where
  id : Uuid
  scheduleKey : String
  destination : String
  jobName : String
  schemaVersion : Int
  payload : List UInt8
  cronExpression : String
  timeZone : String
  priority : Int
  rateLimitKey : Option String
  rateLimitCapacity : Option Int
  rateLimitWindowMs : Option Int
  nextRunAt : Int
  enabled : Bool
  deriving DecidableEq, Repr

structure StoredRecurringJob (calendar : Calendar) (serde : Serde) where
  id : Uuid
  destination : OutboxDestination
  jobName : String
  schemaVersion : UInt16
  payload : serde.Value
  expression : CronExpression calendar
  timeZone : RecurringJobTimeZone calendar
  priority : OutboxPriority
  rateLimit : Option RecurringJobRateLimit
  scheduledAt : Int

section

variable {calendar : Calendar} {serde : Serde}

/-! ## Reconstruction -/

/-- `u16::try_from` of an `i32` column. -/
def storedVersion (value : Int) : Except RecurringJobError UInt16 :=
  if 0 ≤ value ∧ value ≤ 65535 then .ok (UInt16.ofNat value.toNat) else .error .storedSchedule

/-- `u8::try_from` of an `i16` column. -/
def storedPriority (value : Int) : Except RecurringJobError OutboxPriority :=
  if 0 ≤ value ∧ value ≤ 255 then .ok (UInt8.ofNat value.toNat) else .error .storedSchedule

/-- The three columns of the governor are all null or all present. -/
def RecurringJobRow.storedRateLimit (row : RecurringJobRow) :
    Except RecurringJobError (Option RecurringJobRateLimit) :=
  match row.rateLimitKey, row.rateLimitCapacity, row.rateLimitWindowMs with
  | none, none, none => .ok none
  | some key, some capacity, some windowMs =>
    (RecurringJobRateLimit.fromStoredParts key capacity windowMs).map some
  | _, _, _ => .error .storedSchedule

def decodeTemplatePayload (serde : Serde) (payload : List UInt8) :
    Except RecurringJobError serde.Value :=
  if payload.isEmpty ∨ payload.length > maxJobEnvelopeBytes then .error .invalidPayload
  else
    match serde.fromSlice payload with
    | some value => .ok value
    | none => .error .invalidPayload

def decodeStoredTemplate (serde : Serde) (jobName : String) (payload : List UInt8) :
    Except RecurringJobError serde.Value :=
  if !isValidJobName jobName then .error .storedSchedule
  else (decodeTemplatePayload serde payload).mapError fun _ => .storedSchedule

/-- `StoredRecurringJob::from_row`. -/
def fromRow (calendar : Calendar) (serde : Serde) (row : RecurringJobRow) :
    Except RecurringJobError (StoredRecurringJob calendar serde) := do
  let destination ← (OutboxDestination.new row.destination).mapError fun _ => .storedSchedule
  let schemaVersion ← storedVersion row.schemaVersion
  let payload ← decodeStoredTemplate serde row.jobName row.payload
  let expression ←
    (CronExpression.new calendar row.cronExpression).mapError fun _ => .storedSchedule
  let timeZone ←
    (RecurringJobTimeZone.new calendar row.timeZone).mapError fun _ => .storedSchedule
  let priority ← storedPriority row.priority
  let rateLimit ← row.storedRateLimit
  return ⟨row.id, destination, row.jobName, schemaVersion, payload, expression, timeZone,
    priority, rateLimit, row.nextRunAt⟩

/-! ## Rendering -/

structure MaterializedJobEnvelope (serde : Serde) where
  id : Uuid
  name : String
  version : UInt16
  payload : serde.Value
  idempotencyKey : Option String
  enqueuedAtUnixMs : Nat
  attempt : UInt16

/-- The fields after the id, in the order of their declaration. -/
def MaterializedJobEnvelope.fields (envelope : MaterializedJobEnvelope serde) : String :=
  ",\"name\":" ++ jsonString envelope.name ++
  ",\"version\":" ++ Nat.repr envelope.version.toNat ++
  ",\"payload\":" ++ serde.toText envelope.payload ++
  ",\"idempotency_key\":" ++ envelope.idempotencyKey.elim "null" jsonString ++
  ",\"enqueued_at_unix_ms\":" ++ Nat.repr envelope.enqueuedAtUnixMs ++
  ",\"attempt\":" ++ Nat.repr envelope.attempt.toNat

/-- The derived serialization. -/
def MaterializedJobEnvelope.json (envelope : MaterializedJobEnvelope serde) : String :=
  "\x7b\"id\":" ++ jsonString (uuidText envelope.id) ++ envelope.fields ++ "\x7d"

/-- The idempotency key of one occurrence. -/
def occurrenceKey (schedule : Uuid) (scheduledAt : Int) : String :=
  "rustee-recurring:" ++ uuidText schedule ++ ":" ++ Int.repr scheduledAt

/-- The envelope that `render_job_message` serializes. -/
def envelopeOf (id : Uuid) (jobName : String) (schemaVersion : UInt16) (payload : serde.Value)
    (now : Int) (idempotencyKey : Option String) : MaterializedJobEnvelope serde :=
  ⟨id, jobName, schemaVersion, payload, idempotencyKey, now.toNat, 1⟩

/-- `render_job_message`.  The bounded writer is given the text as one chunk: it refuses a text that
is longer than the bound, however it is cut. -/
def renderJobMessage (id : Uuid) (jobName : String) (schemaVersion : UInt16)
    (payload : serde.Value) (now : Int) (idempotencyKey : Option String) :
    Except RecurringJobError JobMessage :=
  if now < 0 then .error .clockOutOfRange
  else
    match Envelope.writeBounded maxJobEnvelopeBytes []
        [utf8 (envelopeOf id jobName schemaVersion payload now idempotencyKey).json] with
    | none => .error .invalidPayload
    | some bytes =>
      (JobMessage.fromParts id jobName schemaVersion 1 bytes).mapError fun _ => .invalidPayload

/-- `materialized_message`, given the job id it draws. -/
def materializedMessage (stored : StoredRecurringJob calendar serde) (jobId : Uuid) (now : Int) :
    Except RecurringJobError JobMessage :=
  (renderJobMessage jobId stored.jobName stored.schemaVersion stored.payload now
      (some (occurrenceKey stored.id stored.scheduledAt))).mapError fun error =>
    if error = .clockOutOfRange then error else .storedSchedule

/-- `encode_schedule_payload`, of the JSON the payload serializes to. -/
def encodeSchedulePayload (payload : Option (List UInt8)) :
    Except RecurringJobError (List UInt8) :=
  match payload with
  | none => .error .invalidPayload
  | some bytes => if bytes.length ≤ maxJobEnvelopeBytes then .ok bytes else .error .invalidPayload

/-- `validate_materialized_job`, given the ids it draws for the job and for the message. -/
def validateMaterializedJob (serde : Serde) (jobId outboxId : Uuid)
    (destination : OutboxDestination) (jobName : String) (schemaVersion : UInt16)
    (payload : List UInt8) (now : Int) (idempotencyKey : String) :
    Except RecurringJobError Unit := do
  let payload ← decodeTemplatePayload serde payload
  let message ← renderJobMessage jobId jobName schemaVersion payload now (some idempotencyKey)
  let _ ← (fromJobMessage outboxId destination message).mapError fun _ => .invalidPayload
  return ()

/-! ## What reconstruction gives -/

/-- The columns behind a reconstructed schedule. -/
structure Reads (row : RecurringJobRow) (stored : StoredRecurringJob calendar serde) : Prop where
  id : stored.id = row.id
  destination : OutboxDestination.new row.destination = .ok stored.destination
  jobName : stored.jobName = row.jobName
  validName : isValidJobName row.jobName = true
  version : storedVersion row.schemaVersion = .ok stored.schemaVersion
  payload : decodeTemplatePayload serde row.payload = .ok stored.payload
  expression : CronExpression.new calendar row.cronExpression = .ok stored.expression
  timeZone : RecurringJobTimeZone.new calendar row.timeZone = .ok stored.timeZone
  priority : storedPriority row.priority = .ok stored.priority
  rateLimit : row.storedRateLimit = .ok stored.rateLimit
  scheduledAt : stored.scheduledAt = row.nextRunAt

variable {jobName : String}

theorem decodeStoredTemplate_eq_ok_iff {payload : List UInt8} {value : serde.Value} :
    decodeStoredTemplate serde jobName payload = .ok value ↔
      isValidJobName jobName = true ∧ decodeTemplatePayload serde payload = .ok value := by
  unfold decodeStoredTemplate
  cases isValidJobName jobName <;> simp

theorem fromRow_eq_ok_iff {row : RecurringJobRow} {stored : StoredRecurringJob calendar serde} :
    fromRow calendar serde row = .ok stored ↔ Reads row stored := by
  simp only [fromRow, bind_eq_ok, mapError_eq_ok, decodeStoredTemplate_eq_ok_iff]
  constructor
  · rintro ⟨destination, isDestination, version, isVersion, payload, ⟨valid, isPayload⟩,
      expression, isExpression, zone, isZone, priority, isPriority, limit, isLimit, same⟩
    cases same
    exact ⟨rfl, isDestination, rfl, valid, isVersion, isPayload, isExpression, isZone,
      isPriority, isLimit, rfl⟩
  · intro reads
    refine ⟨_, reads.destination, _, reads.version, _, ⟨reads.validName, reads.payload⟩, _,
      reads.expression, _, reads.timeZone, _, reads.priority, _, reads.rateLimit, ?_⟩
    obtain ⟨id, destination, jobName, version, payload, expression, zone, priority, limit, at_⟩ :=
      stored
    cases reads.id
    cases reads.jobName
    cases reads.scheduledAt
    rfl

/-! ## What rendering needs -/

theorem utf8_json_ne_nil (envelope : MaterializedJobEnvelope serde) :
    utf8 envelope.json ≠ [] := by
  apply List.ne_nil_of_length_pos
  simp only [length_utf8, MaterializedJobEnvelope.json, byteLen_append,
    byteLen_jsonString_uuidText]
  omega

/-- **Rendering succeeds exactly** for a clock at or after the epoch, a valid name and an
envelope within the bound. -/
theorem renderJobMessage_eq_ok_iff {id : Uuid} {schemaVersion : UInt16} {payload : serde.Value}
    {now : Int}
    {key : Option String} {message : JobMessage} :
    renderJobMessage id jobName schemaVersion payload now key = .ok message ↔
      0 ≤ now ∧ isValidJobName jobName = true ∧
      byteLen (envelopeOf id jobName schemaVersion payload now key).json ≤ maxJobEnvelopeBytes ∧
      message = ⟨id, jobName, schemaVersion, 1,
        utf8 (envelopeOf id jobName schemaVersion payload now key).json⟩ := by
  unfold renderJobMessage
  rw [Envelope.writeBounded_singleton, length_utf8]
  by_cases clock : now < 0
  · simp [clock, Int.not_le.2 clock]
  by_cases fits : byteLen (envelopeOf id jobName schemaVersion payload now key).json ≤
      maxJobEnvelopeBytes
  · simp only [clock, if_false, fits, if_true, mapError_eq_ok, JobMessage.fromParts_eq_ok_iff,
      true_and, Int.not_lt.1 clock]
    constructor
    · rintro ⟨rfl, admitted⟩
      exact ⟨admitted.name, rfl⟩
    · rintro ⟨valid, rfl⟩
      exact ⟨rfl, valid, (show (1 : UInt16) ≠ 0 by decide), utf8_json_ne_nil _, fits⟩
  · simp [clock, fits]

/-- A rendered message is one the outbox takes. -/
theorem admitted_of_renderJobMessage {id : Uuid} {schemaVersion : UInt16} {payload : serde.Value}
    {now : Int} {key : Option String} {message : JobMessage}
    (ok : renderJobMessage id jobName schemaVersion payload now key = .ok message) :
    message.Admitted := by
  obtain ⟨-, valid, fits, rfl⟩ := renderJobMessage_eq_ok_iff.1 ok
  exact ⟨valid, (show (1 : UInt16) ≠ 0 by decide), utf8_json_ne_nil _, fits⟩

end

end Rustee.Cron
