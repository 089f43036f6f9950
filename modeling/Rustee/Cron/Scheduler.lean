/-
# Rustee.Cron.Scheduler -- registration, pausing and what a due pass decides

`rustee-jobs-cron-sqlx/src/scheduler.rs` and `src/scheduler/registration.rs`.  A call is a function
of the database it finds, of the clock it reads and of the identifiers it draws; one that fails
rolls its transaction back.  Of a due pass, here is what it makes of one schedule that it selected;
passes that overlap are in `Rustee.Cron.Governor` and `Rustee.Cron.Occurrences`.
-/
import Rustee.Cron.Materialize

namespace Rustee.Cron

open Rustee.Foundation Rustee.Outbox Rustee.Jobs

set_option autoImplicit false

/-- The tables the scheduler reads: its schedules, the windows of its governor by key, and
the outbox it shares with every other producer. -/
structure Database where
  jobs : List RecurringJobRow
  windows : String → Option RateWindowRow
  outbox : List OutboxMessage

inductive RecurringJobRegistration where
  | registered (id : Uuid)
  | alreadyPresent (id : Uuid)
  deriving DecidableEq, Repr

inductive RecurringJobPauseOutcome where
  | paused
  | notFoundOrAlreadyPaused
  deriving DecidableEq, Repr

inductive RecurringJobResumeOutcome where
  | resumed
  | notFoundOrAlreadyEnabled
  deriving DecidableEq, Repr

/-- An `UPDATE`: the rows it leaves and how many it affected. -/
def updateWhere (jobs : List RecurringJobRow) (where_ : RecurringJobRow → Bool)
    (set : RecurringJobRow → RecurringJobRow) : List RecurringJobRow × Nat :=
  (jobs.map fun row => if where_ row then set row else row, jobs.countP where_)

section

variable {calendar : Calendar} {serde : Serde}

/-! ## Registration -/

/-- `enforce_registration_policy`.  The statement takes any one row of the key. -/
def enforceRegistrationPolicy (jobs : List RecurringJobRow) (limit : RecurringJobRateLimit) :
    Except RecurringJobError Unit :=
  match jobs.find? fun row => row.rateLimitKey = some limit.key.value with
  | none => .ok ()
  | some row =>
    match row.rateLimitCapacity, row.rateLimitWindowMs with
    | some capacity, some windowMs =>
      if capacity = limit.capacityI32 ∧ windowMs = limit.windowMs then .ok ()
      else .error .rateLimitPolicyConflict
    | _, _ => .error .storedSchedule

/-- The guard of `register`: only a governed job has a policy to compare. -/
def enforcePolicy (jobs : List RecurringJobRow) (limit : Option RecurringJobRateLimit) :
    Except RecurringJobError Unit :=
  match limit with
  | none => .ok ()
  | some limit => enforceRegistrationPolicy jobs limit

/-- The row that `insert_recurring_job_registration` binds. -/
def registrationRow (job : RecurringJob calendar) (payload : List UInt8) (id : Uuid)
    (nextRunAt : Int) : RecurringJobRow where
  id := id
  scheduleKey := job.key.value
  destination := job.destination.value
  jobName := job.jobName
  schemaVersion := job.jobVersion.toNat
  payload := payload
  cronExpression := job.expression.value
  timeZone := job.timeZone.name
  priority := job.priority.toNat
  rateLimitKey := job.rateLimit.map fun limit => limit.key.value
  rateLimitCapacity := job.rateLimit.map fun limit => limit.capacityI32
  rateLimitWindowMs := job.rateLimit.map fun limit => limit.windowMs
  nextRunAt := nextRunAt
  enabled := true

/-- `INSERT ... ON CONFLICT (schedule_key) DO NOTHING`; a taken primary key is an error. -/
def insertRecurringJobRegistration (jobs : List RecurringJobRow) (row : RecurringJobRow) :
    Except RecurringJobError (Option (List RecurringJobRow)) :=
  if jobs.any fun present => present.scheduleKey = row.scheduleKey then .ok none
  else if jobs.any fun present => present.id = row.id then .error .storage
  else .ok (some (jobs ++ [row]))

/-- `existing_registration_id_if_identical`: the definition columns, not the run state. -/
def existingRegistrationIdIfIdentical (jobs : List RecurringJobRow) (row : RecurringJobRow) :
    Except RecurringJobError (Option Uuid) :=
  match jobs.find? fun present => present.scheduleKey = row.scheduleKey with
  | none => .error .storageInvariant
  | some present =>
    if present = { row with
        id := present.id, nextRunAt := present.nextRunAt, enabled := present.enabled } then
      .ok (some present.id)
    else .ok none

/-- The identifiers one registration draws: for the schedule, and for the message it renders
to test the definition. -/
structure RegistrationDraw where
  id : Uuid
  jobId : Uuid
  outboxId : Uuid
  deriving DecidableEq, Repr

/-- The end of `register`: the row is new, or an identical one is there. -/
def commitRegistration (db : Database) (row : RecurringJobRow) :
    Except RecurringJobError (Database × RecurringJobRegistration) := do
  match ← insertRecurringJobRegistration db.jobs row with
  | some jobs => return ({ db with jobs }, .registered row.id)
  | none =>
    match ← existingRegistrationIdIfIdentical db.jobs row with
    | some id => return (db, .alreadyPresent id)
    | none => throw .registrationConflict

def register (serde : Serde) (db : Database) (job : RecurringJob calendar)
    (draw : RegistrationDraw) (now : Int) :
    Except RecurringJobError (Database × RecurringJobRegistration) := do
  let payload ← encodeSchedulePayload job.payload
  enforcePolicy db.jobs job.rateLimit
  let nextRunAt ← job.expression.nextAfterUnixMs now job.timeZone
  validateMaterializedJob serde draw.jobId draw.outboxId job.destination job.jobName
    job.jobVersion payload now (occurrenceKey draw.id nextRunAt)
  commitRegistration db (registrationRow job payload draw.id nextRunAt)

/-! ## Pausing -/

def pause (db : Database) (key : RecurringJobKey) : Database × RecurringJobPauseOutcome :=
  let (jobs, rowsAffected) :=
    updateWhere db.jobs (fun row => row.scheduleKey = key.value && row.enabled)
      fun row => { row with enabled := false }
  ({ db with jobs }, if rowsAffected = 1 then .paused else .notFoundOrAlreadyPaused)

/-- The instant at which `resume` schedules the row it read. -/
def resumeNextRunAt (calendar : Calendar) (row : RecurringJobRow) (now : Int) :
    Except RecurringJobError Int := do
  let expression ←
    (CronExpression.new calendar row.cronExpression).mapError fun _ => .storedSchedule
  let timeZone ←
    (RecurringJobTimeZone.new calendar row.timeZone).mapError fun _ => .storedSchedule
  expression.nextAfterUnixMs now timeZone

def resume (calendar : Calendar) (db : Database) (key : RecurringJobKey) (now : Int) :
    Except RecurringJobError (Database × RecurringJobResumeOutcome) :=
  match db.jobs.find? fun row => row.scheduleKey = key.value && !row.enabled with
  | none => .ok (db, .notFoundOrAlreadyEnabled)
  | some row => do
    let nextRunAt ← resumeNextRunAt calendar row now
    let (jobs, rowsAffected) :=
      updateWhere db.jobs (fun present => present.id = row.id && !present.enabled)
        fun present => { present with enabled := true, nextRunAt }
    if rowsAffected ≠ 1 then throw .storageInvariant
    return ({ db with jobs }, .resumed)

/-! ## A due pass -/

/-- `WHERE enabled AND next_run_at <= now`. -/
def isDue (now : Int) (row : RecurringJobRow) : Bool := row.enabled && decide (row.nextRunAt ≤ now)

/-- The identifiers drawn for one occurrence: of the job, and of its outbox row. -/
structure FireDraw where
  jobId : Uuid
  outboxId : Uuid
  deriving DecidableEq, Repr

/-- The governor's part in firing one schedule, given the window row of its key. -/
def govern (window : Option RateWindowRow) (limit : Option RecurringJobRateLimit) (now : Int) :
    Except RecurringJobError (ConsumeOutcome × Option RateWindowRow) :=
  match limit with
  | none => .ok (.allowed, window)
  | some limit => (consumeWindow window limit now).map fun (outcome, row) => (outcome, some row)

/-- What a pass makes of one selected schedule. -/
inductive Firing where
  | deferred (nextWindowAt : Int)
  | staged (nextRunAt : Int) (message : OutboxMessage)

/-- The part of the loop body after an allowed consumption, up to staging. -/
def materialize (stored : StoredRecurringJob calendar serde) (draw : FireDraw) (now : Int) :
    Except RecurringJobError Firing := do
  let nextRunAt ← stored.expression.nextAfterUnixMs now stored.timeZone
  let message ← materializedMessage stored draw.jobId now
  let outboxMessage ←
    (fromJobMessage draw.outboxId stored.destination message).mapError fun _ => .storedSchedule
  return .staged nextRunAt (outboxMessage.withPriority stored.priority)

/-- The loop body as far as it decides what to write. -/
def fireStored (window : Option RateWindowRow) (stored : StoredRecurringJob calendar serde)
    (draw : FireDraw) (now : Int) :
    Except RecurringJobError (Firing × Option RateWindowRow) :=
  match govern window stored.rateLimit now with
  | .error error => .error error
  | .ok (.deferred nextWindowAt, window) => .ok (.deferred nextWindowAt, window)
  | .ok (.allowed, window) => (materialize stored draw now).map fun firing => (firing, window)

end

end Rustee.Cron
