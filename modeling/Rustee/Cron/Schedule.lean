/-
# Rustee.Cron.Schedule -- schedule definitions and the next occurrence

`rustee-jobs-cron-sqlx/src/schedule.rs`.  What the `cron` and `chrono-tz` crates know is a
parameter, the `Calendar`: which texts parse, the instants that an expression's iterator yields
from a start, and the instants that share one wall-clock reading.  The iterator's list is finite
because its years are bounded.  Nothing is assumed of it here: it may leave out occurrences from
some starts, as the crate does from years before the first.
-/
import Rustee.Cron.RateLimit
import Rustee.Outbox.Message

namespace Rustee.Cron

open Rustee.Foundation Rustee.Outbox

set_option autoImplicit false

def maxCronExpressionBytes : Nat := 255

def maxTimeZoneBytes : Nat := 255

/-- `chrono::LocalResult`, with the instants in milliseconds. -/
inductive LocalResult where
  | single (at_ : Int)
  | ambiguous (earlier later : Int)
  | none
  deriving DecidableEq, Repr

structure Calendar where
  /-- `Schedule::from_str` accepts the text. -/
  isSchedule : String → Bool
  /-- `Tz::from_str` accepts the text. -/
  isTimeZone : String → Bool
  /-- What `Schedule::after` yields for an expression in a zone, from a start. -/
  upcoming : String → String → Int → List Int
  /-- `from_local_datetime` at the wall-clock reading that an instant has in a zone. -/
  fromLocal : String → Int → LocalResult

/-! ## Validated texts -/

structure RecurringJobKey where
  value : String
  valid : isBoundedText maxScheduleKeyBytes value = true

inductive RecurringJobKeyError where
  | invalidKey
  deriving DecidableEq, Repr

def RecurringJobKey.new (key : String) : Except RecurringJobKeyError RecurringJobKey :=
  if valid : isBoundedText maxScheduleKeyBytes key = true then .ok ⟨key, valid⟩
  else .error .invalidKey

structure CronExpression (calendar : Calendar) where
  value : String
  bounded : isBoundedText maxCronExpressionBytes value = true
  parses : calendar.isSchedule value = true
  deriving DecidableEq

inductive CronExpressionError where
  | invalidExpression
  deriving DecidableEq, Repr

def CronExpression.new (calendar : Calendar) (expression : String) :
    Except CronExpressionError (CronExpression calendar) :=
  if valid : isBoundedText maxCronExpressionBytes expression = true ∧
      calendar.isSchedule expression = true then
    .ok ⟨expression, valid.1, valid.2⟩
  else .error .invalidExpression

/-- `RecurringJobTimeZone`; the parsed zone is determined by the name. -/
structure RecurringJobTimeZone (calendar : Calendar) where
  name : String
  bounded : isBoundedText maxTimeZoneBytes name = true
  bundled : calendar.isTimeZone name = true
  deriving DecidableEq

inductive RecurringJobTimeZoneError where
  | invalidTimeZone
  deriving DecidableEq, Repr

def RecurringJobTimeZone.new (calendar : Calendar) (name : String) :
    Except RecurringJobTimeZoneError (RecurringJobTimeZone calendar) :=
  if valid : isBoundedText maxTimeZoneBytes name = true ∧ calendar.isTimeZone name = true then
    .ok ⟨name, valid.1, valid.2⟩
  else .error .invalidTimeZone

/-- `RecurringJob<J>`.  Of the job type only its name, its version and its serialization
are used; `payload` is the JSON of the payload, if it can be serialized. -/
structure RecurringJob (calendar : Calendar) where
  key : RecurringJobKey
  destination : OutboxDestination
  jobName : String
  jobVersion : UInt16
  payload : Option (List UInt8)
  expression : CronExpression calendar
  timeZone : RecurringJobTimeZone calendar
  priority : OutboxPriority
  rateLimit : Option RecurringJobRateLimit

section

variable {calendar : Calendar}

/-! ## The next occurrence -/

/-- The first and last millisecond of the dates `chrono` has. -/
def minUtcMs : Int := -8334601228800000

def maxUtcMs : Int := 8210266876799999

def unixMsToUtc (value : Int) : Except RecurringJobError Int :=
  if minUtcMs ≤ value ∧ value ≤ maxUtcMs then .ok value else .error .clockOutOfRange

/-- `is_earliest_local_occurrence`. -/
def isEarliestLocalOccurrence (calendar : Calendar) (zone : String) (occurrence : Int) : Bool :=
  match calendar.fromLocal zone occurrence with
  | .single _ => true
  | .ambiguous earlier _ => occurrence == earlier
  | .none => false

/-- The test of the loop over `schedule.after`. -/
def isNext (calendar : Calendar) (zone : String) (after occurrence : Int) : Bool :=
  decide (after < occurrence) && isEarliestLocalOccurrence calendar zone occurrence

/-- `next_after_unix_ms`. -/
def CronExpression.nextAfterUnixMs (expression : CronExpression calendar) (afterUnixMs : Int)
    (zone : RecurringJobTimeZone calendar) : Except RecurringJobError Int :=
  match unixMsToUtc afterUnixMs with
  | .error error => .error error
  | .ok after =>
    if calendar.isSchedule expression.value then
      match (calendar.upcoming expression.value zone.name after).find?
          (isNext calendar zone.name after) with
      | some occurrence => .ok occurrence
      | none => .error .storedSchedule
    else .error .storedSchedule

variable {after t : Int} {expression : CronExpression calendar}
  {zone : RecurringJobTimeZone calendar}

/-- A result is an instant of the iterator that passed the test. -/
theorem isNext_of_nextAfterUnixMs (ok : expression.nextAfterUnixMs after zone = .ok t) :
    isNext calendar zone.name after t = true := by
  unfold CronExpression.nextAfterUnixMs unixMsToUtc at ok
  split at ok
  · cases ok
  · rename_i start isStart
    split at isStart <;> cases isStart
    split at ok
    · split at ok
      · rename_i found
        cases ok
        exact List.find?_some found
      · cases ok
    · cases ok

theorem lt_of_nextAfterUnixMs (ok : expression.nextAfterUnixMs after zone = .ok t) : after < t := by
  have passes := isNext_of_nextAfterUnixMs ok
  simp only [isNext, Bool.and_eq_true, decide_eq_true_eq] at passes
  exact passes.1

end

end Rustee.Cron
