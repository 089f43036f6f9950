/-
# Rustee.Cron.Firing -- what a pass decides about one schedule

The loop body of `fire_due_inner` without its writes.  `Fires` says once what it can decide:
to defer the schedule to the start of the next window, or to stage one job under the key of
the occurrence and move the schedule to its next occurrence after the clock of the pass.
Either way the schedule moves past that clock.
-/
import Rustee.Cron.Scheduler

namespace Rustee.Cron

open Rustee.Foundation Rustee.Outbox Rustee.Jobs

set_option autoImplicit false

section

variable {calendar : Calendar} {serde : Serde}

/-! ## Staging -/

/-- The envelope of the occurrence a row is scheduled for, rendered at `now`. -/
def StoredRecurringJob.envelope (stored : StoredRecurringJob calendar serde) (jobId : Uuid)
    (now : Int) : MaterializedJobEnvelope serde :=
  envelopeOf jobId stored.jobName stored.schemaVersion stored.payload now
    (some (occurrenceKey stored.id stored.scheduledAt))

/-- The message and the next run of one staged occurrence. -/
structure Materialized (stored : StoredRecurringJob calendar serde) (draw : FireDraw) (now : Int)
    (nextRunAt : Int) (message : OutboxMessage) : Prop where
  next : stored.expression.nextAfterUnixMs now stored.timeZone = .ok nextRunAt
  fits : byteLen (stored.envelope draw.jobId now).json ≤ maxJobEnvelopeBytes
  kind : message.kind = .job
  destination : message.destination = stored.destination
  messageId : message.messageId = uuidText draw.jobId
  payload : message.payload = utf8 (stored.envelope draw.jobId now).json

variable {stored : StoredRecurringJob calendar serde} {draw : FireDraw} {now : Int} {firing : Firing}
  {window after : Option RateWindowRow}

theorem materialize_eq_ok (ok : materialize stored draw now = .ok firing) :
    ∃ nextRunAt message, firing = .staged nextRunAt message ∧
      Materialized stored draw now nextRunAt message := by
  simp only [materialize, materializedMessage, bind_eq_ok, mapError_eq_ok] at ok
  obtain ⟨nextRunAt, next, message, rendered, staged, isStaged, same⟩ := ok
  obtain ⟨taken, isTaken, kind, destination, messageId, -, payload⟩ :=
    fromJobMessage_ok (admitted_of_renderJobMessage rendered) draw.outboxId stored.destination
  obtain rfl : taken = staged := Except.ok.inj (isTaken.symm.trans isStaged)
  obtain ⟨-, -, fits, isMessage⟩ := renderJobMessage_eq_ok_iff.1 rendered
  simp only [isMessage] at messageId payload
  exact ⟨nextRunAt, taken.withPriority stored.priority, (Except.ok.inj same).symm,
    next, fits, kind, destination, messageId, payload⟩

/-! ## The governor -/

/-- **A deferral** is to the start of the next window of the policy. -/
theorem govern_deferred {limit : Option RecurringJobRateLimit} {nextWindowAt : Int}
    (ok : govern window limit now = .ok (.deferred nextWindowAt, after)) :
    ∃ policy, limit = some policy ∧
      nextWindowAt = (windowIndex policy now + 1) * policy.windowMs ∧ now < nextWindowAt := by
  cases limit with
  | none => cases ok
  | some policy =>
    cases consumed : consumeWindow window policy now with
    | error error => simp [govern, consumed, Except.map] at ok
    | ok result =>
      obtain ⟨outcome, row⟩ := result
      simp only [govern, consumed, Except.map, Except.ok.injEq, Prod.mk.injEq] at ok
      obtain ⟨rfl, -⟩ := ok
      obtain ⟨-, -, -, started, next, later⟩ := consumeWindow_deferred consumed
      refine ⟨policy, rfl, ?_, later⟩
      rw [next, started, Int.add_mul, Int.one_mul]

/-! ## One decision -/

/-- **What a pass can decide** about a schedule it selected. -/
inductive Fires (window : Option RateWindowRow) (stored : StoredRecurringJob calendar serde)
    (draw : FireDraw) (now : Int) : Firing → Option RateWindowRow → Prop
  | deferred {nextWindowAt : Int} {after : Option RateWindowRow}
      (full : govern window stored.rateLimit now = .ok (.deferred nextWindowAt, after)) :
      Fires window stored draw now (.deferred nextWindowAt) after
  | staged {nextRunAt : Int} {message : OutboxMessage} {after : Option RateWindowRow}
      (room : govern window stored.rateLimit now = .ok (.allowed, after))
      (materialized : Materialized stored draw now nextRunAt message) :
      Fires window stored draw now (.staged nextRunAt message) after

theorem fires_of_fireStored (ok : fireStored window stored draw now = .ok (firing, after)) :
    Fires window stored draw now firing after := by
  unfold fireStored at ok
  split at ok
  · cases ok
  · rename_i full
    cases ok
    exact .deferred full
  · rename_i room
    cases made : materialize stored draw now with
    | error error => simp [made, Except.map] at ok
    | ok decided =>
      simp only [made, Except.map, Except.ok.injEq, Prod.mk.injEq] at ok
      obtain ⟨rfl, rfl⟩ := ok
      obtain ⟨nextRunAt, message, rfl, materialized⟩ := materialize_eq_ok made
      exact .staged room materialized

/-- The instant a decision moves the schedule to. -/
def Firing.movesTo : Firing → Int
  | .deferred nextWindowAt => nextWindowAt
  | .staged nextRunAt _ => nextRunAt

/-- **Every decision moves the schedule past the clock of the pass.** -/
theorem Fires.lt_movesTo (fires : Fires window stored draw now firing after) : now < firing.movesTo := by
  cases fires with
  | deferred full => exact (govern_deferred full).choose_spec.2.2
  | staged room materialized => exact lt_of_nextAfterUnixMs materialized.next

/-! ## Registration -/

/-- What a successful registration did: nothing, or it added the row of a definition that
passed its tests. -/
theorem register_cases {db after : Database} {job : RecurringJob calendar} {draw : RegistrationDraw}
    {registration : RecurringJobRegistration}
    (ok : register serde db job draw now = .ok (after, registration)) :
    after = db ∨ ∃ payload value nextRunAt,
      after = { db with jobs := db.jobs ++ [registrationRow job payload draw.id nextRunAt] } ∧
      (∀ row ∈ db.jobs, row.id ≠ draw.id) ∧ enforcePolicy db.jobs job.rateLimit = .ok () ∧
      0 ≤ now ∧ isValidJobName job.jobName = true ∧
      decodeTemplatePayload serde payload = .ok value := by
  simp only [register, validateMaterializedJob, bind_eq_ok, mapError_eq_ok] at ok
  obtain ⟨payload, -, ⟨⟩, policy, nextRunAt, -, -, ⟨value, decoded, message, rendered, -⟩, ok⟩ := ok
  obtain ⟨clock, valid, -⟩ := renderJobMessage_eq_ok_iff.1 rendered
  simp only [commitRegistration, bind_eq_ok] at ok
  obtain ⟨inserted, isInserted, ok⟩ := ok
  cases inserted with
  | some jobs =>
    cases ok
    unfold insertRecurringJobRegistration at isInserted
    split at isInserted
    · cases isInserted
    · split at isInserted
      · cases isInserted
      · rename_i unused
        cases isInserted
        refine .inr ⟨payload, value, nextRunAt, rfl, ?_, policy, clock, valid, decoded⟩
        intro row member same
        exact unused (List.any_eq_true.2 ⟨row, member, by simp [registrationRow, same]⟩)
  | none =>
    obtain ⟨existing, -, ok⟩ := bind_eq_ok.1 ok
    cases existing with
    | some id => cases ok; exact .inl rfl
    | none => cases ok

end

end Rustee.Cron
