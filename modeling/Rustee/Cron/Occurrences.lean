/-
# Rustee.Cron.Occurrences -- overlapping calls on one schedule

Any number of `register`, `pause`, `resume` and `fire_due` calls on the row of one schedule
key.  A transaction reads the database clock when it begins and locks the row at some later
moment, so its reading may be older than what the row has been through since.  The bodies
are those of `Rustee.Cron.Scheduler`, run on the row as the transaction that holds its lock
sees it; a commit publishes the row and the staged message together, and a transaction can
fail or be dropped at any point before it.

A pass stages the instant its row is scheduled for and moves the row past its own reading,
which is not before that instant, however old the reading is.  `resume` has no such guard:
it schedules the row after its reading, which may be before instants that were staged in the
meantime (`stale_resume_repeats`).  When no `resume` locks the row with a reading before an
instant already staged, no two messages carry the same key (`occurrence_keys_unique`).
-/
import Rustee.Cron.Firing
import Rustee.Foundation.Decimal
import Rustee.Foundation.LockTable
import Rustee.Foundation.Machine
import Mathlib.Data.Int.Order.Basic

namespace Rustee.Cron.Occurrences

open Rustee.Foundation Rustee.Outbox Rustee.Jobs

set_option autoImplicit false

section

variable {calendar : Calendar} {serde : Serde} {key : RecurringJobKey}

/-! ## Calls and their bodies -/

/-- A call on the schedule under `key`. -/
inductive Call (calendar : Calendar) (key : RecurringJobKey) where
  | register (job : RecurringJob calendar) (named : job.key = key) (draw : RegistrationDraw)
  | pause
  | resume
  | fireDue (draw : FireDraw)

/-- A message in the outbox, with the instant and the envelope it was rendered from. -/
structure StagedJob (serde : Serde) where
  scheduledAt : Int
  envelope : MaterializedJobEnvelope serde
  message : OutboxMessage

/-- The table as far as the schedule is concerned. -/
def oneRow (row : Option RecurringJobRow) : Database := ⟨row.toList, fun _ => none, []⟩

/-- The writes of a pass that claimed the row. -/
def fireClaimed (draw : FireDraw) (outbox : List (StagedJob serde)) (row : RecurringJobRow)
    (stored : StoredRecurringJob calendar serde) (now : Int) :
    Firing → Except RecurringJobError (RecurringJobRow × Option (StagedJob serde))
  | .deferred nextWindowAt => .ok ({ row with nextRunAt := nextWindowAt }, none)
  | .staged nextRunAt message =>
    match stage (outbox.map StagedJob.message) message with
    | (.alreadyPresent, _) => .error .outboxCollision
    | (.inserted _, _) => .ok ({ row with nextRunAt },
        some ⟨stored.scheduledAt, stored.envelope draw.jobId now, message⟩)

/-- `fire_due_inner` on the row, if it selects it.  The window row of the governor's key is
whatever the passes over other schedules made of it. -/
def fireRowBody (calendar : Calendar) (serde : Serde) (draw : FireDraw)
    (outbox : List (StagedJob serde)) (window : Option RateWindowRow) (row : RecurringJobRow)
    (now : Int) : Except RecurringJobError (RecurringJobRow × Option (StagedJob serde)) :=
  if isDue now row then do
    let stored ← fromRow calendar serde row
    let (firing, _) ← fireStored window stored draw now
    fireClaimed draw outbox row stored now firing
  else .ok (row, none)

/-- The `UPDATE` of `pause` on the row. -/
def pauseRow (key : RecurringJobKey) (row : Option RecurringJobRow) : Option RecurringJobRow :=
  (pause (oneRow row) key).1.jobs.head?

/-- What a call makes of the row it locked: the version it leaves and the job it stages. -/
def body (calendar : Calendar) (serde : Serde) (key : RecurringJobKey)
    (outbox : List (StagedJob serde)) (window : Option RateWindowRow) (now : Int)
    (row : Option RecurringJobRow) :
    Call calendar key →
      Except RecurringJobError (Option RecurringJobRow × Option (StagedJob serde))
  | .register job _ draw =>
    (register serde (oneRow row) job draw now).map fun (after, _) => (after.jobs.head?, none)
  | .pause => .ok (pauseRow key row, none)
  | .resume => (resume calendar (oneRow row) key now).map fun (after, _) => (after.jobs.head?, none)
  | .fireDue draw =>
    match row with
    | none => .ok (none, none)
    | some row =>
      (fireRowBody calendar serde draw outbox window row now).map fun (row, staged) =>
        (some row, staged)

/-! ## Transactions -/

/-- Where a call is. -/
inductive Stage (serde : Serde) where
  | idle
  /-- Its transaction has read the clock. -/
  | began (now : Int)
  /-- It has locked the row and made its writes. -/
  | written (staged : Option (StagedJob serde))
  | done

structure State (serde : Serde) where
  clock : Int
  /-- The row of the schedule; a key without a row is locked by an uncommitted insert. -/
  table : LockTable Unit RecurringJobRow Nat
  stage : Nat → Stage serde
  outbox : List (StagedJob serde)

inductive Input where
  | tick (ms : Nat)
  /-- A transaction begins and reads the clock. -/
  | begin (call : Nat)
  /-- It takes the row lock and runs its statements. -/
  | run (call : Nat) (window : Option RateWindowRow)
  /-- The single statement of `pause`, which commits by itself. -/
  | pause (call : Nat)
  | commit (call : Nat)
  /-- It fails or is dropped. -/
  | abort (call : Nat)
  deriving DecidableEq

/-- Whether a call's statements have succeeded, as far as it knows. -/
inductive Output where
  | quiet
  | failed (error : RecurringJobError)
  deriving DecidableEq

def State.at_ (s : State serde) (call : Nat) (stage : Stage serde) : State serde :=
  { s with stage := Function.update s.stage call stage }

def State.writes (s : State serde) (call : Nat) (version : Option RecurringJobRow)
    (staged : Option (StagedJob serde)) : State serde :=
  { s.at_ call (.written staged) with table := s.table.write call () version }

def State.commits (s : State serde) (call : Nat) (staged : Option (StagedJob serde)) :
    State serde :=
  { s.at_ call .done with
    table := s.table.commit call
    outbox := s.outbox ++ staged.toList }

def State.aborts (s : State serde) (call : Nat) : State serde :=
  { s.at_ call .done with table := s.table.rollback call }

/-- The statements of a call that began at `now`, once the lock is free. -/
def runBody (calendar : Calendar) (serde : Serde) (key : RecurringJobKey) (s : State serde)
    (call : Nat) (operation : Call calendar key) (window : Option RateWindowRow) (now : Int) :
    State serde × Output :=
  match body calendar serde key s.outbox window now (s.table.view call ()) operation with
  | .ok (version, staged) => (s.writes call version staged, .quiet)
  | .error error => (s.aborts call, .failed error)

def step (calendar : Calendar) (serde : Serde) (key : RecurringJobKey)
    (calls : Nat → Call calendar key) (s : State serde) : Input → Option (State serde × Output)
  | .tick ms => some ({ s with clock := s.clock + ms }, .quiet)
  | .begin call =>
    match s.stage call, calls call with
    | .idle, .pause => none
    | .idle, _ => some (s.at_ call (.began s.clock), .quiet)
    | _, _ => none
  | .run call window =>
    match s.stage call with
    | .began now =>
      if s.table.available call () then
        some (runBody calendar serde key s call (calls call) window now)
      else none
    | _ => none
  | .pause call =>
    match s.stage call, calls call with
    | .idle, .pause =>
      if s.table.available call () then
        let version := pauseRow key (s.table.view call ())
        some ((s.writes call version none).commits call none, .quiet)
      else none
    | _, _ => none
  | .commit call =>
    match s.stage call, calls call with
    | .written staged, _ => some (s.commits call staged, .quiet)
    -- A pass that did not select the row, because of its limit or because it was locked.
    | .began _, .fireDue _ => some (s.commits call none, .quiet)
    | _, _ => none
  | .abort call =>
    match s.stage call with
    | .began _ | .written _ => some (s.aborts call, .quiet)
    | _ => none

/-- Any calls on a schedule that is not registered yet, from any clock value. -/
def schedule (calendar : Calendar) (serde : Serde) (key : RecurringJobKey)
    (calls : Nat → Call calendar key) : Machine (State serde) Input Output where
  initial s := s.table = .empty ∧ s.stage = (fun _ => .idle) ∧ s.outbox = []
  step := step calendar serde key calls

/-! ## Keys -/

theorem occurrenceKey_injective (id : Uuid) : Function.Injective (occurrenceKey id) := by
  intro a b same
  unfold occurrenceKey at same
  exact intRepr_injective ((String.append_right_inj _).1 same)

/-- The staged jobs are occurrences of this row, all before its next run. -/
def Above (row : Option RecurringJobRow) (jobs : List (StagedJob serde)) : Prop :=
  ∀ job ∈ jobs, ∃ current, row = some current ∧
    job.envelope.idempotencyKey = some (occurrenceKey current.id job.scheduledAt) ∧
    job.message.payload = utf8 job.envelope.json ∧ job.scheduledAt < current.nextRunAt

/-- In the order in which they were staged, the instants increase. -/
def Ascending (jobs : List (StagedJob serde)) : Prop :=
  jobs.Pairwise fun earlier later => earlier.scheduledAt < later.scheduledAt

variable {jobs : List (StagedJob serde)} {row version : Option RecurringJobRow} {now : Int}
  {window : Option RateWindowRow} {staged : Option (StagedJob serde)} {s : State serde} {call : Nat}

theorem Above.move {current moved : RecurringJobRow} (above : Above (some current) jobs)
    (sameId : moved.id = current.id) (past : ∀ job ∈ jobs, job.scheduledAt < moved.nextRunAt) :
    Above (some moved) jobs := by
  intro job member
  obtain ⟨_, same, isKey, rendered, -⟩ := above job member
  cases same
  exact ⟨moved, rfl, sameId ▸ isKey, rendered, past job member⟩

/-- **Different instants, different keys.** -/
theorem nodup_keys (above : Above row jobs) (ascending : Ascending jobs) :
    (jobs.map fun job => job.envelope.idempotencyKey).Nodup := by
  refine List.pairwise_map.2 (List.Pairwise.imp_of_mem ?_ ascending)
  intro earlier later inJobs inJobs' before same
  obtain ⟨current, isCurrent, keyed, -⟩ := above earlier inJobs
  obtain ⟨_, isCurrent', keyed', -⟩ := above later inJobs'
  cases isCurrent.symm.trans isCurrent'
  rw [keyed, keyed'] at same
  have sameInstant := occurrenceKey_injective current.id (Option.some.inj same)
  omega

/-! ## What a body does to the row -/

theorem head?_oneRow (row : Option RecurringJobRow) : (oneRow row).jobs.head? = row := by
  cases row <;> rfl

/-- Registration leaves a row that is there alone. -/
theorem registered_row {job : RecurringJob calendar} {draw : RegistrationDraw} {after : Database}
    {registration : RecurringJobRegistration}
    (ok : register serde (oneRow row) job draw now = .ok (after, registration)) :
    row = none ∨ after.jobs.head? = row := by
  cases row with
  | none => exact .inl rfl
  | some current =>
    right
    obtain rfl | ⟨payload, value, nextRunAt, rfl, -⟩ := register_cases ok
    · rfl
    · rfl

/-- Pausing changes neither the identity nor the next run. -/
theorem paused_row (isVersion : pauseRow key row = version) (above : Above row jobs) :
    Above version jobs := by
  subst isVersion
  cases row with
  | none => exact above
  | some current =>
    simp only [pauseRow, oneRow, pause, updateWhere, Option.toList_some, List.map_cons,
      List.map_nil, List.head?_cons]
    split
    · exact above.move rfl fun job member => by
        obtain ⟨_, same, -, -, before⟩ := above job member
        cases same
        exact before
    · exact above

/-- A resumed row is scheduled after the reading of the call. -/
theorem resumed_row {after : Database} {outcome : RecurringJobResumeOutcome}
    (ok : resume calendar (oneRow row) key now = .ok (after, outcome)) :
    after.jobs.head? = row ∨ ∃ current moved, row = some current ∧
      after.jobs.head? = some moved ∧ moved.id = current.id ∧ now < moved.nextRunAt := by
  unfold resume at ok
  split at ok
  · cases ok
    exact .inl (head?_oneRow row)
  · rename_i found isFound
    obtain ⟨nextRunAt, next, ok⟩ := bind_eq_ok.1 ok
    simp only [resumeNextRunAt, bind_eq_ok, mapError_eq_ok] at next
    obtain ⟨expression, -, zone, -, next⟩ := next
    have later := lt_of_nextAfterUnixMs next
    cases row with
    | none => cases isFound
    | some current =>
      simp only [oneRow, updateWhere, Option.toList_some, List.map_cons, List.map_nil] at ok
      split at ok
      · cases ok
      · cases ok
        simp only [List.head?_cons]
        split
        · exact .inr ⟨current, _, rfl, rfl, rfl, later⟩
        · exact .inl rfl

/-- What a pass makes of a row: it leaves it, moves it past its own reading, or does so
after staging the instant the row was scheduled for. -/
theorem fired_row {draw : FireDraw} {outbox : List (StagedJob serde)} {row moved : RecurringJobRow}
    (ok : fireRowBody calendar serde draw outbox window row now = .ok (moved, staged)) :
    (moved = row ∧ staged = none) ∨
      (moved.id = row.id ∧ row.nextRunAt ≤ now ∧ now < moved.nextRunAt ∧
        ∀ job ∈ staged, job.scheduledAt = row.nextRunAt ∧
          job.envelope.idempotencyKey = some (occurrenceKey row.id row.nextRunAt) ∧
          job.message.payload = utf8 job.envelope.json) := by
  unfold fireRowBody at ok
  split at ok
  · rename_i due
    have notAfter : row.nextRunAt ≤ now := by
      simp only [isDue, Bool.and_eq_true, decide_eq_true_eq] at due
      exact due.2
    simp only [bind_eq_ok] at ok
    obtain ⟨stored, read, ⟨firing, left⟩, decided, ok⟩ := ok
    have reads := fromRow_eq_ok_iff.1 read
    have fires := fires_of_fireStored decided
    have later := fires.lt_movesTo
    right
    cases fires with
    | deferred full =>
      cases ok
      refine ⟨rfl, notAfter, later, ?_⟩
      rintro job ⟨⟩
    | staged room materialized =>
      simp only [fireClaimed] at ok
      split at ok
      · cases ok
      · cases ok
        refine ⟨rfl, notAfter, later, ?_⟩
        rintro job ⟨⟩
        refine ⟨reads.scheduledAt, ?_, materialized.payload⟩
        rw [← reads.id, ← reads.scheduledAt]
        rfl
  · cases ok
    exact .inl ⟨rfl, rfl⟩

/-- **What a body preserves.**  Only `resume` needs its reading to be recent. -/
theorem body_keeps {outbox : List (StagedJob serde)} {call : Call calendar key}
    (ok : body calendar serde key outbox window now row call = .ok (version, staged))
    (recent : call = .resume → ∀ job ∈ outbox, job.scheduledAt ≤ now) (above : Above row outbox)
    (ascending : Ascending outbox) :
    Above version (outbox ++ staged.toList) ∧ Ascending (outbox ++ staged.toList) := by
  have quiet {version : Option RecurringJobRow} (above : Above version outbox) :
      Above version (outbox ++ (none : Option (StagedJob serde)).toList) ∧
        Ascending (outbox ++ (none : Option (StagedJob serde)).toList) := by
    simpa using ⟨above, ascending⟩
  cases call with
  | register job named draw =>
    simp only [body] at ok
    cases result : register serde (oneRow row) job draw now with
    | error error => simp [result, Except.map] at ok
    | ok value =>
      simp only [result, Except.map, Except.ok.injEq, Prod.mk.injEq] at ok
      obtain ⟨rfl, rfl⟩ := ok
      rcases registered_row result with rfl | same
      · -- Nothing can be staged before there is a row.
        refine quiet fun job member => ?_
        obtain ⟨_, none, -⟩ := above job member
        cases none
      · rw [same]
        exact quiet above
  | pause =>
    obtain ⟨isVersion, rfl⟩ := Prod.mk.inj (Except.ok.inj ok)
    exact quiet (paused_row isVersion above)
  | resume =>
    simp only [body] at ok
    cases result : resume calendar (oneRow row) key now with
    | error error => simp [result, Except.map] at ok
    | ok value =>
      simp only [result, Except.map, Except.ok.injEq, Prod.mk.injEq] at ok
      obtain ⟨rfl, rfl⟩ := ok
      rcases resumed_row result with same | ⟨current, moved, rfl, isMoved, sameId, later⟩
      · rw [same]
        exact quiet above
      · rw [isMoved]
        exact quiet (above.move sameId fun job member =>
          lt_of_le_of_lt (recent rfl job member) later)
  | fireDue draw =>
    simp only [body] at ok
    cases row with
    | none =>
      obtain ⟨rfl, rfl⟩ := Prod.mk.inj (Except.ok.inj ok)
      exact quiet above
    | some current =>
      cases result : fireRowBody calendar serde draw outbox window current now with
      | error error => simp [result, Except.map] at ok
      | ok value =>
        obtain ⟨moved, made⟩ := value
        simp only [result, Except.map, Except.ok.injEq, Prod.mk.injEq] at ok
        obtain ⟨rfl, rfl⟩ := ok
        have before : ∀ job ∈ outbox, job.scheduledAt < current.nextRunAt := by
          intro job member
          obtain ⟨_, same, -, -, before⟩ := above job member
          cases same
          exact before
        rcases fired_row result with ⟨rfl, rfl⟩ | ⟨sameId, notAfter, later, isStaged⟩
        · exact quiet above
        · have moves : Above (some moved) outbox :=
            above.move sameId fun job member => by have := before job member; omega
          cases made with
          | none => exact quiet moves
          | some job =>
            obtain ⟨instant, isKey, rendered⟩ := isStaged job rfl
            constructor
            · intro other member
              rcases List.mem_append.1 member with old | new
              · exact moves other old
              · rw [List.mem_singleton.1 new]
                exact ⟨moved, rfl, by rw [sameId, instant]; exact isKey, rendered,
                  by omega⟩
            · refine List.pairwise_append.2 ⟨ascending, List.pairwise_singleton _ _, ?_⟩
              intro other old new isNew
              rw [List.mem_singleton.1 isNew, instant]
              exact before other old

/-! ## What every state has -/

/-- The committed row is above the outbox, and the version of the call that holds the lock
is above the outbox and the job that call has staged. -/
structure Inv (s : State serde) : Prop where
  above : Above (s.table.rows ()) s.outbox
  ascending : Ascending s.outbox
  written : ∀ call staged, s.stage call = .written staged → ∃ version,
    s.table.held () = some (call, version) ∧ Above version (s.outbox ++ staged.toList) ∧
      Ascending (s.outbox ++ staged.toList)
  locked : ∀ call version, s.table.held () = some (call, version) →
    ∃ staged, s.stage call = .written staged

@[simp] theorem at_stage (s : State serde) (call other : Nat) (stage : Stage serde) :
    (s.at_ call stage).stage other = if other = call then stage else s.stage other := by
  simp [State.at_, Function.update_apply]

/-- A call that has not locked the row may move on without it. -/
theorem Inv.at_ (inv : Inv s) {stage : Stage serde} (free : ∀ staged, s.stage call ≠ .written staged)
    (unlocked : ∀ staged, stage ≠ .written staged) :
    Inv (s.at_ call stage) where
  above := inv.above
  ascending := inv.ascending
  written := by
    intro other staged isWritten
    rw [at_stage] at isWritten
    split at isWritten
    · exact absurd isWritten (unlocked staged)
    · exact inv.written other staged isWritten
  locked := by
    intro other version held
    obtain ⟨staged, isWritten⟩ := inv.locked other version held
    have different : other ≠ call := by
      rintro rfl
      exact free staged isWritten
    exact ⟨staged, by rw [at_stage, if_neg different]; exact isWritten⟩

/-- A call that may take the lock finds it free. -/
theorem Inv.unheld (inv : Inv s) (free : ∀ staged, s.stage call ≠ .written staged)
    (available : s.table.available call () = true) : s.table.held () = none := by
  cases held : s.table.held () with
  | none => rfl
  | some lock =>
    obtain ⟨holder, version⟩ := lock
    obtain rfl := LockTable.held_of_available available held
    obtain ⟨staged, isWritten⟩ := inv.locked holder version held
    exact absurd isWritten (free staged)

theorem Inv.writes (inv : Inv s) (unheld : s.table.held () = none)
    (above : Above version (s.outbox ++ staged.toList))
    (ascending : Ascending (s.outbox ++ staged.toList)) : Inv (s.writes call version staged) where
  above := inv.above
  ascending := inv.ascending
  written := by
    intro other made isWritten
    have isWritten : (s.at_ call (.written staged)).stage other = .written made := isWritten
    rw [at_stage] at isWritten
    split at isWritten
    · rename_i same
      cases isWritten
      subst same
      exact ⟨version, by simp [State.writes, LockTable.held_write], above, ascending⟩
    · obtain ⟨_, held, -⟩ := inv.written other made isWritten
      rw [unheld] at held
      cases held
  locked := by
    intro other left held
    simp only [State.writes, LockTable.held_write, if_true, Option.some.injEq,
      Prod.mk.injEq] at held
    obtain ⟨rfl, -⟩ := held
    exact ⟨staged, by simp [State.writes, State.at_]⟩

theorem Inv.commits (inv : Inv s) (isWritten : s.stage call = .written staged) :
    Inv (s.commits call staged) := by
  obtain ⟨version, held, above, ascending⟩ := inv.written call staged isWritten
  refine ⟨?_, ascending, ?_, ?_⟩
  · have published : (s.commits call staged).table.rows () = version :=
      LockTable.view_of_held held
    rw [published]
    exact above
  · intro other made isWritten
    have isWritten : (s.at_ call .done).stage other = .written made := isWritten
    rw [at_stage] at isWritten
    split at isWritten
    · cases isWritten
    · rename_i different
      obtain ⟨_, held', -⟩ := inv.written other made isWritten
      rw [held] at held'
      exact absurd (Prod.mk.inj (Option.some.inj held')).1.symm different
  · intro other left held'
    obtain ⟨held', different⟩ := LockTable.held_commit.1 held'
    rw [held] at held'
    exact absurd (Prod.mk.inj (Option.some.inj held')).1.symm different

theorem Inv.aborts {s : State serde} (inv : Inv s) (call : Nat) : Inv (s.aborts call) where
  above := inv.above
  ascending := inv.ascending
  written := by
    intro other made isWritten
    have isWritten : (s.at_ call .done).stage other = .written made := isWritten
    rw [at_stage] at isWritten
    split at isWritten
    · cases isWritten
    · rename_i different
      obtain ⟨version, held, rest⟩ := inv.written other made isWritten
      exact ⟨version, LockTable.held_rollback.2 ⟨held, different⟩, rest⟩
  locked := by
    intro other version held
    obtain ⟨held, different⟩ := LockTable.held_rollback.1 held
    obtain ⟨staged, isWritten⟩ := inv.locked other version held
    refine ⟨staged, ?_⟩
    change (s.at_ call .done).stage other = _
    rw [at_stage, if_neg different]
    exact isWritten

/-- A pass that selected nothing commits nothing. -/
theorem commits_none (inv : Inv s) (free : ∀ staged, s.stage call ≠ .written staged) :
    s.commits call none = s.aborts call := by
  have unheld : ∀ version, s.table.held () ≠ some (call, version) := by
    intro version held
    obtain ⟨staged, isWritten⟩ := inv.locked call version held
    exact free staged isWritten
  have rows : s.table.view call = s.table.rows := by
    funext place
    exact LockTable.view_of_unheld unheld
  simp [State.commits, State.aborts, State.at_, LockTable.commit, LockTable.rollback, rows]

/-! ## Steps and runs -/

/-- **The condition**: a `resume` does not lock the row with a reading before an instant
that is already staged. -/
def resumesInTime (calls : Nat → Call calendar key) (s : State serde) : Input → Bool
  | .run call _ =>
    match calls call, s.stage call with
    | .resume, .began now => s.outbox.all fun job => decide (job.scheduledAt ≤ now)
    | _, _ => true
  | _ => true

theorem Inv.runBody (inv : Inv s) {operation : Call calendar key} (began : s.stage call = .began now)
    (available : s.table.available call () = true)
    (recent : operation = .resume → ∀ job ∈ s.outbox, job.scheduledAt ≤ now) :
    Inv (Occurrences.runBody calendar serde key s call operation window now).1 := by
  have free : ∀ staged, s.stage call ≠ .written staged := by simp [began]
  have unheld := inv.unheld free available
  have committed : s.table.view call () = s.table.rows () :=
    LockTable.view_of_unheld (by simp [unheld])
  unfold Occurrences.runBody
  split
  · rename_i version staged ok
    rw [committed] at ok
    obtain ⟨above, ascending⟩ := body_keeps ok recent inv.above inv.ascending
    exact inv.writes unheld above ascending
  · exact inv.aborts call

theorem inv_step {calls : Nat → Call calendar key} {after : State serde} {input : Input} {output : Output}
    (inv : Inv s) (inTime : resumesInTime calls s input = true)
    (stepped : step calendar serde key calls s input = some (after, output)) : Inv after := by
  cases input with
  | tick ms =>
    cases stepped
    exact ⟨inv.above, inv.ascending, inv.written, inv.locked⟩
  | begin call =>
    simp only [step] at stepped
    split at stepped
    · cases stepped
    · rename_i idle _
      cases stepped
      exact inv.at_ (by simp [idle]) (by simp)
    · cases stepped
  | run call window =>
    simp only [step] at stepped
    split at stepped
    · rename_i now began
      split at stepped
      · rename_i available
        have recent : calls call = .resume → ∀ job ∈ s.outbox, job.scheduledAt ≤ now := by
          intro resumes
          simpa [resumesInTime, resumes, began] using inTime
        have kept : Inv (runBody calendar serde key s call (calls call) window now).1 :=
          inv.runBody began available recent
        rw [Option.some.inj stepped] at kept
        exact kept
      · cases stepped
    · cases stepped
  | pause call =>
    simp only [step] at stepped
    split at stepped
    · rename_i idle _
      split at stepped
      · rename_i available
        cases stepped
        have unheld := inv.unheld (by simp [idle]) available
        have above : Above (pauseRow key (s.table.view call ())) s.outbox := by
          refine paused_row rfl ?_
          rw [LockTable.view_of_unheld (by simp [unheld])]
          exact inv.above
        have wrote : Inv (s.writes call (pauseRow key (s.table.view call ())) none) :=
          inv.writes unheld (by simpa using above) (by simpa using inv.ascending)
        exact wrote.commits (by simp [State.writes, State.at_])
      · cases stepped
    · cases stepped
  | commit call =>
    simp only [step] at stepped
    split at stepped
    · rename_i staged isWritten
      cases stepped
      exact inv.commits isWritten
    · rename_i began _
      cases stepped
      rw [commits_none inv (by simp [began])]
      exact inv.aborts call
    · cases stepped
  | abort call =>
    simp only [step] at stepped
    split at stepped
    · cases stepped; exact inv.aborts call
    · cases stepped; exact inv.aborts call
    · cases stepped

theorem inv_run {calls : Nat → Call calendar key} {trace : List (Input × Output)}
    (run : (schedule calendar serde key calls).Run
      (fun s _ input => resumesInTime calls s input = true) s trace) : Inv s := by
  induction run with
  | start initial =>
    obtain ⟨table, stages, outbox⟩ := initial
    refine ⟨by simp [outbox, Above], by simp [outbox, Ascending], ?_, ?_⟩
    · intro call staged isWritten
      simp [stages] at isWritten
    · intro call version held
      simp [table, LockTable.empty] at held
  | next run inTime stepped ih => exact inv_step ih inTime stepped

/-- **Occurrence keys are unique** in every run in which no `resume` locks the row with a
reading before an instant already staged.  Every message is rendered from an envelope under
the key of its own schedule and instant, and no two have the same key. -/
theorem occurrence_keys_unique {calls : Nat → Call calendar key} {s : State serde}
    {trace : List (Input × Output)}
    (run : (schedule calendar serde key calls).Run
      (fun s _ input => resumesInTime calls s input = true) s trace) :
    (s.outbox.map fun job => job.envelope.idempotencyKey).Nodup ∧
      ∀ job ∈ s.outbox, job.message.payload = utf8 job.envelope.json ∧
        ∃ row, s.table.rows () = some row ∧
          job.envelope.idempotencyKey = some (occurrenceKey row.id job.scheduledAt) := by
  have inv := inv_run run
  refine ⟨nodup_keys inv.above inv.ascending, ?_⟩
  intro job member
  obtain ⟨row, isRow, keyed, rendered, -⟩ := inv.above job member
  exact ⟨rendered, row, isRow, keyed⟩

end

/-! ## A resume that was late for its lock -/

/-- So many instants, ten seconds apart. -/
def tens : Nat → Int → List Int
  | 0, _ => []
  | count + 1, t => t :: tens count (t + 10000)

/-- Every ten seconds, from 1970 to the end of 2100, the years that the crate has. -/
def everyTen : Calendar where
  isSchedule expression := expression == "*/10 * * * * *"
  isTimeZone zone := zone == "UTC"
  upcoming _ _ start :=
    let first := max 0 ((start / 10000 + 1) * 10000)
    tens ((4133980800000 - first) / 10000).toNat first
  fromLocal _ occurrence := .single occurrence

/-- `serde_json` on one text. -/
def nullJson : Serde where
  Value := Unit
  fromSlice bytes := if bytes = utf8 "null" then some () else none
  toText _ := "null"

def reportKey : RecurringJobKey := ⟨"report", by decide⟩

def reportJob : RecurringJob everyTen where
  key := reportKey
  destination := ⟨"jobs", by decide⟩
  jobName := "report"
  jobVersion := 1
  payload := some (utf8 "null")
  expression := ⟨"*/10 * * * * *", by decide, rfl⟩
  timeZone := ⟨"UTC", by decide, rfl⟩
  priority := 0
  rateLimit := none

/-- One registration, a resume, a pause and two passes. -/
def fiveCalls : Nat → Call everyTen reportKey
  | 0 => .register reportJob rfl ⟨1, 2, 3⟩
  | 1 => .resume
  | 2 => .fireDue ⟨4, 5⟩
  | 3 => .pause
  | _ => .fireDue ⟨6, 7⟩

def unregistered : State nullJson := ⟨0, .empty, fun _ => .idle, []⟩

/-- The calls one after another: the resume reads the clock after the first pass. -/
theorem occurrence_keys_unique_inOrder :
    ∃ s trace, (schedule everyTen nullJson reportKey fiveCalls).Run
        (fun s _ input => resumesInTime fiveCalls s input = true) s trace ∧
      s.outbox.map StagedJob.scheduledAt = [10000, 20000] ∧
      (s.outbox.map fun job => job.envelope.idempotencyKey).Nodup := by
  have start : (schedule everyTen nullJson reportKey fiveCalls).initial unregistered :=
    ⟨rfl, rfl, rfl⟩
  obtain ⟨s, trace, run, instants⟩ := Machine.exists_run_exec _
    (fun s _ input => resumesInTime fiveCalls s input = true) start
    [.begin 0, .run 0 none, .commit 0, .tick 10000, .begin 2, .run 2 none, .commit 2, .pause 3,
      .begin 1, .run 1 none, .commit 1, .tick 10000, .begin 4, .run 4 none, .commit 4]
    (fun s _ => s.outbox.map StagedJob.scheduledAt = [10000, 20000]) (by decide +kernel)
  exact ⟨s, trace, run, instants, (occurrence_keys_unique run).1⟩

/-- **A stale resume repeats an occurrence.**  It reads the clock at zero; a pass stages
the instant ten seconds later and the schedule is paused; then the resume locks the row and
schedules it for the first instant after zero, which the next pass stages again. -/
theorem stale_resume_repeats :
    ∃ s trace, (schedule everyTen nullJson reportKey fiveCalls).Reaches s trace ∧
      (s.outbox.map fun job => job.envelope.idempotencyKey) =
        [some (occurrenceKey 1 10000), some (occurrenceKey 1 10000)] := by
  have start : (schedule everyTen nullJson reportKey fiveCalls).initial unregistered :=
    ⟨rfl, rfl, rfl⟩
  exact Machine.exists_run_exec _ (fun _ _ _ => True) start
    [.begin 0, .run 0 none, .commit 0, .begin 1, .tick 10000, .begin 2, .run 2 none, .commit 2,
      .pause 3, .run 1 none, .commit 1, .begin 4, .run 4 none, .commit 4]
    (fun s _ => (s.outbox.map fun job => job.envelope.idempotencyKey) =
      [some (occurrenceKey 1 10000), some (occurrenceKey 1 10000)]) (by decide +kernel)

end Rustee.Cron.Occurrences
