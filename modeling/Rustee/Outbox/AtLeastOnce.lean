/-
# Rustee.Outbox.AtLeastOnce -- what relays keep of a staged row

Whatever stagers, publishers and the database do, and wherever passes end, no row goes away and
none is marked as published that was not (`kept_step`, `unpublished_run`).

But no row is delivered either.  The text of the claim is one that PostgreSQL refuses, so no pass
claims a row (`not_isClaim`) or gets beyond its claim (`step_atRest`), and however long one waits no
relay can claim what was staged (`no_row_comes_back`).
-/
import Rustee.Foundation.Uuid
import Rustee.Outbox.Relay

namespace Rustee.Outbox.Relay

open Rustee.Foundation

set_option autoImplicit false

/-! ## Claims -/

variable {Error : Type} {parseUuid : String → Option Uuid}

/-- The rows that an entry of the table's trace claims. -/
def claimedIds : Protocol.Input × Protocol.Output → List OutboxId
  | (.lease .., .leased _ leases) => leases.map (·.lease.id)
  | _ => []

/-- The pass claims the row. -/
def IsClaim (pass : Nat) (id : OutboxId) (event : Input Error × Output) : Prop :=
  (∃ relay token locked elapsed fate, event.1 = .start pass relay token locked elapsed fate) ∧
    ∃ entry, event.2.onTable = some entry ∧ id ∈ claimedIds entry

/-- A pass of some relay can claim the row now. -/
def Claimable (parseUuid : String → Option Uuid) (s : State Error) (id : OutboxId) : Prop :=
  ∃ pass input after output, step parseUuid s input = some (after, output) ∧
    IsClaim pass id (input, output)

/-- After some time, and whatever else happens meanwhile, the row can be claimed. -/
def ComesBack (parseUuid : String → Option Uuid) (s : State Error) (id : OutboxId) : Prop :=
  ∃ later, (relays parseUuid).Leads s later ∧ Claimable parseUuid later id

variable {trace : List (Input Error × Output)} {s after : State Error} {output : Output}
  {input : Input Error}

theorem not_isClaim {pass : Nat} {id : OutboxId}
    (stepped : step parseUuid s input = some (after, output)) : ¬IsClaim pass id (input, output) := by
  rintro ⟨⟨relay, token, locked, elapsed, fate, rfl⟩, entry, isEntry, listed⟩
  simp only [step] at stepped
  split at stepped
  · rw [execute_refused (fateOf_leaseSql fate)] at stepped
    cases stepped
    cases isEntry
  · cases stepped

theorem not_comesBack (parseUuid : String → Option Uuid) (s : State Error) (id : OutboxId) :
    ¬ComesBack parseUuid s id := by
  rintro ⟨later, -, pass, input, after, output, stepped, isClaim⟩
  exact not_isClaim stepped isClaim

/-! ## Passes at rest -/

/-- The pass has no message in hand. -/
def Pass.atRest : Pass Error → Bool
  | .idle | .done _ | .crashed => true
  | .publishing _ | .acknowledging _ | .retrying .. => false

/-- Passes without a message get none, and what reaches the table is a stager's. -/
theorem step_atRest (atRest : ∀ pass, (s.passes pass).atRest = true)
    (stepped : step parseUuid s input = some (after, output)) :
    (∀ pass, (after.passes pass).atRest = true) ∧
      ∀ entry, output.onTable = some entry → isStaging entry.1 = true := by
  cases input with
  | stager input =>
    simp only [step] at stepped
    split at stepped
    · rename_i staging
      obtain ⟨done, moved, same⟩ := Option.map_eq_some_iff.1 stepped
      cases same
      refine ⟨atRest, ?_⟩
      rintro entry ⟨⟩
      exact staging
    · cases stepped
  | start pass relay token locked elapsed fate =>
    simp only [step] at stepped
    split at stepped
    · rw [execute_refused (fateOf_leaseSql fate)] at stepped
      cases stepped
      refine ⟨fun other => ?_, fun _ isEntry => by cases isEntry⟩
      by_cases same : other = pass
      · simp [State.setPass, same, afterLease, Pass.atRest]
      · simpa [State.setPass, same] using atRest other
    · cases stepped
  | publish pass result | acknowledge pass fate | retry pass fate | crash pass =>
    have mine := atRest pass
    simp only [step] at stepped
    split at stepped <;> simp_all [Pass.atRest]

theorem run_atRest (run : (relays parseUuid).Reaches s trace) :
    (∀ pass, (s.passes pass).atRest = true) ∧
      ∀ entry ∈ entries trace, isStaging entry.1 = true := by
  induction run with
  | start initial =>
    refine ⟨fun pass => ?_, nofun⟩
    rw [initial.2]
    rfl
  | next run admitted stepped ih =>
    obtain ⟨atRest, staging⟩ := step_atRest ih.1 stepped
    refine ⟨atRest, fun entry isEntry => ?_⟩
    rw [entries, List.filterMap_append] at isEntry
    rcases List.mem_append.1 isEntry with earlier | last
    · exact ih.2 entry earlier
    · exact staging entry (by simpa using last)

/-! ## Rows that wait -/

theorem eventOf_staging {entry : Protocol.Input × Protocol.Output} (staging : isStaging entry.1 = true)
    (id : OutboxId) : Protocol.eventOf id entry = none := by
  obtain ⟨input, output⟩ := entry
  cases input <;> first | rfl | cases staging

/-- A row's history is empty, so it is as it was committed. -/
theorem unpublished_run (run : (relays parseUuid).Reaches s trace) :
    ∀ row ∈ s.store.rows, row.publishedAt = none := by
  intro row stored
  have isHistory := ((Protocol.run_faithful (reaches_store run)).rows row stored).2
  have empty : Protocol.history row.id (entries trace) = [] := by
    refine List.filterMap_eq_nil_iff.2 fun entry isEntry => ?_
    exact eventOf_staging ((run_atRest run).2 entry isEntry) row.id
  generalize Protocol.history row.id (entries trace) = events at empty isHistory
  generalize isCell : row.cell = cell at isHistory
  cases isHistory with
  | start =>
    have unfinished : row.publishedAt.isSome = false := congrArg LeaseCell.finished isCell
    simpa using unfinished
  | next => simp at empty

theorem kept_step (run : (relays parseUuid).Reaches s trace)
    (stepped : step parseUuid s input = some (after, output)) :
    ∀ row ∈ s.store.rows, row ∈ after.store.rows := by
  intro row stored
  have onTable := (step_atRest (run_atRest run).1 stepped).2
  cases step_below stepped with
  | still silent same => exact same ▸ stored
  | stepped moved =>
    have faithful := Protocol.run_faithful (reaches_store run)
    cases Protocol.step_effect faithful.unique moved with
    | quiet rows => exact rows ▸ stored
    | inserted txn message delayMillis after_eq => exact after_eq ▸ stored
    | committed txn after_eq =>
      rw [after_eq]
      exact List.mem_append_left _ stored
    | statement g rows pending clock issued moves =>
      have stays := moves row stored (faithful.rows row stored).1
      rw [eventOf_staging (onTable _ rfl)] at stays
      rw [rows]
      exact List.mem_map.2 ⟨row, stored, stays.2.2⟩

/-- **No row comes back.**  In every state that stagers and passes reach, each step leaves the rows
as they are; and every row there is unpublished and out of reach of every relay for ever. -/
theorem no_row_comes_back (run : (relays parseUuid).Reaches s trace) :
    (∀ input after output, step parseUuid s input = some (after, output) →
      ∀ row ∈ s.store.rows, row ∈ after.store.rows) ∧
    ∀ row ∈ s.store.rows, row.publishedAt = none ∧ ¬ComesBack parseUuid s row.id := by
  refine ⟨fun input after output stepped => kept_step run stepped, fun row stored => ?_⟩
  exact ⟨unpublished_run run row stored, not_comesBack parseUuid s row.id⟩

def receiptMail : OutboxMessage where
  id := 1
  kind := .job
  destination := Protocol.welcomeMail.destination
  messageId := "00000000-0000-0000-0000-000000000001"
  messageType := "mail.receipt"
  schemaVersion := 1
  orderingKey := "00000000-0000-0000-0000-000000000001"
  deliveryAttempt := 1
  priority := 0
  payload := [123, 125]
  valid := by decide

/-- One mail, staged and committed. -/
def mailStaged : State Unit :=
  ⟨⟨0, [stagedRow receiptMail 0 0], [], []⟩, fun _ => .idle⟩

def mailTrace : List (Input Unit × Output) :=
  [(.stager (.stage 1 receiptMail),
      .table (.stage 1 receiptMail) (.staged (.inserted receiptMail.id))),
    (.stager (.commit 1), .table (.commit 1) .done)]

theorem mail_reached : (relays parseUuid).Reaches mailStaged mailTrace := by
  have initial : (relays parseUuid).initial
      (⟨Protocol.emptyOutbox, fun _ => .idle⟩ : State Unit) := ⟨⟨rfl, rfl, rfl⟩, rfl⟩
  exact .next (.next (.start initial) trivial rfl) trivial rfl

theorem no_row_comes_back_mail :
    (stagedRow receiptMail 0 0).publishedAt = none ∧
      ¬ComesBack Foundation.parseUuid mailStaged receiptMail.id :=
  (no_row_comes_back mail_reached).2 _ List.mem_cons_self

/-- The mail was never claimed, its time has come, and no relay gets it. -/
theorem staged_mail_stuck :
    (relays Foundation.parseUuid).Reaches mailStaged mailTrace ∧
      eligible .job receiptMail.destination mailStaged.store.clock
        (stagedRow receiptMail 0 0) = true ∧
      ¬ComesBack Foundation.parseUuid mailStaged receiptMail.id :=
  ⟨mail_reached, by decide, not_comesBack Foundation.parseUuid mailStaged receiptMail.id⟩

end Rustee.Outbox.Relay
