/-
# Rustee.Outbox.Storage -- the rows of `rustee_outbox` and the statements on them

`rustee-outbox-sqlx/src/lease/storage.rs` and `src/stage.rs`, one function for each SQL
statement, over the committed rows of the table.  Instants are microseconds of the database
clock.  The trailing backslashes of the statements are read as line continuations.

Beside each statement stands what it does to one row, as an event of the row's lease
(`Rustee.Foundation.Lease`): `claimRow` is a claim, `acknowledge` a finish, `retry` a
release, and every row that a statement does not select stays as it is.
-/
import Rustee.Foundation.Lease
import Rustee.Outbox.Message
import Mathlib.Data.List.Sort

namespace Rustee.Outbox

open Rustee.Foundation

set_option autoImplicit false

structure OutboxRow where
  message : OutboxMessage
  relayAttempt : Nat
  availableAt : Int
  leasedUntil : Option Int
  leaseToken : Option Uuid
  publishedAt : Option Int
  lastFailureKind : Option String
  createdAt : Int
  deriving DecidableEq

def OutboxRow.id (row : OutboxRow) : OutboxId := row.message.id

/-- `OutboxError`, without the driver error that `Database` wraps. -/
inductive OutboxError where
  | database
  | invalidDuration
  | storedEvent
  | storedJob
  deriving DecidableEq, Repr

inductive LeaseOutcome where
  | applied
  | lost
  deriving DecidableEq, Repr

structure Lease where
  id : OutboxId
  token : Uuid
  relayAttempt : Nat
  deriving DecidableEq

structure StoredLease where
  lease : Lease
  destination : OutboxDestination
  messageId : String
  messageType : String
  schemaVersion : UInt16
  orderingKey : String
  deliveryAttempt : UInt16
  payload : List UInt8
  deriving DecidableEq

/-! ## Statements -/

/-- The row an insert leaves, with the column defaults. -/
def stagedRow (message : OutboxMessage) (now : Int) (delayMillis : Nat) : OutboxRow where
  message := message
  relayAttempt := 0
  availableAt := now + delayMillis * 1000
  leasedUntil := none
  leaseToken := none
  publishedAt := none
  lastFailureKind := none
  createdAt := now

/-- `duration_millis`. -/
def durationMillis (duration : Duration) : Except OutboxError Nat :=
  if (duration.nanos ≠ 0 ∧ duration.nanos < minPostgresInterval.nanos) ∨
      duration.nanos > maxLeaseDuration.nanos then .error .invalidDuration
  else if (duration.asMillis : Int) ≤ i64Max then .ok duration.asMillis
  else .error .invalidDuration

/-- The `WHERE` of the candidates. -/
def eligible (kind : OutboxKind) (destination : OutboxDestination) (now : Int) (row : OutboxRow) :
    Bool :=
  row.publishedAt = none ∧ row.message.kind = kind ∧ row.message.destination = destination ∧
    row.availableAt ≤ now ∧ ∀ deadline ∈ row.leasedUntil, deadline ≤ now

/-- `ORDER BY priority DESC, created_at, id`. -/
def claimOrder (a b : OutboxRow) : Prop :=
  b.message.priority < a.message.priority ∨ a.message.priority = b.message.priority ∧
    (a.createdAt < b.createdAt ∨ a.createdAt = b.createdAt ∧ a.id.toNat ≤ b.id.toNat)

instance : DecidableRel claimOrder := fun _ _ => inferInstanceAs (Decidable (_ ∨ _))

/-- The candidates: the eligible rows in order, without those another statement has
`locked`, up to the batch size. -/
def candidates (rows : List OutboxRow) (kind : OutboxKind) (destination : OutboxDestination)
    (batchSize : Nat) (locked : List OutboxId) (now : Int) : List OutboxRow :=
  ((rows.filter fun row => eligible kind destination now row ∧ row.id ∉ locked).insertionSort
    claimOrder).take batchSize

/-- The `SET` of the claim. -/
def claimRow (token : Uuid) (leasedUntil : Int) (row : OutboxRow) : OutboxRow :=
  { row with
    leaseToken := some token, leasedUntil := some leasedUntil, relayAttempt := row.relayAttempt + 1 }

def storedLease (token : Uuid) (row : OutboxRow) : StoredLease where
  lease := ⟨row.id, token, row.relayAttempt⟩
  destination := row.message.destination
  messageId := row.message.messageId
  messageType := row.message.messageType
  schemaVersion := row.message.schemaVersion
  orderingKey := row.message.orderingKey
  deliveryAttempt := row.message.deliveryAttempt
  payload := row.message.payload

/-- `lease`: the candidates are chosen at `now` and updated at `claimedAt`.  An attempt
counter that would leave the `integer` range fails the whole statement.  The narrowing
conversions of the result cannot fail, since the columns hold what `bind_message` widened
and the counter starts at zero. -/
def lease (rows : List OutboxRow) (kind : OutboxKind) (destination : OutboxDestination)
    (config : LeaseConfig) (token : Uuid) (locked : List OutboxId) (now claimedAt : Int) :
    Except OutboxError (List OutboxRow × List StoredLease) :=
  match durationMillis config.leaseDuration with
  | .error error => .error error
  | .ok leaseMillis =>
    let chosen := candidates rows kind destination config.batchSize locked now
    let claim := claimRow token (claimedAt + leaseMillis * 1000)
    if chosen.any fun row => i32Max < row.relayAttempt + 1 then .error .database
    else
      .ok (rows.map fun row => if row.id ∈ chosen.map OutboxRow.id then claim row else row,
        chosen.map fun row => storedLease token (claim row))

/-- The `WHERE` of `acknowledge` and `retry`. -/
def carries (id : OutboxId) (token : Uuid) (row : OutboxRow) : Bool :=
  row.id = id ∧ row.leaseToken = some token ∧ row.publishedAt = none

/-- `outcome`. -/
def outcome (rowsAffected : Nat) : LeaseOutcome := if rowsAffected = 1 then .applied else .lost

def settle (rows : List OutboxRow) (id : OutboxId) (token : Uuid) (set : OutboxRow → OutboxRow) :
    List OutboxRow × LeaseOutcome :=
  (rows.map fun row => if carries id token row then set row else row,
    outcome (rows.countP (carries id token)))

def acknowledgeRow (now : Int) (row : OutboxRow) : OutboxRow :=
  { row with publishedAt := some now, leaseToken := none, leasedUntil := none,
             lastFailureKind := none }

def retryRow (now : Int) (delayMillis : Nat) (row : OutboxRow) : OutboxRow :=
  { row with availableAt := now + delayMillis * 1000, leaseToken := none, leasedUntil := none,
             lastFailureKind := some "publish_failed" }

/-- `acknowledge`. -/
def acknowledge (rows : List OutboxRow) (id : OutboxId) (token : Uuid) (now : Int) :
    List OutboxRow × LeaseOutcome :=
  settle rows id token (acknowledgeRow now)

/-- `retry`, which checks the delay before it reaches the database. -/
def retry (rows : List OutboxRow) (id : OutboxId) (token : Uuid) (delay : Duration) (now : Int) :
    Except OutboxError (List OutboxRow × LeaseOutcome) :=
  match durationMillis delay with
  | .error error => .error error
  | .ok delayMillis => .ok (settle rows id token (retryRow now delayMillis))

/-! ## One row -/

/-- The lease of a row. -/
def OutboxRow.cell (row : OutboxRow) : LeaseCell Uuid where
  lease := match row.leaseToken, row.leasedUntil with
    | some token, some expires => some (token, expires)
    | _, _ => none
  attempts := row.relayAttempt
  finished := row.publishedAt.isSome

/-- The table's `CHECK`: token and deadline are set together. -/
def OutboxRow.Paired (row : OutboxRow) : Prop :=
  row.leaseToken = none ↔ row.leasedUntil = none

variable {kind : OutboxKind} {destination : OutboxDestination} {now : Int} {row : OutboxRow} {token : Uuid}
  {rows : List OutboxRow}

theorem eligible_claimable (chosen : eligible kind destination now row = true) :
    row.publishedAt = none ∧ ∀ deadline, row.leasedUntil = some deadline → deadline ≤ now := by
  obtain ⟨unpublished, -, -, -, free⟩ := of_decide_eq_true chosen
  exact ⟨unpublished, free⟩

/-- A chosen row admits the claim. -/
theorem claimRow_apply {claimedAt : Int} (chosen : eligible kind destination now row = true)
    (order : now ≤ claimedAt) (token : Uuid) (expires : Int) :
    row.cell.apply (.claim token claimedAt expires) = some (claimRow token expires row).cell := by
  obtain ⟨unpublished, free⟩ := eligible_claimable chosen
  have claimable : row.cell.claimable claimedAt = true := by
    unfold LeaseCell.claimable OutboxRow.cell
    cases row.leaseToken with
    | none => rfl
    | some token =>
      cases deadline : row.leasedUntil with
      | none => rfl
      | some t => exact decide_eq_true ((free t deadline).trans order)
  simp only [LeaseCell.apply, claimable]
  simp [OutboxRow.cell, claimRow, unpublished]

theorem carries_cell {id : OutboxId} (paired : row.Paired) :
    carries id token row = true ↔
      row.id = id ∧ row.cell.finished = false ∧ row.cell.heldBy token = true := by
  unfold OutboxRow.Paired at paired
  unfold carries LeaseCell.heldBy OutboxRow.cell
  cases token? : row.leaseToken <;> cases deadline? : row.leasedUntil <;>
    cases published? : row.publishedAt <;> simp_all

/-- A row that carries the token admits its settlement. -/
theorem acknowledgeRow_apply {id : OutboxId} (paired : row.Paired) (mine : carries id token row = true)
    (now : Int) :
    row.cell.apply (.finish token) = some (acknowledgeRow now row).cell := by
  obtain ⟨-, unfinished, held⟩ := (carries_cell paired).1 mine
  exact if_pos ⟨unfinished, held⟩

theorem retryRow_apply {id : OutboxId} (paired : row.Paired) (mine : carries id token row = true)
    (now : Int) (delayMillis : Nat) :
    row.cell.apply (.release token) = some (retryRow now delayMillis row).cell := by
  obtain ⟨-, unfinished, held⟩ := (carries_cell paired).1 mine
  exact if_pos ⟨unfinished, held⟩

/-- What one statement does to one row: nothing, or one event of its lease. -/
def OutboxRow.Moves (row : OutboxRow) (event : Option (LeaseEvent Uuid)) (after : OutboxRow) :
    Prop :=
  after.message = row.message ∧ (row.Paired → after.Paired) ∧
    match event with
    | none => after = row
    | some event => row.cell.apply event = some after.cell

theorem OutboxRow.Moves.stay (row : OutboxRow) : row.Moves none row :=
  ⟨rfl, fun paired => paired, rfl⟩

/-! ## The table -/

/-- A duration that is not refused has a count of milliseconds that fits. -/
theorem durationMillis_ok {duration : Duration}
    (accepted : ¬((duration.nanos ≠ 0 ∧ duration.nanos < minPostgresInterval.nanos) ∨
      duration.nanos > maxLeaseDuration.nanos)) :
    durationMillis duration = .ok duration.asMillis := by
  have high : duration.nanos ≤ maxLeaseDuration.nanos := by omega
  have millis : duration.asMillis ≤ maxLeaseDuration.asMillis := Nat.div_le_div_right high
  have fits : (duration.asMillis : Int) ≤ i64Max := (Int.ofNat_le.2 millis).trans (by decide)
  unfold durationMillis
  rw [if_neg accepted, if_pos fits]

theorem durationMillis_config (config : LeaseConfig) :
    durationMillis config.leaseDuration = .ok config.leaseDuration.asMillis := by
  obtain ⟨low, high⟩ := config.duration_fits
  exact durationMillis_ok (by omega)

theorem mem_candidates {batchSize : Nat} {locked : List OutboxId}
    (chosen : row ∈ candidates rows kind destination batchSize locked now) :
    row ∈ rows ∧ eligible kind destination now row = true := by
  have sorted := List.mem_of_mem_take chosen
  rw [List.mem_insertionSort, List.mem_filter] at sorted
  exact ⟨sorted.1, (of_decide_eq_true sorted.2).1⟩

/-- Rows with one primary key are one row. -/
theorem eq_of_id (unique : (rows.map OutboxRow.id).Nodup) {a b : OutboxRow} (left : a ∈ rows)
    (right : b ∈ rows) (same : a.id = b.id) : a = b :=
  List.inj_on_of_nodup_map unique left right same

theorem leased_ids (token : Uuid) (expires : Int) (chosen : List OutboxRow) :
    (chosen.map fun row => storedLease token (claimRow token expires row)).map (·.lease.id) =
      chosen.map OutboxRow.id := by
  rw [List.map_map]
  rfl

section

variable {after : List OutboxRow} {config : LeaseConfig} {locked : List OutboxId} {claimedAt : Int}
  {leases : List StoredLease}

/-- What a claim that succeeds has chosen, updated and returned. -/
theorem lease_eq_ok
    (ok : lease rows kind destination config token locked now claimedAt = .ok (after, leases)) :
    let chosen := candidates rows kind destination config.batchSize locked now
    let claim := claimRow token (claimedAt + config.leaseDuration.asMillis * 1000)
    (∀ row ∈ chosen, row.relayAttempt < i32Max) ∧
      leases = chosen.map (fun row => storedLease token (claim row)) ∧
      after = rows.map fun row => if row.id ∈ leases.map (·.lease.id) then claim row else row := by
  unfold lease at ok
  rw [durationMillis_config] at ok
  simp only at ok
  split at ok
  · cases ok
  · rename_i room
    cases ok
    refine ⟨fun row chosen => ?_, rfl, by rw [leased_ids]⟩
    by_contra full
    exact room (List.any_eq_true.2 ⟨row, chosen, decide_eq_true (by omega)⟩)

/-- **The claim.**  It succeeds with the chosen rows claimed under its token, and they were
unpublished and free. -/
theorem lease_ok (unique : (rows.map OutboxRow.id).Nodup) (order : now ≤ claimedAt)
    (ok : lease rows kind destination config token locked now claimedAt = .ok (after, leases)) :
    ∃ claim : OutboxRow → OutboxRow, after = rows.map claim ∧
      (∀ id ∈ leases.map (·.lease.id), id ∈ rows.map OutboxRow.id) ∧
      ∀ row ∈ rows,
        row.Moves
          (if row.id ∈ leases.map (·.lease.id) then
            some (.claim token claimedAt (claimedAt + config.leaseDuration.asMillis * 1000))
          else none) (claim row) ∧
        (row.id ∈ leases.map (·.lease.id) →
          row.publishedAt = none ∧ ∀ deadline, row.leasedUntil = some deadline → deadline ≤ now) := by
  obtain ⟨-, rfl, rfl⟩ := lease_eq_ok ok
  rw [leased_ids]
  refine ⟨_, rfl, ?_, ?_⟩
  · intro id member
    obtain ⟨row, chosen, rfl⟩ := List.mem_map.1 member
    exact List.mem_map_of_mem (mem_candidates chosen).1
  · intro row stored
    split
    · rename_i member
      -- the primary key makes the chosen row with this id the row itself
      obtain ⟨same, chosen, sameId⟩ := List.mem_map.1 member
      obtain ⟨stored', eligible'⟩ := mem_candidates chosen
      obtain rfl := eq_of_id unique stored' stored sameId
      exact ⟨⟨rfl, fun _ => by simp [OutboxRow.Paired, claimRow],
        claimRow_apply eligible' order token _⟩, fun _ => eligible_claimable eligible'⟩
    · rename_i other
      exact ⟨.stay row, fun member => absurd member other⟩

end

theorem countP_carries_le (unique : (rows.map OutboxRow.id).Nodup) (id : OutboxId) (token : Uuid) :
    rows.countP (carries id token) ≤ 1 :=
  calc rows.countP (carries id token)
      ≤ rows.countP fun row => row.id == id := by
        refine List.countP_mono_left fun row _ mine => ?_
        exact beq_iff_eq.2 (of_decide_eq_true mine).1
    _ = (rows.map OutboxRow.id).count id := by rw [List.count, List.countP_map]; rfl
    _ ≤ 1 := List.nodup_iff_count_le_one.1 unique id

/-- **Settlement.**  It applies exactly when some row is unpublished and carries the token,
and is lost without a trace otherwise. -/
theorem settle_applied_iff (unique : (rows.map OutboxRow.id).Nodup) (id : OutboxId) (token : Uuid)
    (set : OutboxRow → OutboxRow) :
    (settle rows id token set).2 = .applied ↔ ∃ row ∈ rows, carries id token row = true := by
  have atMost := countP_carries_le unique id token
  rw [← List.countP_pos_iff]
  simp only [settle, outcome]
  split
  · rename_i one
    simp only [true_iff]
    omega
  · rename_i notOne
    simp only [reduceCtorEq, false_iff]
    omega

theorem settle_lost (unique : (rows.map OutboxRow.id).Nodup) {id : OutboxId} {set : OutboxRow → OutboxRow}
    (lost : (settle rows id token set).2 ≠ .applied) : (settle rows id token set).1 = rows := by
  have none_carries : ∀ row ∈ rows, ¬carries id token row = true := by
    intro row stored mine
    exact lost ((settle_applied_iff unique id token set).2 ⟨row, stored, mine⟩)
  simp only [settle]
  conv_rhs => rw [← List.map_id rows]
  exact List.map_congr_left fun row stored => if_neg (none_carries row stored)

/-- A settlement as events: the row that carries the token is settled, the others stay. -/
theorem settle_moves (unique : (rows.map OutboxRow.id).Nodup) (id : OutboxId) (token : Uuid)
    {set : OutboxRow → OutboxRow} {event : LeaseEvent Uuid}
    (moves : ∀ row, row.Paired → carries id token row = true → row.Moves (some event) (set row)) :
    ∃ g : OutboxRow → OutboxRow, (settle rows id token set).1 = rows.map g ∧
      ∀ row ∈ rows, row.Paired →
        row.Moves (if (settle rows id token set).2 = .applied ∧ row.id = id then some event else none)
          (g row) := by
  refine ⟨_, rfl, fun row stored paired => ?_⟩
  by_cases mine : carries id token row = true
  · have applied := (settle_applied_iff unique id token set).2 ⟨row, stored, mine⟩
    rw [if_pos mine, if_pos ⟨applied, (of_decide_eq_true mine).1⟩]
    exact moves row paired mine
  · rw [if_neg mine, if_neg]
    · exact .stay row
    · rintro ⟨applied, sameId⟩
      obtain ⟨other, stored', mine'⟩ := (settle_applied_iff unique id token set).1 applied
      obtain rfl := eq_of_id unique stored' stored ((of_decide_eq_true mine').1.trans sameId.symm)
      exact mine mine'

end Rustee.Outbox
