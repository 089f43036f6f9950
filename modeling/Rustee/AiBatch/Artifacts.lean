/-
# Rustee.AiBatch.Artifacts -- the two ledgers of batch artifacts

`InMemoryAiBatchArtifactLedger` of `rustee-ai-batch/src/in_memory.rs` and
`PostgresAiBatchArtifactLedger` of `rustee-ai-batch-sqlx/src/store.rs`, used by one caller after the
other, with the batch references of `rustee-ai-batch/src/submission/contracts.rs`.  The first keeps
what it knows under the whole reference, the second under scope and reconciliation key, and refuses
a key that has a row of another artifact.

They answer alike exactly as long as no key is reserved for two artifacts (`artifact_ledgers_agree`).
-/
import Rustee.Foundation.Async
import Rustee.Foundation.Keyed
import Rustee.Foundation.RustStd
import Mathlib.Data.List.Dedup
import Mathlib.Data.List.Perm.Subperm

namespace Rustee.AiBatch

set_option autoImplicit false

open Rustee.Foundation

/-! ## References -/

def maxBatchIdentifierBytes : Nat := 128

def validIdentifier (value : String) : Bool := isIdentifier maxBatchIdentifierBytes value

/-- `AiBatchReference`; the last three fields are what `new` checks. -/
@[ext] structure AiBatchReference where
  scope : String
  catalogId : String
  runKey : String
  scope_valid : validIdentifier scope = true
  catalogId_valid : validIdentifier catalogId = true
  runKey_valid : validIdentifier runKey = true

instance : DecidableEq AiBatchReference := fun a b =>
  decidable_of_iff (a.scope = b.scope ∧ a.catalogId = b.catalogId ∧ a.runKey = b.runKey)
    AiBatchReference.ext_iff.symm

namespace Artifacts

inductive AiBatchArtifactKind where
  | output
  | error
  deriving DecidableEq, Repr

/-- `AiBatchArtifactReference`; the last two fields are what `new` checks. -/
@[ext] structure AiBatchArtifactReference where
  batch : AiBatchReference
  kind : AiBatchArtifactKind
  providerFileId : String
  reconciliationKey : String
  providerFileId_valid : validIdentifier providerFileId = true
  reconciliationKey_valid : validIdentifier reconciliationKey = true

instance : DecidableEq AiBatchArtifactReference := fun a b =>
  decidable_of_iff (a.batch = b.batch ∧ a.kind = b.kind ∧ a.providerFileId = b.providerFileId ∧
    a.reconciliationKey = b.reconciliationKey) AiBatchArtifactReference.ext_iff.symm

/-- Scope and reconciliation key. -/
abbrev ArtifactKey := String × String

def AiBatchArtifactReference.key (reference : AiBatchArtifactReference) : ArtifactKey :=
  (reference.batch.scope, reference.reconciliationKey)

inductive AiBatchArtifactReservation where
  | reserved
  | reconciled
  | pending
  deriving DecidableEq, Repr

/-! ## In memory -/

inductive InMemoryAiBatchArtifactState where
  | pending
  | reconciled
  deriving DecidableEq, Repr

inductive InMemoryAiBatchArtifactLedgerError where
  | capacityExhausted
  | stateUnavailable
  | missingReservation
  deriving DecidableEq, Repr

structure InMemoryAiBatchArtifactLedger where
  state : List (AiBatchArtifactReference × InMemoryAiBatchArtifactState)
  capacity : Nat
  /-- A thread panicked while it held the lock. -/
  poisoned : Bool

namespace InMemoryAiBatchArtifactLedger

/-- The ledger `new` makes, for any capacity. -/
def empty (capacity : Nat) : InMemoryAiBatchArtifactLedger := ⟨[], capacity, false⟩

def reserve (ledger : InMemoryAiBatchArtifactLedger) (reference : AiBatchArtifactReference) :
    InMemoryAiBatchArtifactLedger ×
      Except InMemoryAiBatchArtifactLedgerError AiBatchArtifactReservation :=
  if ledger.poisoned then (ledger, .error .stateUnavailable)
  else
    match Keyed.hget ledger.state reference with
    | some .pending => (ledger, .ok .pending)
    | some .reconciled => (ledger, .ok .reconciled)
    | none =>
      if ledger.state.length = ledger.capacity then (ledger, .error .capacityExhausted)
      else
        ({ ledger with state := Keyed.hset ledger.state reference .pending }, .ok .reserved)

def recordReconciled (ledger : InMemoryAiBatchArtifactLedger) (reference : AiBatchArtifactReference) :
    InMemoryAiBatchArtifactLedger × Except InMemoryAiBatchArtifactLedgerError Unit :=
  if ledger.poisoned then (ledger, .error .stateUnavailable)
  else
    match Keyed.hget ledger.state reference with
    | none => (ledger, .error .missingReservation)
    | some _ => ({ ledger with state := Keyed.hset ledger.state reference .reconciled }, .ok ())

end InMemoryAiBatchArtifactLedger

/-! ## In PostgreSQL -/

structure ArtifactRow where
  catalogId : String
  runKey : String
  artifactKind : String
  providerFileId : String
  status : String
  deriving DecidableEq, Repr

/-- `rustee_ai_batch_artifact_ledger` by its primary key. -/
abbrev ArtifactTable := ArtifactKey → Option ArtifactRow

def artifactKindName : AiBatchArtifactKind → String
  | .output => "output"
  | .error => "error"

/-- The row of a reference, with a status. -/
def AiBatchArtifactReference.row (reference : AiBatchArtifactReference) (status : String) : ArtifactRow :=
  ⟨reference.batch.catalogId, reference.batch.runKey, artifactKindName reference.kind,
    reference.providerFileId, status⟩

/-- The columns that the update and `validate_matching_reference` compare. -/
def ArtifactRow.matches (row : ArtifactRow) (reference : AiBatchArtifactReference) : Bool :=
  decide (row.catalogId = reference.batch.catalogId ∧ row.runKey = reference.batch.runKey ∧
    row.artifactKind = artifactKindName reference.kind ∧
    row.providerFileId = reference.providerFileId)

/-- `INSERT ... ON CONFLICT (scope, reconciliation_key) DO NOTHING`, with the rows it affects. -/
def insertArtifact (reference : AiBatchArtifactReference) (table : ArtifactTable) :
    ArtifactTable × Nat :=
  match table reference.key with
  | none => (Function.update table reference.key (some (reference.row "pending")), 1)
  | some _ => (table, 0)

/-- The update of `record_artifact_reconciled`, with the rows it affects. -/
def reconcileArtifact (reference : AiBatchArtifactReference) (table : ArtifactTable) :
    ArtifactTable × Nat :=
  match table reference.key with
  | none => (table, 0)
  | some row =>
    if row.matches reference ∧ (row.status = "pending" ∨ row.status = "reconciled") then
      (Function.update table reference.key (some { row with status := "reconciled" }), 1)
    else (table, 0)

inductive PostgresAiBatchArtifactLedgerError (D : Type) where
  | invalidMetadata
  | identityConflict
  | missingReservation
  | storage (error : D)
  deriving DecidableEq, Repr

/-- The statements. -/
inductive ArtifactStatement where
  | insertArtifact (reference : AiBatchArtifactReference)
  | findArtifact (reference : AiBatchArtifactReference)
  | reconcileArtifact (reference : AiBatchArtifactReference)

abbrev ArtifactAnswer (D : Type) : ArtifactStatement → Type
  | .insertArtifact _ => Except D Nat
  | .findArtifact _ => Except D (Option ArtifactRow)
  | .reconcileArtifact _ => Except D Nat

variable {D : Type}

abbrev ArtifactProgram (D α : Type) :=
  Future ArtifactStatement (ArtifactAnswer D) (Except (PostgresAiBatchArtifactLedgerError D) α)

def validateReference (reference : AiBatchArtifactReference) :
    Except (PostgresAiBatchArtifactLedgerError D) Unit :=
  if [reference.batch.scope, reference.batch.catalogId, reference.batch.runKey,
      reference.providerFileId, reference.reconciliationKey].all
      (isDurableText maxBatchIdentifierBytes) then .ok ()
  else .error .invalidMetadata

def validateMatchingReference (row : ArtifactRow) (reference : AiBatchArtifactReference) :
    Except (PostgresAiBatchArtifactLedgerError D) Unit :=
  if row.matches reference then .ok () else .error .identityConflict

def findExisting (reference : AiBatchArtifactReference) : ArtifactProgram D ArtifactRow :=
  .call (.findArtifact reference) fun
    | .error error => .ready (.error (.storage error))
    | .ok none => .ready (.error .missingReservation)
    | .ok (some row) => .ready ((validateMatchingReference row reference).map fun _ => row)

def classifyExisting (reference : AiBatchArtifactReference) :
    ArtifactProgram D AiBatchArtifactReservation :=
  (findExisting reference).bind fun
    | .error error => .ready (.error error)
    | .ok row =>
      match row.status with
      | "pending" => .ready (.ok .pending)
      | "reconciled" => .ready (.ok .reconciled)
      | _ => .ready (.error .invalidMetadata)

def reserveArtifact (reference : AiBatchArtifactReference) :
    ArtifactProgram D AiBatchArtifactReservation :=
  match validateReference reference with
  | .error error => .ready (.error error)
  | .ok () =>
    .call (.insertArtifact reference) fun
      | .error error => .ready (.error (.storage error))
      | .ok affected => if affected = 1 then .ready (.ok .reserved) else classifyExisting reference

def classifyRecordConflict (reference : AiBatchArtifactReference) : ArtifactProgram D Unit :=
  (findExisting reference).bind fun
    | .error error => .ready (.error error)
    | .ok row =>
      if row.status = "pending" ∨ row.status = "reconciled" then .ready (.error .missingReservation)
      else .ready (.error .invalidMetadata)

def recordArtifactReconciled (reference : AiBatchArtifactReference) : ArtifactProgram D Unit :=
  match validateReference reference with
  | .error error => .ready (.error error)
  | .ok () =>
    .call (.reconcileArtifact reference) fun
      | .error error => .ready (.error (.storage error))
      | .ok affected => if affected = 1 then .ready (.ok ()) else classifyRecordConflict reference

/-- A database that answers. -/
def serveArtifacts (table : ArtifactTable) :
    (statement : ArtifactStatement) → ArtifactTable × ArtifactAnswer D statement
  | .insertArtifact reference => (insertArtifact reference table).map id .ok
  | .findArtifact reference => (table, .ok (table reference.key))
  | .reconcileArtifact reference => (reconcileArtifact reference table).map id .ok

theorem validateReference_ok (reference : AiBatchArtifactReference) :
    validateReference (D := D) reference = .ok () := by
  have scope := isDurableText_of_isIdentifier reference.batch.scope_valid
  have catalogId := isDurableText_of_isIdentifier reference.batch.catalogId_valid
  have runKey := isDurableText_of_isIdentifier reference.batch.runKey_valid
  have providerFileId := isDurableText_of_isIdentifier reference.providerFileId_valid
  have reconciliationKey := isDurableText_of_isIdentifier reference.reconciliationKey_valid
  simp [validateReference, scope, catalogId, runKey, providerFileId, reconciliationKey]

/-! ## Calls, one after the other -/

inductive ArtifactCall where
  | reserve (reference : AiBatchArtifactReference)
  | recordReconciled (reference : AiBatchArtifactReference)

def ArtifactCall.reference : ArtifactCall → AiBatchArtifactReference
  | .reserve reference => reference
  | .recordReconciled reference => reference

/-- What a caller is told, whichever ledger it is. -/
inductive Told where
  | reserved
  | pending
  | reconciled
  | success
  | refused
  deriving DecidableEq, Repr

def Told.ofReserve {E : Type} : Except E AiBatchArtifactReservation → Told
  | .ok .reserved => .reserved
  | .ok .pending => .pending
  | .ok .reconciled => .reconciled
  | .error _ => .refused

def Told.ofRecord {E : Type} : Except E Unit → Told
  | .ok () => .success
  | .error _ => .refused

def inMemory (ledger : InMemoryAiBatchArtifactLedger) :
    ArtifactCall → InMemoryAiBatchArtifactLedger × Told
  | .reserve reference => (ledger.reserve reference).map id Told.ofReserve
  | .recordReconciled reference => (ledger.recordReconciled reference).map id Told.ofRecord

def durable (D : Type) (table : ArtifactTable) : ArtifactCall → ArtifactTable × Told
  | .reserve reference =>
    ((reserveArtifact (D := D) reference).alone serveArtifacts table).map id Told.ofReserve
  | .recordReconciled reference =>
    ((recordArtifactReconciled (D := D) reference).alone serveArtifacts table).map id Told.ofRecord

section Calls

variable {S : Type} (ledger : S → ArtifactCall → S × Told)

def after (s : S) (calls : List ArtifactCall) : S := calls.foldl (fun s call => (ledger s call).1) s

def told : S → List ArtifactCall → List Told
  | _, [] => []
  | s, call :: rest => (ledger s call).2 :: told (ledger s call).1 rest

end Calls

def reserves (calls : List ArtifactCall) : List AiBatchArtifactReference :=
  calls.filterMap fun
    | .reserve reference => some reference
    | .recordReconciled _ => none

/-- No key is used for two artifacts. -/
def Consistent (references : List AiBatchArtifactReference) : Prop :=
  ∀ first ∈ references, ∀ second ∈ references, first.key = second.key → first = second

/-- The key of the call was reserved for another artifact. -/
def Reuses (before : List ArtifactCall) (call : ArtifactCall) : Prop :=
  ∃ reference ∈ reserves before,
    reference.key = call.reference.key ∧ reference ≠ call.reference

/-! ## What one call is told -/

def statusName : InMemoryAiBatchArtifactState → String
  | .pending => "pending"
  | .reconciled => "reconciled"

def toldState : InMemoryAiBatchArtifactState → Told
  | .pending => .pending
  | .reconciled => .reconciled

theorem artifactKindName_injective : Function.Injective artifactKindName := by
  intro a b same
  cases a <;> cases b <;> simp_all [artifactKindName]

/-- Under its key a row tells an artifact from every other. -/
theorem row_matches {reference other : AiBatchArtifactReference} {status : String}
    (sameKey : reference.key = other.key) :
    (reference.row status).matches other = true ↔ reference = other := by
  obtain ⟨sameScope, sameReconciliationKey⟩ := Prod.mk.inj sameKey
  constructor
  · intro matched
    obtain ⟨sameCatalog, sameRun, sameKind, sameFile⟩ := of_decide_eq_true matched
    exact AiBatchArtifactReference.ext (AiBatchReference.ext sameScope sameCatalog sameRun)
      (artifactKindName_injective sameKind) sameFile sameReconciliationKey
  · rintro rfl
    simp [ArtifactRow.matches, AiBatchArtifactReference.row]

section Durable

variable {table : ArtifactTable} {reference : AiBatchArtifactReference}

theorem durable_reserve_free (free : table reference.key = none) :
    durable D table (.reserve reference) =
      (Function.update table reference.key (some (reference.row "pending")), .reserved) := by
  simp [durable, reserveArtifact, validateReference_ok, Future.alone, serveArtifacts, insertArtifact,
    free, Told.ofReserve]

theorem durable_reserve_stored {state : InMemoryAiBatchArtifactState}
    (stored : table reference.key = some (reference.row (statusName state))) :
    durable D table (.reserve reference) = (table, toldState state) := by
  have matched : (reference.row (statusName state)).matches reference = true := (row_matches rfl).2 rfl
  cases state <;>
    simp_all [durable, reserveArtifact, validateReference_ok, Future.alone, serveArtifacts,
      insertArtifact, classifyExisting, findExisting, validateMatchingReference, Except.map,
      AiBatchArtifactReference.row, statusName, toldState, Told.ofReserve]

theorem durable_record_free (free : table reference.key = none) :
    durable D table (.recordReconciled reference) = (table, .refused) := by
  simp [durable, recordArtifactReconciled, validateReference_ok, Future.alone, serveArtifacts,
    reconcileArtifact, free, classifyRecordConflict, findExisting, Told.ofRecord]

theorem durable_record_stored {state : InMemoryAiBatchArtifactState}
    (stored : table reference.key = some (reference.row (statusName state))) :
    durable D table (.recordReconciled reference) =
      (Function.update table reference.key (some (reference.row "reconciled")), .success) := by
  have matched : (reference.row (statusName state)).matches reference = true := (row_matches rfl).2 rfl
  have settled : (reference.row (statusName state)).status = "pending" ∨
      (reference.row (statusName state)).status = "reconciled" := by
    cases state <;> simp [AiBatchArtifactReference.row, statusName]
  have updates : reconcileArtifact reference table =
      (Function.update table reference.key (some (reference.row "reconciled")), 1) := by
    simp only [reconcileArtifact, stored]
    exact if_pos ⟨matched, settled⟩
  simp [durable, recordArtifactReconciled, validateReference_ok, Future.alone, serveArtifacts, updates,
    Told.ofRecord]

/-- A key that has a row of another artifact is refused. -/
theorem durable_other {call : ArtifactCall} {row : ArtifactRow}
    (stored : table call.reference.key = some row) (other : row.matches call.reference = false) :
    durable D table call = (table, .refused) := by
  cases call with
  | reserve reference =>
    have stored : table reference.key = some row := stored
    have other : row.matches reference = false := other
    simp [durable, reserveArtifact, validateReference_ok, Future.alone, serveArtifacts,
      insertArtifact, stored, other, classifyExisting, findExisting, validateMatchingReference,
      Except.map, Told.ofReserve]
  | recordReconciled reference =>
    have stored : table reference.key = some row := stored
    have other : row.matches reference = false := other
    simp [durable, recordArtifactReconciled, validateReference_ok, Future.alone, serveArtifacts,
      reconcileArtifact, stored, other, classifyRecordConflict, findExisting,
      validateMatchingReference, Except.map, Told.ofRecord]

end Durable

section InMemory

variable {ledger : InMemoryAiBatchArtifactLedger} {reference : AiBatchArtifactReference}

theorem inMemory_reserve_free (available : ledger.poisoned = false)
    (free : Keyed.hget ledger.state reference = none) (room : ledger.state.length < ledger.capacity) :
    inMemory ledger (.reserve reference) =
      ({ ledger with state := Keyed.hset ledger.state reference .pending }, .reserved) := by
  simp [inMemory, InMemoryAiBatchArtifactLedger.reserve, available, free, Nat.ne_of_lt room,
    Told.ofReserve]

theorem inMemory_reserve_stored (available : ledger.poisoned = false)
    {state : InMemoryAiBatchArtifactState} (stored : Keyed.hget ledger.state reference = some state) :
    inMemory ledger (.reserve reference) = (ledger, toldState state) := by
  cases state <;>
    simp [inMemory, InMemoryAiBatchArtifactLedger.reserve, available, stored, Told.ofReserve, toldState]

theorem inMemory_record_free (available : ledger.poisoned = false)
    (free : Keyed.hget ledger.state reference = none) :
    inMemory ledger (.recordReconciled reference) = (ledger, .refused) := by
  simp [inMemory, InMemoryAiBatchArtifactLedger.recordReconciled, available, free, Told.ofRecord]

theorem inMemory_record_stored (available : ledger.poisoned = false)
    {state : InMemoryAiBatchArtifactState} (stored : Keyed.hget ledger.state reference = some state) :
    inMemory ledger (.recordReconciled reference) =
      ({ ledger with state := Keyed.hset ledger.state reference .reconciled }, .success) := by
  simp [inMemory, InMemoryAiBatchArtifactLedger.recordReconciled, available, stored, Told.ofRecord]

end InMemory

/-! ## Side by side -/

/-- The table has a row for each artifact the ledger in memory knows, and no others. -/
structure SideBySide (ledger : InMemoryAiBatchArtifactLedger) (table : ArtifactTable) : Prop where
  available : ledger.poisoned = false
  unique : (Keyed.keys ledger.state).Nodup
  stored : ∀ reference state, Keyed.hget ledger.state reference = some state →
    table reference.key = some (reference.row (statusName state))
  known : ∀ key row, table key = some row →
    ∃ reference ∈ Keyed.keys ledger.state, reference.key = key

namespace SideBySide

variable {ledger : InMemoryAiBatchArtifactLedger} {table : ArtifactTable}
  {reference : AiBatchArtifactReference}

theorem empty (capacity : Nat) : SideBySide (.empty capacity) fun _ => none where
  available := rfl
  unique := List.nodup_nil
  stored _ _ found := by cases found
  known _ _ found := by cases found

/-- Under one key there is one row. -/
theorem consistent (sideBySide : SideBySide ledger table) : Consistent (Keyed.keys ledger.state) := by
  intro first isFirst second isSecond sameKey
  obtain ⟨state, foundFirst⟩ := Keyed.hget_of_mem_keys isFirst
  obtain ⟨held, foundSecond⟩ := Keyed.hget_of_mem_keys isSecond
  have same : first.row (statusName state) = second.row (statusName held) :=
    Option.some.inj ((sideBySide.stored _ _ foundFirst).symm.trans
      (sameKey ▸ sideBySide.stored _ _ foundSecond))
  have matched : (second.row (statusName held)).matches second = true := (row_matches rfl).2 rfl
  exact (row_matches sameKey).1 (same ▸ matched)

/-- An artifact that the ledger in memory does not know has no row of its own. -/
theorem free_or_other (sideBySide : SideBySide ledger table)
    (free : Keyed.hget ledger.state reference = none) :
    table reference.key = none ∨ ∃ other ∈ Keyed.keys ledger.state, other.key = reference.key ∧
      other ≠ reference ∧ ∃ row, table reference.key = some row ∧ row.matches reference = false := by
  cases found : table reference.key with
  | none => exact .inl rfl
  | some row =>
    obtain ⟨other, isKnown, sameKey⟩ := sideBySide.known _ _ found
    have differ : other ≠ reference := by
      rintro rfl
      exact Keyed.hget_eq_none.1 free isKnown
    obtain ⟨state, stored⟩ := Keyed.hget_of_mem_keys isKnown
    have isRow : row = other.row (statusName state) :=
      Option.some.inj (found.symm.trans (sameKey ▸ sideBySide.stored other state stored))
    refine .inr ⟨other, isKnown, sameKey, differ, row, rfl, ?_⟩
    rw [isRow, Bool.eq_false_iff]
    exact fun matched => differ ((row_matches sameKey).1 matched)

/-- Both write the same artifact. -/
theorem set (sideBySide : SideBySide ledger table)
    (apart : ∀ other ∈ Keyed.keys ledger.state, other.key = reference.key → other = reference)
    (state : InMemoryAiBatchArtifactState) :
    SideBySide { ledger with state := Keyed.hset ledger.state reference state }
      (Function.update table reference.key (some (reference.row (statusName state)))) where
  available := sideBySide.available
  unique := by
    rw [Keyed.keys_hset, List.nodup_append]
    exact ⟨sideBySide.unique.filter _, List.nodup_singleton _, by simp⟩
  stored other found isFound := by
    rw [Keyed.hget_hset] at isFound
    split at isFound
    · rename_i same
      subst same
      rw [Function.update_self, Option.some.inj isFound]
    · rename_i differ
      have isKnown : other ∈ Keyed.keys ledger.state := by
        by_contra unknown
        rw [Keyed.hget_eq_none.2 unknown] at isFound
        cases isFound
      rw [Function.update_of_ne fun sameKey => differ (apart other isKnown sameKey)]
      exact sideBySide.stored other found isFound
  known key row isRow := by
    rw [Keyed.keys_hset]
    by_cases same : key = reference.key
    · exact ⟨reference, by simp, same.symm⟩
    · rw [Function.update_of_ne same] at isRow
      obtain ⟨other, isKnown, isKey⟩ := sideBySide.known key row isRow
      refine ⟨other, List.mem_append_left _ (List.mem_filter.2 ⟨isKnown, ?_⟩), isKey⟩
      refine decide_eq_true ?_
      rintro rfl
      exact same isKey.symm

variable (D ledger table) in
/-- A call that is told the same by both. -/
structure Alike (call : ArtifactCall) : Prop where
  told : (inMemory ledger call).2 = (durable D table call).2
  sideBySide : SideBySide (inMemory ledger call).1 (durable D table call).1
  known : ∀ reference, reference ∈ Keyed.keys (inMemory ledger call).1.state ↔
    reference ∈ Keyed.keys ledger.state ∨ call = .reserve reference
  capacity : (inMemory ledger call).1.capacity = ledger.capacity

variable {state : InMemoryAiBatchArtifactState}

theorem mem_keys_hset {other : AiBatchArtifactReference} :
    other ∈ Keyed.keys (Keyed.hset ledger.state reference state) ↔
      other ∈ Keyed.keys ledger.state ∨ reference = other := by
  rw [Keyed.keys_hset, List.mem_append, List.mem_filter, List.mem_singleton]
  by_cases same : other = reference <;> simp [same, Ne.symm]

theorem reserve_known (sideBySide : SideBySide ledger table)
    (found : Keyed.hget ledger.state reference = some state) :
    Alike D ledger table (.reserve reference) := by
  have isKnown : reference ∈ Keyed.keys ledger.state := List.mem_map.2 ⟨_, Keyed.hget_mem found, rfl⟩
  have first := inMemory_reserve_stored sideBySide.available found
  have second := durable_reserve_stored (D := D) (sideBySide.stored _ _ found)
  refine ⟨by rw [first, second], by rw [first, second]; exact sideBySide, fun other => ?_, by rw [first]⟩
  rw [first, ArtifactCall.reserve.injEq]
  exact ⟨.inl, fun isOther => isOther.elim id fun same => same ▸ isKnown⟩

theorem reserve_new (sideBySide : SideBySide ledger table)
    (unknown : Keyed.hget ledger.state reference = none)
    (room : ledger.state.length < ledger.capacity) (free : table reference.key = none) :
    Alike D ledger table (.reserve reference) := by
  have first := inMemory_reserve_free sideBySide.available unknown room
  have second := durable_reserve_free (D := D) free
  have apart : ∀ other ∈ Keyed.keys ledger.state, other.key = reference.key → other = reference := by
    intro other isKnown sameKey
    obtain ⟨state, found⟩ := Keyed.hget_of_mem_keys isKnown
    have stored := sideBySide.stored other state found
    rw [sameKey, free] at stored
    cases stored
  refine ⟨by rw [first, second], by rw [first, second]; exact sideBySide.set apart .pending,
    fun other => ?_, by rw [first]⟩
  rw [first, mem_keys_hset, ArtifactCall.reserve.injEq]

theorem reserve_other (sideBySide : SideBySide ledger table)
    (unknown : Keyed.hget ledger.state reference = none)
    (room : ledger.state.length < ledger.capacity) {row : ArtifactRow}
    (stored : table reference.key = some row) (other : row.matches reference = false) :
    (inMemory ledger (.reserve reference)).2 ≠ (durable D table (.reserve reference)).2 := by
  rw [inMemory_reserve_free sideBySide.available unknown room, durable_other stored other]
  exact Told.noConfusion

theorem record_known (sideBySide : SideBySide ledger table)
    (found : Keyed.hget ledger.state reference = some state) :
    Alike D ledger table (.recordReconciled reference) := by
  have isKnown : reference ∈ Keyed.keys ledger.state := List.mem_map.2 ⟨_, Keyed.hget_mem found, rfl⟩
  have first := inMemory_record_stored sideBySide.available found
  have second := durable_record_stored (D := D) (sideBySide.stored _ _ found)
  have apart : ∀ other ∈ Keyed.keys ledger.state, other.key = reference.key → other = reference :=
    fun other isOther => sideBySide.consistent other isOther reference isKnown
  refine ⟨by rw [first, second], by rw [first, second]; exact sideBySide.set apart .reconciled,
    fun other => ?_, by rw [first]⟩
  rw [first, mem_keys_hset]
  constructor
  · rintro (isOther | rfl)
    · exact .inl isOther
    · exact .inl isKnown
  · simpa using Or.inl

theorem record_unknown (sideBySide : SideBySide ledger table)
    (unknown : Keyed.hget ledger.state reference = none) :
    Alike D ledger table (.recordReconciled reference) := by
  have first := inMemory_record_free sideBySide.available unknown
  have second : durable D table (.recordReconciled reference) = (table, .refused) := by
    rcases sideBySide.free_or_other unknown with free | ⟨_, _, _, _, row, stored, other⟩
    · exact durable_record_free free
    · exact durable_other stored other
  refine ⟨by rw [first, second], by rw [first, second]; exact sideBySide, fun other => ?_, by rw [first]⟩
  simp [first]

end SideBySide

/-! ## Agreement -/

theorem mem_reserves_cons {call : ArtifactCall} {calls : List ArtifactCall}
    {reference : AiBatchArtifactReference} :
    reference ∈ reserves (call :: calls) ↔ call = .reserve reference ∨ reference ∈ reserves calls := by
  cases call <;> simp [reserves, eq_comm]

theorem consistent_congr {references others : List AiBatchArtifactReference}
    (same : ∀ reference, reference ∈ references ↔ reference ∈ others) :
    Consistent references ↔ Consistent others := by
  simp only [Consistent, same]

theorem dedup_length_mono {references others : List AiBatchArtifactReference}
    (subset : references ⊆ others) : references.dedup.length ≤ others.dedup.length :=
  ((List.nodup_dedup _).subperm fun _ isReference =>
    List.mem_dedup.2 (subset (List.mem_dedup.1 isReference))).length_le

namespace SideBySide

variable {ledger : InMemoryAiBatchArtifactLedger} {table : ArtifactTable}

/-- There is room for an artifact that is still to be reserved. -/
theorem room (sideBySide : SideBySide ledger table) {later : List AiBatchArtifactReference}
    (sufficient : (Keyed.keys ledger.state ++ later).dedup.length ≤ ledger.capacity)
    {reference : AiBatchArtifactReference} (unknown : Keyed.hget ledger.state reference = none)
    (isLater : reference ∈ later) : ledger.state.length < ledger.capacity := by
  have distinct : (reference :: Keyed.keys ledger.state).Nodup :=
    List.nodup_cons.2 ⟨Keyed.hget_eq_none.1 unknown, sideBySide.unique⟩
  have within : reference :: Keyed.keys ledger.state ⊆ (Keyed.keys ledger.state ++ later).dedup := by
    intro other isOther
    rw [List.mem_dedup, List.mem_append]
    rcases List.mem_cons.1 isOther with rfl | isKnown
    · exact .inr isLater
    · exact .inl isKnown
  have fits := (distinct.subperm within).length_le
  rw [List.length_cons, Keyed.keys, List.length_map] at fits
  exact Nat.lt_of_lt_of_le fits sufficient

variable {later : List ArtifactCall}

/-- A call is told the same by both, or it reserves a key of another artifact. -/
theorem alike_or_conflict (D : Type) (sideBySide : SideBySide ledger table) (call : ArtifactCall)
    (sufficient : (Keyed.keys ledger.state ++ reserves (call :: later)).dedup.length ≤ ledger.capacity) :
    Alike D ledger table call ∨
      (inMemory ledger call).2 ≠ (durable D table call).2 ∧
        ¬Consistent (Keyed.keys ledger.state ++ reserves (call :: later)) := by
  cases call with
  | reserve reference =>
    cases found : Keyed.hget ledger.state reference with
    | some state => exact .inl (sideBySide.reserve_known found)
    | none =>
      have isLater : reference ∈ reserves (.reserve reference :: later) :=
        mem_reserves_cons.2 (.inl rfl)
      have room := sideBySide.room sufficient found isLater
      rcases sideBySide.free_or_other found with
        free | ⟨other, isKnown, sameKey, differ, row, stored, mismatch⟩
      · exact .inl (sideBySide.reserve_new found room free)
      · refine .inr ⟨sideBySide.reserve_other found room stored mismatch, fun consistent => ?_⟩
        exact differ (consistent other (List.mem_append_left _ isKnown) reference
          (List.mem_append_right _ isLater) sameKey)
  | recordReconciled reference =>
    cases found : Keyed.hget ledger.state reference with
    | some state => exact .inl (sideBySide.record_known found)
    | none => exact .inl (sideBySide.record_unknown found)

/-- What is known and what is still to be reserved, before and after a call. -/
theorem Alike.mem_iff {call : ArtifactCall} (alike : Alike D ledger table call)
    (later : List ArtifactCall) (reference : AiBatchArtifactReference) :
    reference ∈ Keyed.keys (inMemory ledger call).1.state ++ reserves later ↔
      reference ∈ Keyed.keys ledger.state ++ reserves (call :: later) := by
  rw [List.mem_append, List.mem_append, alike.known, mem_reserves_cons, or_assoc]

theorem Alike.sufficient {call : ArtifactCall} (alike : Alike D ledger table call)
    (sufficient : (Keyed.keys ledger.state ++ reserves (call :: later)).dedup.length ≤ ledger.capacity) :
    (Keyed.keys (inMemory ledger call).1.state ++ reserves later).dedup.length ≤
      (inMemory ledger call).1.capacity := by
  rw [alike.capacity]
  exact Nat.le_trans (dedup_length_mono fun reference => (alike.mem_iff later reference).1) sufficient

/-- Two ledgers side by side are told the same as long as no key is reserved for two artifacts, and
no longer. -/
theorem told_eq_iff (sideBySide : SideBySide ledger table) (calls : List ArtifactCall)
    (sufficient : (Keyed.keys ledger.state ++ reserves calls).dedup.length ≤ ledger.capacity) :
    told inMemory ledger calls = told (durable D) table calls ↔
      Consistent (Keyed.keys ledger.state ++ reserves calls) := by
  induction calls generalizing ledger table with
  | nil => simpa [told, reserves] using sideBySide.consistent
  | cons call later ih =>
    rw [told, told, List.cons.injEq]
    rcases sideBySide.alike_or_conflict D call sufficient with alike | ⟨differ, conflict⟩
    · rw [ih alike.sideBySide (alike.sufficient sufficient)]
      rw [consistent_congr (alike.mem_iff later)]
      exact and_iff_right alike.told
    · exact iff_of_false (fun same => differ same.1) conflict

/-- After calls without a conflict the ledgers are side by side, and what was reserved is known. -/
theorem after_calls (sideBySide : SideBySide ledger table) (calls : List ArtifactCall)
    (sufficient : (Keyed.keys ledger.state ++ reserves (calls ++ later)).dedup.length ≤ ledger.capacity)
    (consistent : Consistent (Keyed.keys ledger.state ++ reserves (calls ++ later))) :
    SideBySide (after inMemory ledger calls) (after (durable D) table calls) ∧
      ∀ reference, reference ∈ Keyed.keys ledger.state ++ reserves calls →
        reference ∈ Keyed.keys (after inMemory ledger calls).state := by
  induction calls generalizing ledger table with
  | nil => exact ⟨sideBySide, by simp [after, reserves]⟩
  | cons call rest ih =>
    rcases sideBySide.alike_or_conflict D call sufficient with alike | ⟨-, conflict⟩
    · obtain ⟨side, known⟩ := ih alike.sideBySide (alike.sufficient sufficient)
        ((consistent_congr (alike.mem_iff (rest ++ later))).2 consistent)
      refine ⟨side, fun reference isReference => known reference ?_⟩
      exact (alike.mem_iff rest reference).2 isReference
    · exact absurd consistent conflict

end SideBySide

/-- **Agreement.**  With room for the artifacts that are reserved, the ledgers tell their callers the
same, and both refuse a key that was reserved for another artifact, exactly if no key is reserved for
two artifacts. -/
theorem artifact_ledgers_agree (D : Type) (capacity : Nat) (calls : List ArtifactCall)
    (sufficient : (reserves calls).dedup.length ≤ capacity) :
    (told inMemory (.empty capacity) calls = told (durable D) (fun _ => none) calls ∧
      ∀ before call later, calls = before ++ call :: later → Reuses before call →
        (inMemory (after inMemory (.empty capacity) before) call).2 = .refused ∧
        (durable D (after (durable D) (fun _ => none) before) call).2 = .refused) ↔
      Consistent (reserves calls) := by
  have agree : told inMemory (.empty capacity) calls = told (durable D) (fun _ => none) calls ↔
      Consistent (reserves calls) :=
    (SideBySide.empty capacity).told_eq_iff calls sufficient
  refine ⟨fun holds => agree.1 holds.1, fun consistent => ⟨agree.2 consistent, ?_⟩⟩
  rintro before call later rfl ⟨reference, isReserved, sameKey, differ⟩
  obtain ⟨sideBySide, known⟩ := (SideBySide.empty capacity).after_calls (D := D) before sufficient
    consistent
  have isKnown := known reference isReserved
  constructor
  · cases call with
    | reserve wanted =>
      -- a conflict that `consistent` excludes
      refine absurd (consistent reference ?_ wanted ?_ sameKey) differ
      · rw [reserves, List.filterMap_append]
        exact List.mem_append_left _ isReserved
      · rw [reserves, List.filterMap_append]
        exact List.mem_append_right _ (mem_reserves_cons.2 (.inl rfl))
    | recordReconciled wanted =>
      rw [inMemory_record_free sideBySide.available]
      rw [Keyed.hget_eq_none]
      exact fun isWanted => differ (sideBySide.consistent _ isKnown _ isWanted sameKey)
  · obtain ⟨state, found⟩ := Keyed.hget_of_mem_keys isKnown
    have mismatch : (reference.row (statusName state)).matches call.reference = false := by
      rw [Bool.eq_false_iff]
      exact fun matched => differ ((row_matches sameKey).1 matched)
    rw [durable_other (sameKey ▸ sideBySide.stored reference state found) mismatch]

def report : AiBatchReference := ⟨"acme", "reports", "week-9", by decide, by decide, by decide⟩

/-- Two files of one batch under one reconciliation key. -/
def firstFile : AiBatchArtifactReference := ⟨report, .output, "file-a", "attempt-1", by decide, by decide⟩

def secondFile : AiBatchArtifactReference := ⟨report, .error, "file-b", "attempt-1", by decide, by decide⟩

/-- A completion for another file of the key is refused by both. -/
theorem artifact_ledgers_agree_misfiled :
    let calls := [.reserve firstFile, .recordReconciled secondFile, .recordReconciled firstFile,
      .reserve firstFile]
    told inMemory (.empty 1) calls = [.reserved, .refused, .success, .reconciled] ∧
      told inMemory (.empty 1) calls = told (durable Unit) (fun _ => none) calls := by
  intro calls
  have consistent : Consistent (reserves calls) := by
    intro first isFirst second isSecond _
    simp only [calls, reserves, List.filterMap_cons, List.filterMap_nil, List.mem_cons,
      List.not_mem_nil, or_false, or_self] at isFirst isSecond
    rw [isFirst, isSecond]
  exact ⟨by decide +kernel, ((artifact_ledgers_agree Unit 1 calls (by decide +kernel)).2 consistent).1⟩

/-- The key of one file, reserved for another: only the durable ledger refuses. -/
theorem key_reused_for_another_file :
    told inMemory (.empty 2) [.reserve firstFile, .reserve secondFile] = [.reserved, .reserved] ∧
      told (durable Unit) (fun _ => none) [.reserve firstFile, .reserve secondFile] =
        [.reserved, .refused] := by
  decide +kernel

end Artifacts

end Rustee.AiBatch
