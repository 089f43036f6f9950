/-
# Rustee.AiEval.Ledger -- the two ledgers of evaluation runs

`InMemoryAiEvaluationRunLedger` of `rustee-ai-eval/src/in_memory.rs` and
`PostgresAiEvaluationRunLedger` of `rustee-ai-eval-sqlx/src/store.rs`.  The first does each call
under its lock, in one piece.  The second reserves by an insert and, when that affected no row, a
separate select; it records a completion by a conditional update and, when that affected no row, a
separate select.
-/
import Rustee.Foundation.Keyed
import Rustee.Foundation.RustStd
import Rustee.Foundation.Statement
import Rustee.Foundation.Tasks

namespace Rustee.AiEval

set_option autoImplicit false

open Rustee.Foundation

/-! ## References -/

def maxEvaluationIdentifierBytes : Nat := 128

def validIdentifier (value : String) : Bool := isIdentifier maxEvaluationIdentifierBytes value

/-- `AiEvaluationReference`; the last three fields are what `new` checks. -/
structure AiEvaluationReference where
  scope : String
  catalogId : String
  runKey : String
  scope_valid : validIdentifier scope = true
  catalogId_valid : validIdentifier catalogId = true
  runKey_valid : validIdentifier runKey = true

/-- Scope and run key, under which both ledgers keep a run. -/
abbrev RunKey := String × String

def AiEvaluationReference.key (reference : AiEvaluationReference) : RunKey :=
  (reference.scope, reference.runKey)

inductive AiEvaluationRunReservation where
  | reserved
  | completed
  | pending
  deriving DecidableEq, Repr

/-! ## In memory -/

inductive InMemoryEvaluationRunStatus where
  | pending
  | completed
  deriving DecidableEq, Repr

structure InMemoryEvaluationRunState where
  catalogId : String
  status : InMemoryEvaluationRunStatus
  deriving DecidableEq, Repr

inductive InMemoryAiEvaluationRunLedgerError where
  | capacityExhausted
  | stateUnavailable
  | identityConflict
  | missingReservation
  deriving DecidableEq, Repr

structure InMemoryAiEvaluationRunLedger where
  state : List (RunKey × InMemoryEvaluationRunState)
  capacity : Nat
  /-- A thread panicked while it held the lock. -/
  poisoned : Bool

namespace InMemoryAiEvaluationRunLedger

/-- The ledger `new` makes, for any capacity. -/
def empty (capacity : Nat) : InMemoryAiEvaluationRunLedger := ⟨[], capacity, false⟩

def reserve (ledger : InMemoryAiEvaluationRunLedger) (reference : AiEvaluationReference) :
    InMemoryAiEvaluationRunLedger ×
      Except InMemoryAiEvaluationRunLedgerError AiEvaluationRunReservation :=
  if ledger.poisoned then (ledger, .error .stateUnavailable)
  else
    match Keyed.hget ledger.state reference.key with
    | some existing =>
      if existing.catalogId ≠ reference.catalogId then (ledger, .error .identityConflict)
      else if existing.status = .pending then (ledger, .ok .pending)
      else (ledger, .ok .completed)
    | none =>
      if ledger.state.length = ledger.capacity then (ledger, .error .capacityExhausted)
      else
        ({ ledger with
          state := Keyed.hset ledger.state reference.key ⟨reference.catalogId, .pending⟩ },
          .ok .reserved)

def recordCompleted (ledger : InMemoryAiEvaluationRunLedger) (reference : AiEvaluationReference) :
    InMemoryAiEvaluationRunLedger × Except InMemoryAiEvaluationRunLedgerError Unit :=
  if ledger.poisoned then (ledger, .error .stateUnavailable)
  else
    match Keyed.hget ledger.state reference.key with
    | none => (ledger, .error .missingReservation)
    | some existing =>
      if existing.catalogId ≠ reference.catalogId then (ledger, .error .identityConflict)
      else
        ({ ledger with
          state := Keyed.hset ledger.state reference.key { existing with status := .completed } },
          .ok ())

end InMemoryAiEvaluationRunLedger

/-! ## In PostgreSQL -/

structure RunRow where
  catalogId : String
  status : String
  completedAt : Option Int
  deriving DecidableEq, Repr

/-- `rustee_ai_evaluation_run_ledger` by its primary key. -/
abbrev RunTable := RunKey → Option RunRow

/-- `INSERT ... ON CONFLICT (scope, run_key) DO NOTHING`, with the rows it affects. -/
def insertRun (reference : AiEvaluationReference) (table : RunTable) : RunTable × Nat :=
  match table reference.key with
  | none => (Function.update table reference.key (some ⟨reference.catalogId, "pending", none⟩), 1)
  | some _ => (table, 0)

/-- The update of `record_run_completed`, with the rows it affects. -/
def completeRun (reference : AiEvaluationReference) (now : Int) (table : RunTable) : RunTable × Nat :=
  match table reference.key with
  | none => (table, 0)
  | some row =>
    if row.catalogId = reference.catalogId ∧ (row.status = "pending" ∨ row.status = "completed") then
      (Function.update table reference.key
        (some ⟨row.catalogId, "completed", some (row.completedAt.getD now)⟩), 1)
    else (table, 0)

inductive PostgresAiEvaluationRunLedgerError (D : Type) where
  | invalidMetadata
  | identityConflict
  | missingReservation
  | storage (error : D)
  deriving DecidableEq, Repr

/-- The statements. -/
inductive Statement where
  | insertRun (reference : AiEvaluationReference)
  | findRun (reference : AiEvaluationReference)
  | completeRun (reference : AiEvaluationReference)

abbrev Answer (D : Type) : Statement → Type
  | .insertRun _ => Except D Nat
  | .findRun _ => Except D (Option RunRow)
  | .completeRun _ => Except D Nat

variable {D : Type}

def validateReference (reference : AiEvaluationReference) :
    Except (PostgresAiEvaluationRunLedgerError D) Unit :=
  if [reference.scope, reference.catalogId, reference.runKey].all
      (isDurableText maxEvaluationIdentifierBytes) then .ok ()
  else .error .invalidMetadata

def validateMatchingReference (row : RunRow) (reference : AiEvaluationReference) :
    Except (PostgresAiEvaluationRunLedgerError D) Unit :=
  if row.catalogId = reference.catalogId then .ok () else .error .identityConflict

def findExisting (reference : AiEvaluationReference) :
    Future Statement (Answer D) (Except (PostgresAiEvaluationRunLedgerError D) RunRow) :=
  .call (.findRun reference) fun
    | .error error => .ready (.error (.storage error))
    | .ok none => .ready (.error .missingReservation)
    | .ok (some row) => .ready ((validateMatchingReference row reference).map fun _ => row)

def statusOf (row : RunRow) : Except (PostgresAiEvaluationRunLedgerError D) AiEvaluationRunReservation :=
  match row.status with
  | "pending" => .ok .pending
  | "completed" => .ok .completed
  | _ => .error .invalidMetadata

def classifyExisting (reference : AiEvaluationReference) :
    Future Statement (Answer D)
      (Except (PostgresAiEvaluationRunLedgerError D) AiEvaluationRunReservation) :=
  (findExisting reference).bind fun
    | .error error => .ready (.error error)
    | .ok row => .ready (statusOf row)

def reserveRun (reference : AiEvaluationReference) :
    Future Statement (Answer D)
      (Except (PostgresAiEvaluationRunLedgerError D) AiEvaluationRunReservation) :=
  match validateReference reference with
  | .error error => .ready (.error error)
  | .ok () =>
    .call (.insertRun reference) fun
      | .error error => .ready (.error (.storage error))
      | .ok affected => if affected = 1 then .ready (.ok .reserved) else classifyExisting reference

def classifyCompletionConflict (reference : AiEvaluationReference) :
    Future Statement (Answer D) (Except (PostgresAiEvaluationRunLedgerError D) Unit) :=
  (findExisting reference).bind fun
    | .error error => .ready (.error error)
    | .ok _ => .ready (.error .missingReservation)

def recordRunCompleted (reference : AiEvaluationReference) :
    Future Statement (Answer D) (Except (PostgresAiEvaluationRunLedgerError D) Unit) :=
  match validateReference reference with
  | .error error => .ready (.error error)
  | .ok () =>
    .call (.completeRun reference) fun
      | .error error => .ready (.error (.storage error))
      | .ok affected =>
        if affected = 1 then .ready (.ok ()) else classifyCompletionConflict reference

/-- How a statement fares, and what the database's clock shows. -/
structure Conduct (D : Type) where
  fate : Fate
  failure : D
  now : Int

def serveStatement (table : RunTable) (statement : Statement) (conduct : Conduct D) :
    Option (RunTable × Answer D statement) :=
  match statement with
  | .insertRun reference =>
    some (conduct.fate.deliver conduct.failure table (insertRun reference table))
  | .findRun reference =>
    some (conduct.fate.deliver conduct.failure table (table, table reference.key))
  | .completeRun reference =>
    some (conduct.fate.deliver conduct.failure table (completeRun reference conduct.now table))

/-- A reference that was constructed is always good enough for the durable schema. -/
theorem validateReference_ok (reference : AiEvaluationReference) :
    validateReference (D := D) reference = .ok () := by
  have scope := isDurableText_of_isIdentifier reference.scope_valid
  have catalogId := isDurableText_of_isIdentifier reference.catalogId_valid
  have runKey := isDurableText_of_isIdentifier reference.runKey_valid
  simp [validateReference, scope, catalogId, runKey]

/-- The select after an insert that made no row. -/
theorem classifyExisting_eq (reference : AiEvaluationReference) :
    ∃ resume, classifyExisting (D := D) reference = .call (.findRun reference) resume ∧
      (∀ error, resume (.error error) = .ready (.error (.storage error))) ∧
      resume (.ok none) = .ready (.error .missingReservation) ∧
      ∀ row, resume (.ok (some row)) = .ready
        (if row.catalogId = reference.catalogId then statusOf row else .error .identityConflict) := by
  refine ⟨_, rfl, fun _ => rfl, rfl, fun row => ?_⟩
  simp only [validateMatchingReference]
  split <;> rfl

/-! ## What statements do to the table -/

/-- A row of a key against a later one: it is of the same catalog. -/
def RunRow.Keeps (row after : RunRow) : Prop := after.catalogId = row.catalogId

theorem RunRow.Keeps.refl (row : RunRow) : row.Keeps row := rfl

def RunTable.Grows : RunTable → RunTable → Prop := Keyed.Grows RunRow.Keeps

theorem RunTable.Grows.refl (table : RunTable) : RunTable.Grows table table :=
  Keyed.Grows.refl RunRow.Keeps.refl table

theorem insertRun_grows (reference : AiEvaluationReference) (table : RunTable) :
    RunTable.Grows table (insertRun reference table).1 := by
  unfold insertRun
  split
  · rename_i free
    exact Keyed.Grows.update RunRow.Keeps.refl (by simp [free])
  · exact .refl table

theorem completeRun_grows (reference : AiEvaluationReference) (now : Int) (table : RunTable) :
    RunTable.Grows table (completeRun reference now table).1 := by
  unfold completeRun
  split
  · exact .refl table
  · rename_i row stored
    split
    · exact Keyed.Grows.update RunRow.Keeps.refl (by simp [stored, RunRow.Keeps])
    · exact .refl table

end Rustee.AiEval
