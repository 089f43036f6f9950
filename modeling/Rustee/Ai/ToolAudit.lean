/-
# Rustee.Ai.ToolAudit -- audited tool calls over one audit table

`execute_with_approval_audit` and `execute_with_execution_audit` of
`rustee-ai/src/tools/registry.rs` over the `PostgresToolAuditSink` of
`rustee-ai-audit-sqlx/src/audit/store.rs`, together with the retries of `record_outcome` that an
application makes with the event of an `OutcomeAudit` error.  An approval is an insert and, when
that affected no row, a separate verifying select; an outcome is a conditional update and, when
that affected no row, a separate classifying select.

Calls run as tasks over the table, so their statements interleave one by one.  A statement can fail
before or after it took effect, and a call can stop anywhere.  `Table.Grows` is all that statements
do to the table, and each program is proved against a table that grows.
-/
import Rustee.Ai.Protocol
import Rustee.Foundation.Keyed
import Rustee.Foundation.Statement
import Rustee.Foundation.Tasks

namespace Rustee.Ai

set_option autoImplicit false

open Rustee.Foundation

/-! ## Events -/

inductive ToolRisk where
  | readOnly
  | requiresConfirmation
  | privileged
  deriving DecidableEq, Repr

/-- `ToolExecutionContext`; the last field is what `new` checks. -/
structure ToolExecutionContext where
  ai : AiExecutionContext
  idempotencyKey : String
  key_valid : isBoundedText maxIdempotencyKeyBytes idempotencyKey = true

def ToolResult.fromCall (call : ToolCall) (content : Json) : ToolResult :=
  ⟨call.id, call.name, content⟩

structure ToolApprovalAuditEvent where
  execution : ToolExecutionContext
  callId : String
  toolName : String
  risk : ToolRisk

def ToolApprovalAuditEvent.fromCall (execution : ToolExecutionContext) (call : ToolCall)
    (risk : ToolRisk) : ToolApprovalAuditEvent :=
  ⟨execution, call.id, call.name, risk⟩

inductive ToolExecutionOutcome where
  | succeeded
  | failed
  deriving DecidableEq, Repr

structure ToolExecutionAuditEvent where
  approval : ToolApprovalAuditEvent
  outcome : ToolExecutionOutcome

namespace ToolAudit

def toolRiskName : ToolRisk → String
  | .readOnly => "read_only"
  | .requiresConfirmation => "requires_confirmation"
  | .privileged => "privileged"

def toolOutcomeName : ToolExecutionOutcome → String
  | .succeeded => "succeeded"
  | .failed => "failed"

def validDurableMetadata (tenant subject idempotencyKey callId toolName : String) : Bool :=
  isBoundedText maxTenantBytes tenant && isBoundedText maxSubjectBytes subject &&
    isBoundedText maxIdempotencyKeyBytes idempotencyKey &&
    isBoundedText maxToolCallIdBytes callId && isBoundedText maxToolNameBytes toolName

/-! ## The table -/

/-- Tenant and idempotency key, the primary key of `rustee_ai_tool_audit`. -/
abbrev AuditKey := String × String

structure AuditRow where
  subject : String
  callId : String
  toolName : String
  risk : String
  terminalOutcome : Option String
  outcomeRecordedAt : Option Int
  deriving DecidableEq, Repr

abbrev Table := AuditKey → Option AuditRow

def key (event : ToolApprovalAuditEvent) : AuditKey :=
  (event.execution.ai.tenant, event.execution.idempotencyKey)

/-- The columns an approval inserts. -/
def approvedRow (event : ToolApprovalAuditEvent) : AuditRow where
  subject := event.execution.ai.subject
  callId := event.callId
  toolName := event.toolName
  risk := toolRiskName event.risk
  terminalOutcome := none
  outcomeRecordedAt := none

/-- A row of the event's key is about the event's call. -/
def AuditRow.identifies (row : AuditRow) (event : ToolApprovalAuditEvent) : Bool :=
  row.subject = event.execution.ai.subject && row.callId = event.callId &&
    row.toolName = event.toolName && row.risk = toolRiskName event.risk

/-- `INSERT ... ON CONFLICT (tenant, idempotency_key) DO NOTHING`, with the rows it affects. -/
def insertApproval (event : ToolApprovalAuditEvent) (table : Table) : Table × Nat :=
  match table (key event) with
  | none => (Function.update table (key event) (some (approvedRow event)), 1)
  | some _ => (table, 0)

/-- The rows the update of `record_terminal_outcome` selects within its key. -/
def AuditRow.accepts (row : AuditRow) (event : ToolExecutionAuditEvent) : Bool :=
  row.identifies event.approval &&
    (row.terminalOutcome = none || row.terminalOutcome = some (toolOutcomeName event.outcome))

/-- The two `COALESCE` assignments of that update. -/
def AuditRow.settle (row : AuditRow) (event : ToolExecutionAuditEvent) (now : Int) : AuditRow :=
  { row with
    terminalOutcome := some (row.terminalOutcome.getD (toolOutcomeName event.outcome))
    outcomeRecordedAt := some (row.outcomeRecordedAt.getD now) }

def updateOutcome (event : ToolExecutionAuditEvent) (now : Int) (table : Table) : Table × Nat :=
  match table (key event.approval) with
  | none => (table, 0)
  | some row =>
    if row.accepts event then
      (Function.update table (key event.approval) (some (row.settle event now)), 1)
    else (table, 0)

/-! ## The programs -/

inductive ToolApprovalDecision where
  | approved
  | denied
  deriving DecidableEq, Repr

inductive ToolExecutionError where
  | invalidArguments
  | handlerFailed
  | invalidResult
  deriving DecidableEq, Repr

/-- What a call waits for: the application's policy, one statement, or the tool. -/
inductive Op where
  | approve (context : AiExecutionContext) (call : ToolCall) (risk : ToolRisk)
  | insertApproval (event : ToolApprovalAuditEvent)
  | selectRow (key : AuditKey)
  | execute (context : ToolExecutionContext) (call : ToolCall)
  | updateOutcome (event : ToolExecutionAuditEvent)

/-- The answers; `P` are the errors of the policy and `D` those of the database. -/
abbrev Res (P D : Type) : Op → Type
  | .approve _ _ _ => Except P ToolApprovalDecision
  | .insertApproval _ => Except D Nat
  | .selectRow _ => Except D (Option AuditRow)
  | .execute _ _ => Except ToolExecutionError Json
  | .updateOutcome _ => Except D Nat

inductive PostgresToolAuditError (D : Type) where
  | invalidMetadata
  | identityConflict
  | outcomeConflict
  | missingApproval
  | storage (error : D)

inductive ToolRunError (P : Type) where
  | unknownTool
  | approval (error : P)
  | denied (risk : ToolRisk)
  | execution (error : ToolExecutionError)

inductive AuditedToolRunError (P D : Type) where
  | run (error : ToolRunError P)
  | audit (error : PostgresToolAuditError D)

inductive ExecutionAuditedToolRunError (P D : Type) where
  | run (error : ToolRunError P)
  | approvalAudit (error : PostgresToolAuditError D)
  | outcomeAudit (event : ToolExecutionAuditEvent) (source : PostgresToolAuditError D)

variable {P D : Type}

def validateApprovalEvent (event : ToolApprovalAuditEvent) : Except (PostgresToolAuditError D) Unit :=
  if validDurableMetadata event.execution.ai.tenant event.execution.ai.subject
      event.execution.idempotencyKey event.callId event.toolName then .ok ()
  else .error .invalidMetadata

def verifySameApproval (event : ToolApprovalAuditEvent) :
    Future Op (Res P D) (Except (PostgresToolAuditError D) Unit) :=
  .call (.selectRow (key event)) fun
    | .error error => .ready (.error (.storage error))
    | .ok none => .ready (.error .missingApproval)
    | .ok (some row) =>
      .ready (if row.identifies event then .ok () else .error .identityConflict)

def recordApproval (event : ToolApprovalAuditEvent) :
    Future Op (Res P D) (Except (PostgresToolAuditError D) Unit) :=
  match validateApprovalEvent event with
  | .error error => .ready (.error error)
  | .ok () =>
    .call (.insertApproval event) fun
      | .error error => .ready (.error (.storage error))
      | .ok affected => if affected = 1 then .ready (.ok ()) else verifySameApproval event

def classifyTerminalConflict (event : ToolExecutionAuditEvent) :
    Future Op (Res P D) (Except (PostgresToolAuditError D) Unit) :=
  .call (.selectRow (key event.approval)) fun
    | .error error => .ready (.error (.storage error))
    | .ok none => .ready (.error .missingApproval)
    | .ok (some row) =>
      .ready
        (if row.identifies event.approval = false then .error .identityConflict
        else if row.terminalOutcome = some (toolOutcomeName event.outcome) then .ok ()
        else .error .outcomeConflict)

def recordTerminalOutcome (event : ToolExecutionAuditEvent) :
    Future Op (Res P D) (Except (PostgresToolAuditError D) Unit) :=
  match validateApprovalEvent event.approval with
  | .error error => .ready (.error error)
  | .ok () =>
    .call (.updateOutcome event) fun
      | .error error => .ready (.error (.storage error))
      | .ok affected => if affected = 1 then .ready (.ok ()) else classifyTerminalConflict event

/-- The registered tools with their risks. -/
structure ToolRegistry where
  tools : List (String × ToolRisk)

def ToolRegistry.risk (registry : ToolRegistry) (name : String) : Option ToolRisk :=
  Keyed.hget registry.tools name

def authorize (registry : ToolRegistry) (context : ToolExecutionContext) (call : ToolCall) :
    Future Op (Res P D) (Except (ToolRunError P) ToolRisk) :=
  match registry.risk call.name with
  | none => .ready (.error .unknownTool)
  | some risk =>
    .call (.approve context.ai call risk) fun
      | .error error => .ready (.error (.approval error))
      | .ok .approved => .ready (.ok risk)
      | .ok .denied => .ready (.error (.denied risk))

def executeWithApprovalAudit (registry : ToolRegistry) (context : ToolExecutionContext)
    (call : ToolCall) : Future Op (Res P D) (Except (AuditedToolRunError P D) ToolResult) :=
  (authorize registry context call).bind fun
    | .error error => .ready (.error (.run error))
    | .ok risk =>
      (recordApproval (.fromCall context call risk)).bind fun
        | .error error => .ready (.error (.audit error))
        | .ok () =>
          .call (.execute context call) fun
            | .error error => .ready (.error (.run (.execution error)))
            | .ok value => .ready (.ok (.fromCall call value))

def outcomeOf : Except ToolExecutionError Json → ToolExecutionOutcome
  | .ok _ => .succeeded
  | .error _ => .failed

/-- What is left once the handler has come back. -/
def recordExecution (call : ToolCall) (approval : ToolApprovalAuditEvent)
    (result : Except ToolExecutionError Json) :
    Future Op (Res P D) (Except (ExecutionAuditedToolRunError P D) ToolResult) :=
  (recordTerminalOutcome ⟨approval, outcomeOf result⟩).bind fun
    | .error source => .ready (.error (.outcomeAudit ⟨approval, outcomeOf result⟩ source))
    | .ok () =>
      match result with
      | .error error => .ready (.error (.run (.execution error)))
      | .ok value => .ready (.ok (.fromCall call value))

def executeWithExecutionAudit (registry : ToolRegistry) (context : ToolExecutionContext)
    (call : ToolCall) : Future Op (Res P D) (Except (ExecutionAuditedToolRunError P D) ToolResult) :=
  (authorize registry context call).bind fun
    | .error error => .ready (.error (.run error))
    | .ok risk =>
      (recordApproval (.fromCall context call risk)).bind fun
        | .error error => .ready (.error (.approvalAudit error))
        | .ok () =>
          .call (.execute context call) (recordExecution call (.fromCall context call risk))

/-! ## Calls over one table -/

inductive Entry where
  | executeWithApprovalAudit (context : ToolExecutionContext) (call : ToolCall)
  | executeWithExecutionAudit (context : ToolExecutionContext) (call : ToolCall)
  /-- The application hands the event of an `OutcomeAudit` error to the sink again. -/
  | recordOutcome (event : ToolExecutionAuditEvent)

inductive Result (P D : Type) where
  | approvalAudited (result : Except (AuditedToolRunError P D) ToolResult)
  | executionAudited (result : Except (ExecutionAuditedToolRunError P D) ToolResult)
  | outcomeRecorded (result : Except (PostgresToolAuditError D) Unit)

def program (registry : ToolRegistry) : Entry → Future Op (Res P D) (Result P D)
  | .executeWithApprovalAudit context call =>
    (executeWithApprovalAudit registry context call).bind fun result =>
      .ready (.approvalAudited result)
  | .executeWithExecutionAudit context call =>
    (executeWithExecutionAudit registry context call).bind fun result =>
      .ready (.executionAudited result)
  | .recordOutcome event =>
    (recordTerminalOutcome event).bind fun result => .ready (.outcomeRecorded result)

/-- What its environment decides about a step: how a statement fares and what the database's clock
shows, or the answer of the policy or the tool. -/
inductive Choice (P D : Type) where
  | statement (fate : Fate) (failure : D) (now : Int)
  | approve (answer : Except P ToolApprovalDecision)
  | execute (answer : Except ToolExecutionError Json)

def serve (table : Table) (op : Op) (choice : Choice P D) : Option (Table × Res P D op) :=
  match op, choice with
  | .approve _ _ _, .approve answer => some (table, answer)
  | .execute _ _, .execute answer => some (table, answer)
  | .insertApproval event, .statement fate failure _ =>
    some (fate.deliver failure table (insertApproval event table))
  | .selectRow key, .statement fate failure _ =>
    some (fate.deliver failure table (table, table key))
  | .updateOutcome event, .statement fate failure now =>
    some (fate.deliver failure table (updateOutcome event now table))
  | _, _ => none

def service (P D : Type) (registry : ToolRegistry) :
    Pool.Service Table Entry Op (Res P D) (Choice P D) (Result P D) where
  initial _ := True
  program := program registry
  serve := serve

/-- The call an entry is about, with the risk its tool is registered with. -/
def Entry.event (registry : ToolRegistry) : Entry → Option ToolApprovalAuditEvent
  | .executeWithApprovalAudit context call => (registry.risk call.name).map (.fromCall context call)
  | .executeWithExecutionAudit context call => (registry.risk call.name).map (.fromCall context call)
  | .recordOutcome event => some event.approval

/-! ## What statements do to the table -/

/-- A row of a key against a later one: it is about the same call, and what is recorded of its
outcome stays. -/
structure AuditRow.Keeps (row after : AuditRow) : Prop where
  subject : after.subject = row.subject
  callId : after.callId = row.callId
  toolName : after.toolName = row.toolName
  risk : after.risk = row.risk
  outcome : ∀ outcome, row.terminalOutcome = some outcome → after.terminalOutcome = some outcome
  recordedAt : ∀ time, row.outcomeRecordedAt = some time → after.outcomeRecordedAt = some time

def Table.Grows : Table → Table → Prop := Keyed.Grows AuditRow.Keeps

theorem AuditRow.Keeps.refl (row : AuditRow) : row.Keeps row :=
  ⟨rfl, rfl, rfl, rfl, fun _ same => same, fun _ same => same⟩

theorem AuditRow.Keeps.trans {row middle after : AuditRow} (first : row.Keeps middle)
    (second : middle.Keeps after) : row.Keeps after where
  subject := second.subject.trans first.subject
  callId := second.callId.trans first.callId
  toolName := second.toolName.trans first.toolName
  risk := second.risk.trans first.risk
  outcome outcome same := second.outcome outcome (first.outcome outcome same)
  recordedAt time same := second.recordedAt time (first.recordedAt time same)

theorem AuditRow.Keeps.identifies {row after : AuditRow} (keeps : row.Keeps after)
    (event : ToolApprovalAuditEvent) : after.identifies event = row.identifies event := by
  simp only [AuditRow.identifies, keeps.subject, keeps.callId, keeps.toolName, keeps.risk]

theorem AuditRow.keeps_settle (row : AuditRow) (event : ToolExecutionAuditEvent) (now : Int) :
    row.Keeps (row.settle event now) where
  subject := rfl
  callId := rfl
  toolName := rfl
  risk := rfl
  outcome outcome same := by simp [settle, same]
  recordedAt time same := by simp [settle, same]

theorem identifies_approvedRow (event : ToolApprovalAuditEvent) :
    (approvedRow event).identifies event = true := by
  simp [AuditRow.identifies, approvedRow]

theorem Table.Grows.refl (table : Table) : Table.Grows table table :=
  Keyed.Grows.refl AuditRow.Keeps.refl table

theorem Table.Grows.trans (first second third : Table) (grown : Table.Grows first second)
    (later : Table.Grows second third) : Table.Grows first third :=
  Keyed.Grows.trans (fun _ _ _ keeps later => keeps.trans later) grown later

theorem insertApproval_grows (event : ToolApprovalAuditEvent) (table : Table) :
    Table.Grows table (insertApproval event table).1 := by
  unfold insertApproval
  split
  · rename_i free
    exact Keyed.Grows.update AuditRow.Keeps.refl (by simp [free])
  · exact .refl table

theorem updateOutcome_grows (event : ToolExecutionAuditEvent) (now : Int) (table : Table) :
    Table.Grows table (updateOutcome event now table).1 := by
  unfold updateOutcome
  split
  · exact .refl table
  · rename_i row stored
    split
    · refine Keyed.Grows.update AuditRow.Keeps.refl fun found isFound => ?_
      rw [stored] at isFound
      cases isFound
      exact row.keeps_settle event now
    · exact .refl table

section Serve

variable {table after : Table} {choice : Choice P D}

theorem serve_insertApproval {event : ToolApprovalAuditEvent} {response : Except D Nat}
    (served : serve (P := P) table (.insertApproval event) choice = some (after, response)) :
    (after = table ∨ after = (insertApproval event table).1) ∧
      ∀ affected, response = .ok affected →
        after = (insertApproval event table).1 ∧ affected = (insertApproval event table).2 := by
  cases choice <;> simp only [serve, Option.some.injEq, reduceCtorEq] at served
  exact Fate.deliver_eq served

theorem serve_selectRow {key : AuditKey} {response : Except D (Option AuditRow)}
    (served : serve (P := P) table (.selectRow key) choice = some (after, response)) :
    after = table ∧ ∀ found, response = .ok found → found = table key := by
  cases choice <;> simp only [serve, Option.some.injEq, reduceCtorEq] at served
  obtain ⟨unchanged, heard⟩ := Fate.deliver_eq served
  exact ⟨unchanged.elim id id, fun found same => (heard found same).2⟩

theorem serve_updateOutcome {event : ToolExecutionAuditEvent} {response : Except D Nat}
    (served : serve (P := P) table (.updateOutcome event) choice = some (after, response)) :
    after = table ∨ ∃ now, after = (updateOutcome event now table).1 := by
  cases choice <;> simp only [serve, Option.some.injEq, reduceCtorEq] at served
  exact (Fate.deliver_eq served).1.imp id fun changed => ⟨_, changed⟩

theorem serve_approve {context : AiExecutionContext} {call : ToolCall} {risk : ToolRisk}
    {response : Except P ToolApprovalDecision}
    (served : serve (D := D) table (.approve context call risk) choice = some (after, response)) :
    after = table := by
  cases choice <;> simp only [serve, Option.some.injEq, reduceCtorEq] at served
  cases served
  rfl

theorem serve_execute {context : ToolExecutionContext} {call : ToolCall}
    {response : Except ToolExecutionError Json}
    (served : serve table (.execute context call) choice = some (after, response)) :
    after = table := by
  cases choice <;> simp only [serve, Option.some.injEq, reduceCtorEq] at served
  cases served
  rfl

/-- One step of one call, statement or not, lets the table grow. -/
theorem serve_grows {op : Op} {response : Res P D op}
    (served : serve table op choice = some (after, response)) : Table.Grows table after := by
  cases op with
  | approve => exact serve_approve served ▸ .refl table
  | execute => exact serve_execute served ▸ .refl table
  | selectRow => exact (serve_selectRow served).1 ▸ .refl table
  | insertApproval event =>
    rcases (serve_insertApproval served).1 with rfl | rfl
    · exact .refl _
    · exact insertApproval_grows event table
  | updateOutcome event =>
    rcases serve_updateOutcome served with rfl | ⟨now, rfl⟩
    · exact .refl _
    · exact updateOutcome_grows event now table

end Serve

/-! ## What the programs promise -/

/-- The table has a row about the event's call. -/
def Approved (event : ToolApprovalAuditEvent) (table : Table) : Prop :=
  ∃ row, table (key event) = some row ∧ row.identifies event = true

theorem Approved.later {event : ToolApprovalAuditEvent} {table after : Table}
    (approved : Approved event table) (grown : Table.Grows table after) : Approved event after := by
  obtain ⟨row, stored, identifies⟩ := approved
  obtain ⟨kept, isKept, keeps⟩ := grown _ _ stored
  exact ⟨kept, isKept, by rw [keeps.identifies, identifies]⟩

theorem approved_of_affected {event : ToolApprovalAuditEvent} {table : Table}
    (affected : (insertApproval event table).2 = 1) : Approved event (insertApproval event table).1 := by
  unfold insertApproval at affected ⊢
  split
  · exact ⟨approvedRow event, Function.update_self .., identifies_approvedRow event⟩
  · rename_i stored
    rw [stored] at affected
    cases affected

/-- What a call knows when it asks for an operation: statements are about its own event, and the
tool is asked for under a stored approval. -/
def Asks (registry : ToolRegistry) (entry : Entry) (table : Table) : Op → Prop
  | .approve _ _ _ | .selectRow _ => True
  | .insertApproval event => entry.event registry = some event
  | .updateOutcome event => entry.event registry = some event.approval
  | .execute context call =>
    ∃ risk, registry.risk call.name = some risk ∧ Approved (.fromCall context call risk) table

/-- A program keeps to `Asks` on a table that grows, and returns with `post`. -/
abbrev Promises {α : Type} (registry : ToolRegistry) (entry : Entry) (post : α → Table → Prop)
    (f : Future Op (Res P D) α) (table : Table) : Prop :=
  Obeys Table.Grows serve (fun op table => Asks registry entry table op) post f table

variable {registry : ToolRegistry} {entry : Entry} {table : Table}

theorem promises_ready {α : Type} {post : α → Table → Prop} {value : α}
    (holds : ∀ later, Table.Grows table later → post value later) :
    Promises (P := P) (D := D) registry entry post (.ready value) table :=
  holds

theorem promises_verifySameApproval (event : ToolApprovalAuditEvent) :
    Promises (P := P) (D := D) registry entry
      (fun result table => result = .ok () → Approved event table) (verifySameApproval event)
      table := by
  intro later grown
  refine ⟨trivial, fun choice after response served => ?_⟩
  obtain ⟨rfl, found⟩ := serve_selectRow served
  rcases response with failure | stored | row
  · exact promises_ready (by simp)
  · exact promises_ready (by simp)
  · have stored := (found _ rfl).symm
    by_cases same : row.identifies event = true
    · have approved : Approved event after := ⟨row, stored, same⟩
      exact promises_ready fun last grown _ => approved.later grown
    · exact promises_ready (by simp [same])

theorem promises_recordApproval {event : ToolApprovalAuditEvent}
    (mine : entry.event registry = some event) :
    Promises (P := P) (D := D) registry entry
      (fun result table => result = .ok () → Approved event table) (recordApproval event) table := by
  unfold recordApproval
  split
  · exact promises_ready (by simp)
  · intro later grown
    refine ⟨mine, fun choice after response served => ?_⟩
    obtain ⟨-, heard⟩ := serve_insertApproval served
    rcases response with failure | affected
    · exact promises_ready (by simp)
    · obtain ⟨rfl, rfl⟩ := heard affected rfl
      by_cases inserted : (insertApproval event later).2 = 1
      · have approved := approved_of_affected inserted
        simp only [inserted, if_true]
        exact promises_ready fun last grown _ => approved.later grown
      · simp only [inserted, if_false]
        exact promises_verifySameApproval event

theorem promises_recordTerminalOutcome {event : ToolExecutionAuditEvent}
    (mine : entry.event registry = some event.approval) :
    Promises (P := P) (D := D) registry entry (fun _ _ => True) (recordTerminalOutcome event)
      table := by
  unfold recordTerminalOutcome
  split
  · exact promises_ready (by simp)
  · refine fun later _ => ⟨mine, fun choice after response served => ?_⟩
    rcases response with failure | affected
    · exact promises_ready (by simp)
    · simp only
      split
      · exact promises_ready (by simp)
      · refine fun later _ => ⟨trivial, fun choice after response served => ?_⟩
        rcases response with failure | stored | row <;> exact promises_ready (by simp)

theorem promises_authorize (context : ToolExecutionContext) (call : ToolCall) :
    Promises (P := P) (D := D) registry entry
      (fun result _ => ∀ risk, result = .ok risk → registry.risk call.name = some risk)
      (authorize registry context call) table := by
  unfold authorize
  split
  · exact promises_ready (by simp)
  · rename_i risk registered
    refine fun later _ => ⟨trivial, fun choice after response served => ?_⟩
    rcases response with error | decision
    · exact promises_ready (by simp)
    · cases decision <;> exact promises_ready (by simp [registered])

/-- The tool is asked for under the approval just recorded. -/
theorem promises_execute {α : Type} {context : ToolExecutionContext} {call : ToolCall}
    {risk : ToolRisk} (registered : registry.risk call.name = some risk)
    (approved : Approved (.fromCall context call risk) table)
    {resume : Except ToolExecutionError Json → Future Op (Res P D) α}
    (resumed : ∀ result table, Promises registry entry (fun _ _ => True) (resume result) table) :
    Promises registry entry (fun _ _ => True) (.call (.execute context call) resume) table :=
  fun _ grown => ⟨⟨risk, registered, approved.later grown⟩, fun _ _ response _ => resumed response _⟩

theorem promises_executeWithApprovalAudit (context : ToolExecutionContext) (call : ToolCall)
    (isEntry : entry = .executeWithApprovalAudit context call) :
    Promises (P := P) (D := D) registry entry (fun _ _ => True)
      (executeWithApprovalAudit registry context call) table := by
  refine (promises_authorize context call).bind Table.Grows.refl ?_
  rintro (error | risk) table authorized
  · exact promises_ready (by simp)
  · have registered := authorized risk rfl
    have mine : entry.event registry = some (.fromCall context call risk) := by
      simp [isEntry, Entry.event, registered]
    refine (promises_recordApproval mine).bind Table.Grows.refl ?_
    rintro (error | ⟨⟩) table recorded
    · exact promises_ready (by simp)
    · refine promises_execute registered (recorded rfl) ?_
      rintro (error | value) table <;> exact promises_ready (by simp)

theorem promises_executeWithExecutionAudit (context : ToolExecutionContext) (call : ToolCall)
    (isEntry : entry = .executeWithExecutionAudit context call) :
    Promises (P := P) (D := D) registry entry (fun _ _ => True)
      (executeWithExecutionAudit registry context call) table := by
  refine (promises_authorize context call).bind Table.Grows.refl ?_
  rintro (error | risk) table authorized
  · exact promises_ready (by simp)
  · have registered := authorized risk rfl
    have mine : entry.event registry = some (.fromCall context call risk) := by
      simp [isEntry, Entry.event, registered]
    refine (promises_recordApproval mine).bind Table.Grows.refl ?_
    rintro (error | ⟨⟩) table recorded
    · exact promises_ready (by simp)
    · refine promises_execute registered (recorded rfl) fun result table => ?_
      have outcome : Promises (P := P) (D := D) registry entry (fun _ _ => True)
          (recordTerminalOutcome ⟨.fromCall context call risk, outcomeOf result⟩) table :=
        promises_recordTerminalOutcome mine
      refine outcome.bind Table.Grows.refl ?_
      rintro (source | ⟨⟩) table -
      · exact promises_ready (by simp)
      · rcases result with error | value <;> exact promises_ready (by simp)

theorem promises_program (registry : ToolRegistry) (entry : Entry) (table : Table) :
    Promises (P := P) (D := D) registry entry (fun _ _ => True) (program registry entry) table := by
  have done {α : Type} {wrap : α → Result P D} (value : α) (table : Table) (_ : True) :
      Promises (P := P) (D := D) registry entry (fun _ _ => True) (.ready (wrap value)) table :=
    promises_ready (by simp)
  cases entry with
  | executeWithApprovalAudit context call =>
    exact (promises_executeWithApprovalAudit context call rfl).bind Table.Grows.refl done
  | executeWithExecutionAudit context call =>
    exact (promises_executeWithExecutionAudit context call rfl).bind Table.Grows.refl done
  | recordOutcome event => exact (promises_recordTerminalOutcome rfl).bind Table.Grows.refl done

/-! ## The audit trail -/

section Trail

variable {Caller : Type} [DecidableEq Caller]

/-- Any number of callers of one audit table. -/
def machine (Caller P D : Type) [DecidableEq Caller] (registry : ToolRegistry) :
    Machine (Pool Caller Table Entry Op (Res P D) (Result P D))
      (Pool.Input Caller Entry (Choice P D)) (Turn Op (Result P D)) :=
  Pool.machine (service P D registry)

/-- What is stored contradicts the call of a task: the row of its key is about another call, or the
outcome it is about to record is not the one recorded. -/
def Conflicts (registry : ToolRegistry) (table : Table)
    (task : Task Entry Op (Res P D) (Result P D)) : Prop :=
  (∃ event row, task.entry.event registry = some event ∧ table (key event) = some row ∧
    row.identifies event = false) ∨
  ∃ event resume row outcome, task.rest = .call (.updateOutcome event) resume ∧
    table (key event.approval) = some row ∧ row.terminalOutcome = some outcome ∧
    outcome ≠ toolOutcomeName event.outcome

theorem insertApproval_of_stored {event : ToolApprovalAuditEvent} {table : Table} {row : AuditRow}
    (stored : table (key event) = some row) : (insertApproval event table).1 = table := by
  simp [insertApproval, stored]

theorem updateOutcome_of_refused {event : ToolExecutionAuditEvent} {now : Int} {table : Table}
    {row : AuditRow} (stored : table (key event.approval) = some row)
    (refused : row.accepts event = false) : (updateOutcome event now table).1 = table := by
  simp [updateOutcome, stored, refused]

/-- A call in conflict with what is stored leaves the table alone. -/
theorem serve_of_conflict {table after : Table} {entry : Entry} {op : Op} {choice : Choice P D}
    {resume : Res P D op → Future Op (Res P D) (Result P D)} {response : Res P D op}
    (asks : Asks registry entry table op)
    (conflicts : Conflicts registry table ⟨entry, .call op resume⟩)
    (served : serve table op choice = some (after, response)) : after = table := by
  cases op with
  | approve => exact serve_approve served
  | execute => exact serve_execute served
  | selectRow => exact (serve_selectRow served).1
  | insertApproval event =>
    rcases (serve_insertApproval served).1 with unchanged | changed
    · exact unchanged
    · rcases conflicts with ⟨other, row, isEvent, stored, -⟩ | ⟨other, resume', row, outcome, waits, -⟩
      · have same : other = event := Option.some.inj (isEvent.symm.trans asks)
        subst same
        exact changed.trans (insertApproval_of_stored stored)
      · cases waits
  | updateOutcome event =>
    rcases serve_updateOutcome served with unchanged | ⟨now, changed⟩
    · exact unchanged
    · refine changed.trans ?_
      rcases conflicts with ⟨other, row, isEvent, stored, differs⟩ |
        ⟨other, resume', row, outcome, waits, stored, recorded, differs⟩
      · have same : other = event.approval := Option.some.inj (isEvent.symm.trans asks)
        subst same
        exact updateOutcome_of_refused stored (by simp [AuditRow.accepts, differs])
      · cases waits
        exact updateOutcome_of_refused stored (by simp [AuditRow.accepts, recorded, differs])

/-- **The audit trail.**  In every state that any calls reach, however their statements interleave
or fail: a tool is asked for only under a stored approval of the very call; from here on rows stay
with their calls and recorded outcomes stay as they are; and a call in conflict with what is stored
changes nothing. -/
theorem tool_audit_trail (registry : ToolRegistry)
    {p : Pool Caller Table Entry Op (Res P D) (Result P D)}
    {trace : List (Pool.Input Caller Entry (Choice P D) × Turn Op (Result P D))}
    (reached : (machine Caller P D registry).Reaches p trace) :
    (∀ caller entry context call resume,
      p.task caller = some ⟨entry, .call (.execute context call) resume⟩ →
      ∃ risk, registry.risk call.name = some risk ∧
        Approved (.fromCall context call risk) p.store) ∧
    (∀ later, (machine Caller P D registry).Leads p later → Table.Grows p.store later.store) ∧
    ∀ caller task choice after turn, p.task caller = some task →
      Conflicts registry p.store task →
      (machine Caller P D registry).step p (.serve caller choice) = some (after, turn) →
      after.store = p.store := by
  have obeys {caller : Caller} {task : Task Entry Op (Res P D) (Result P D)}
      (runs : p.task caller = some task) :=
    Pool.obeys (service P D registry) Table.Grows.refl Table.Grows.trans
      (promises_program registry) (fun _ _ _ _ _ => serve_grows) reached runs
  refine ⟨?_, ?_, ?_⟩
  · intro caller entry context call resume waits
    exact (obeys waits).waits Table.Grows.refl
  · intro later leads
    exact Pool.grown_of_leads _ Table.Grows.refl Table.Grows.trans (fun _ _ _ _ _ => serve_grows) leads
  · intro caller task choice after turn runs conflicts stepped
    obtain ⟨store, next, move, rfl, -⟩ := Pool.move_of_step _ stepped
    rw [Pool.Input.caller, runs] at move
    cases move with
    | serve served => exact serve_of_conflict ((obeys runs).waits Table.Grows.refl) conflicts served

/-- A refund asked for by `carol`, and a second call that reuses its key. -/
def refunds : Bool → Entry
  | false => .executeWithExecutionAudit ⟨⟨"shop", "carol", by decide, by decide⟩, "refund-7", by decide⟩
      ⟨"call-1", "refund", .null, by decide, by decide⟩
  | true => .executeWithApprovalAudit ⟨⟨"shop", "carol", by decide, by decide⟩, "refund-7", by decide⟩
      ⟨"call-2", "refund", .null, by decide, by decide⟩

/-- The first call's approval is stored and it waits for its tool; the second is about to insert
under the same key. -/
theorem tool_audit_trail_reusedKey :
    ∃ p trace, (machine Bool Unit Unit ⟨[("refund", .privileged)]⟩).Reaches p trace ∧
      (match p.task false with
        | some ⟨_, .call (.execute _ _) _⟩ => true
        | _ => false) = true ∧
      p.store ("shop", "refund-7") = some ⟨"carol", "call-1", "refund", "privileged", none, none⟩ ∧
      ∀ choice after turn, (machine Bool Unit Unit ⟨[("refund", .privileged)]⟩).step p
        (.serve true choice) = some (after, turn) → after.store = p.store := by
  have start : (machine Bool Unit Unit ⟨[("refund", .privileged)]⟩).initial
      ⟨fun _ => none, fun _ => none⟩ :=
    ⟨trivial, fun _ => rfl⟩
  obtain ⟨p, trace, reached, asks, stored, reuses⟩ := Machine.exists_run_exec
    (machine Bool Unit Unit ⟨[("refund", .privileged)]⟩) (fun _ _ _ => True) start
    [.start false (refunds false), .start true (refunds true),
      .serve false (.approve (.ok .approved)), .serve true (.approve (.ok .approved)),
      .serve false (.statement .answered () 0)]
    (fun p _ => (match p.task false with
        | some ⟨_, .call (.execute _ _) _⟩ => true
        | _ => false) = true ∧
      p.store ("shop", "refund-7") = some ⟨"carol", "call-1", "refund", "privileged", none, none⟩ ∧
      (p.task true).any (fun task => (task.entry.event ⟨[("refund", .privileged)]⟩).any fun event =>
        key event = ("shop", "refund-7") ∧ event.callId = "call-2") = true) (by decide +kernel)
  refine ⟨p, trace, reached, asks, stored, fun choice after turn stepped => ?_⟩
  obtain ⟨task, runs, reuses⟩ := (Option.any_eq_true _ _).1 reuses
  obtain ⟨event, isEvent, reuses⟩ := (Option.any_eq_true _ _).1 reuses
  obtain ⟨sameKey, callId⟩ := of_decide_eq_true reuses
  have conflicts : Conflicts ⟨[("refund", .privileged)]⟩ p.store task :=
    .inl ⟨event, _, isEvent, by rw [sameKey, stored], by simp [AuditRow.identifies, callId]⟩
  exact (tool_audit_trail _ reached).2.2 true task choice after turn runs conflicts stepped

end Trail

end ToolAudit

end Rustee.Ai
