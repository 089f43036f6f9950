/-
# Rustee.AiEval.Linearizable -- the durable ledger of runs against the one in memory

Calls of `reserve` and `record_completed` on one `PostgresAiEvaluationRunLedger` overlap, statement
by statement.  When no statement fails, they return what an `InMemoryAiEvaluationRunLedger` with room
for their keys returns to the same calls made one after the other, in an order that respects real
time.

A call takes effect at the statement that decides it, with one exception.  A completion whose update
finds no row is listed there as a missing reservation; its select may still find a row that another
call has put in between.  When that row is of the same catalog, the answer stands as it was listed;
when it is of another, the entry is withdrawn and the call takes effect with the select.
-/
import Rustee.AiEval.Ledger
import Rustee.Foundation.Linearization
import Mathlib.Data.List.Dedup
import Mathlib.Data.List.Perm.Subperm

namespace Rustee.AiEval.Linearizable

set_option autoImplicit false

open Rustee.Foundation

variable {D : Type}

/-! ## Calls -/

inductive Call where
  | reserve (reference : AiEvaluationReference)
  | recordCompleted (reference : AiEvaluationReference)

/-- What a call returns, with the errors of its ledger. -/
inductive Returned (E : Type) where
  | reserve (result : Except E AiEvaluationRunReservation)
  | recordCompleted (result : Except E Unit)

def program : Call → Future Statement (Answer D) (Returned (PostgresAiEvaluationRunLedgerError D))
  | .reserve reference => (reserveRun reference).bind fun result => .ready (.reserve result)
  | .recordCompleted reference =>
    (recordRunCompleted reference).bind fun result => .ready (.recordCompleted result)

def service (D : Type) : Pool.Service RunTable Call Statement (Answer D) (Conduct D)
    (Returned (PostgresAiEvaluationRunLedgerError D)) where
  initial table := ∀ key, table key = none
  program := program
  serve := serveStatement

/-- The same calls on the ledger in memory. -/
def inMemory (ledger : InMemoryAiEvaluationRunLedger) :
    Call → InMemoryAiEvaluationRunLedger × Returned InMemoryAiEvaluationRunLedgerError
  | .reserve reference => ((ledger.reserve reference).1, .reserve (ledger.reserve reference).2)
  | .recordCompleted reference =>
    ((ledger.recordCompleted reference).1, .recordCompleted (ledger.recordCompleted reference).2)

/-- The errors the two ledgers have in common. -/
def commonError : PostgresAiEvaluationRunLedgerError D → Option InMemoryAiEvaluationRunLedgerError
  | .identityConflict => some .identityConflict
  | .missingReservation => some .missingReservation
  | .invalidMetadata | .storage _ => none

def common {α : Type} : Except (PostgresAiEvaluationRunLedgerError D) α →
    Option (Except InMemoryAiEvaluationRunLedgerError α)
  | .ok value => some (.ok value)
  | .error error => (commonError error).map .error

/-- What a durable answer is in terms of the ledger in memory. -/
def view : Returned (PostgresAiEvaluationRunLedgerError D) →
    Option (Returned InMemoryAiEvaluationRunLedgerError)
  | .reserve result => (common result).map .reserve
  | .recordCompleted result => (common result).map .recordCompleted

/-- No statement fails. -/
def Answered {Caller State : Type} (_ : State)
    (_ : Linearization.Trace Caller Call (Conduct D) Statement
      (Returned (PostgresAiEvaluationRunLedgerError D)))
    (input : Pool.Input Caller Call (Conduct D)) : Prop :=
  match input with
  | .start _ _ => True
  | .serve _ conduct => conduct.fate = .answered

instance {Caller State : Type} (s : State)
    (trace : Linearization.Trace Caller Call (Conduct D) Statement
      (Returned (PostgresAiEvaluationRunLedgerError D)))
    (input : Pool.Input Caller Call (Conduct D)) : Decidable (Answered s trace input) :=
  match input with
  | .start _ _ => isTrue trivial
  | .serve _ conduct => inferInstanceAs (Decidable (conduct.fate = .answered))

/-- The keys reservations were asked for. -/
def reservedKeys {Caller : Type}
    (trace : Linearization.Trace Caller Call (Conduct D) Statement
      (Returned (PostgresAiEvaluationRunLedgerError D))) : List RunKey :=
  trace.filterMap fun step =>
    match step.1 with
    | .start _ (.reserve reference) => some reference.key
    | _ => none

/-! ## The programs, statement by statement -/

abbrev Rest (D : Type) :=
  Future Statement (Answer D) (Returned (PostgresAiEvaluationRunLedgerError D))

/-- What is left of a reservation whose insert affected no row. -/
def classifying (reference : AiEvaluationReference) : Rest D :=
  (classifyExisting reference).bind fun result => .ready (.reserve result)

/-- What is left of a completion whose update affected no row. -/
def conflicted (reference : AiEvaluationReference) : Rest D :=
  (classifyCompletionConflict reference).bind fun result => .ready (.recordCompleted result)

theorem program_reserve (reference : AiEvaluationReference) :
    ∃ resume, program (D := D) (.reserve reference) = .call (.insertRun reference) resume ∧
      resume (.ok 1) = .ready (.reserve (.ok .reserved)) ∧
      resume (.ok 0) = classifying reference := by
  simp only [program, reserveRun, validateReference_ok, Future.call_bind]
  exact ⟨_, rfl, rfl, rfl⟩

theorem classifying_eq (reference : AiEvaluationReference) :
    ∃ resume, classifying (D := D) reference = .call (.findRun reference) resume ∧
      ∀ row, resume (.ok (some row)) = .ready (.reserve
        (if row.catalogId = reference.catalogId then statusOf row else .error .identityConflict)) := by
  obtain ⟨resume, isCall, -, -, found⟩ := classifyExisting_eq (D := D) reference
  rw [classifying, isCall, Future.call_bind]
  exact ⟨_, rfl, fun row => by rw [found, Future.ready_bind]⟩

theorem program_recordCompleted (reference : AiEvaluationReference) :
    ∃ resume, program (D := D) (.recordCompleted reference) = .call (.completeRun reference) resume ∧
      resume (.ok 1) = .ready (.recordCompleted (.ok ())) ∧
      resume (.ok 0) = conflicted reference := by
  simp only [program, recordRunCompleted, validateReference_ok, Future.call_bind]
  exact ⟨_, rfl, rfl, rfl⟩

theorem conflicted_eq (reference : AiEvaluationReference) :
    ∃ resume, conflicted (D := D) reference = .call (.findRun reference) resume ∧
      resume (.ok none) = .ready (.recordCompleted (.error .missingReservation)) ∧
      ∀ row, resume (.ok (some row)) = .ready (.recordCompleted (.error
        (if row.catalogId = reference.catalogId then .missingReservation else .identityConflict))) := by
  refine ⟨_, rfl, rfl, fun row => ?_⟩
  simp only [validateMatchingReference]
  split <;> rfl

theorem program_waits (entry : Call) (value : Returned (PostgresAiEvaluationRunLedgerError D)) :
    (program entry).turn ≠ .returns value := by
  cases entry with
  | reserve reference =>
    obtain ⟨resume, isCall, -⟩ := program_reserve (D := D) reference
    simp [isCall, Future.turn]
  | recordCompleted reference =>
    obtain ⟨resume, isCall, -⟩ := program_recordCompleted (D := D) reference
    simp [isCall, Future.turn]

/-! ## The table and the ledger in memory -/

def statusName : InMemoryEvaluationRunStatus → String
  | .pending => "pending"
  | .completed => "completed"

/-- The ledger in memory holds what the table holds. -/
structure Shows (table : RunTable) (ledger : InMemoryAiEvaluationRunLedger) : Prop where
  rows : ∀ key, (table key).map (fun row => (row.catalogId, row.status)) =
    (Keyed.hget ledger.state key).map fun run => (run.catalogId, statusName run.status)
  unique : (Keyed.keys ledger.state).Nodup
  available : ledger.poisoned = false

namespace Shows

variable {table : RunTable} {ledger : InMemoryAiEvaluationRunLedger}
  {reference : AiEvaluationReference} {row : RunRow}

variable {key : RunKey}

theorem absent (shows : Shows table ledger) (free : table key = none) :
    Keyed.hget ledger.state key = none := by
  have same := shows.rows key
  rw [free] at same
  simpa using same.symm

theorem present (shows : Shows table ledger) (stored : table key = some row) :
    ∃ run, Keyed.hget ledger.state key = some run ∧ run.catalogId = row.catalogId ∧
      statusName run.status = row.status := by
  have same := shows.rows key
  rw [stored] at same
  obtain ⟨run, isRun, shown⟩ := Option.map_eq_some_iff.1 same.symm
  exact ⟨run, isRun, (Prod.mk.inj shown).1, (Prod.mk.inj shown).2⟩

theorem reserve_free (shows : Shows table ledger) (free : table reference.key = none)
    (room : ledger.state.length < ledger.capacity) :
    ledger.reserve reference =
      ({ ledger with
        state := Keyed.hset ledger.state reference.key ⟨reference.catalogId, .pending⟩ },
        .ok .reserved) := by
  simp [InMemoryAiEvaluationRunLedger.reserve, shows.available, shows.absent free,
    Nat.ne_of_lt room]

/-- A reservation of a run that exists. -/
theorem reserve_stored (shows : Shows table ledger) (stored : table reference.key = some row) :
    (ledger.reserve reference).1 = ledger ∧
      common (if row.catalogId = reference.catalogId then statusOf (D := D) row
        else .error .identityConflict) = some (ledger.reserve reference).2 := by
  obtain ⟨run, isRun, catalogId, status⟩ := shows.present stored
  simp only [InMemoryAiEvaluationRunLedger.reserve, shows.available, isRun, Bool.false_eq_true,
    if_false, catalogId, ne_eq]
  by_cases same : row.catalogId = reference.catalogId
  · cases pending : run.status <;>
      simp [same, statusOf, ← status, pending, statusName, common]
  · simp [same, common, commonError]

theorem record_absent (shows : Shows table ledger) (free : table reference.key = none) :
    ledger.recordCompleted reference = (ledger, .error .missingReservation) := by
  simp [InMemoryAiEvaluationRunLedger.recordCompleted, shows.available, shows.absent free]

theorem record_conflict (shows : Shows table ledger) (stored : table reference.key = some row)
    (differs : row.catalogId ≠ reference.catalogId) :
    ledger.recordCompleted reference = (ledger, .error .identityConflict) := by
  obtain ⟨run, isRun, catalogId, -⟩ := shows.present stored
  simp [InMemoryAiEvaluationRunLedger.recordCompleted, shows.available, isRun, catalogId, differs]

/-- A key set to the same on both sides. -/
theorem set (shows : Shows table ledger) {run : InMemoryEvaluationRunState}
    (catalogId : row.catalogId = run.catalogId) (status : row.status = statusName run.status) :
    Shows (Function.update table key (some row))
      { ledger with state := Keyed.hset ledger.state key run } where
  rows other := by
    rw [Keyed.hget_hset]
    by_cases equal : other = key
    · subst equal
      simp [catalogId, status]
    · rw [Function.update_of_ne equal, if_neg equal]
      exact shows.rows other
  unique := by
    rw [Keyed.keys_hset, List.nodup_append]
    refine ⟨shows.unique.filter _, List.nodup_singleton _, ?_⟩
    rintro first isFirst second isSecond rfl
    rw [List.mem_singleton] at isSecond
    subst isSecond
    simp at isFirst
  available := shows.available

/-- A completion of a run that is reserved for its catalog. -/
theorem record_same (shows : Shows table ledger) (stored : table reference.key = some row)
    (same : row.catalogId = reference.catalogId) (now : Int) :
    (completeRun reference now table).2 = 1 ∧ (ledger.recordCompleted reference).2 = .ok () ∧
      Shows (completeRun reference now table).1 (ledger.recordCompleted reference).1 ∧
      Keyed.keys (ledger.recordCompleted reference).1.state ⊆ Keyed.keys ledger.state ∧
      (ledger.recordCompleted reference).1.capacity = ledger.capacity := by
  obtain ⟨run, isRun, catalogId, status⟩ := shows.present stored
  have known : row.status = "pending" ∨ row.status = "completed" := by
    rw [← status]
    cases run.status with
    | pending => exact .inl rfl
    | completed => exact .inr rfl
  have recorded : ledger.recordCompleted reference =
      ({ ledger with
        state := Keyed.hset ledger.state reference.key { run with status := .completed } },
        .ok ()) := by
    simp [InMemoryAiEvaluationRunLedger.recordCompleted, shows.available, isRun, catalogId, same]
  simp only [completeRun, stored, same, known, and_self, if_true, recorded, true_and]
  refine ⟨shows.set (by rw [catalogId, same]) rfl, ?_, trivial⟩
  intro key isKey
  rw [Keyed.keys_hset, List.mem_append, List.mem_singleton] at isKey
  rcases isKey with other | rfl
  · exact (List.mem_filter.1 other).1
  · exact List.mem_map_of_mem (Keyed.hget_mem isRun)

end Shows

/-! ## Where the calls are -/

section Places

variable {Caller : Type}

abbrev Trace (Caller D : Type) :=
  Linearization.Trace Caller Call (Conduct D) Statement
    (Returned (PostgresAiEvaluationRunLedgerError D))

abbrev Order (Caller : Type) :=
  List (Linearization.Listed Caller Call (Returned InMemoryAiEvaluationRunLedgerError))

/-- Where a caller can be; a completion that has missed is listed already. -/
inductive Place (order : Order Caller) (trace : Trace Caller D) (table : RunTable) (caller : Caller) :
    Option (Task Call Statement (Answer D) (Returned (PostgresAiEvaluationRunLedgerError D))) → Prop
  | idle (absent : ∀ call ∈ order, call.caller ≠ caller) : Place order trace table caller none
  | reserving {reference : AiEvaluationReference} {rest : Rest D}
      (started : Linearization.Started trace caller (.reserve reference))
      (absent : ∀ call ∈ order, call.caller ≠ caller) (isRest : rest = program (.reserve reference)) :
      Place order trace table caller (some ⟨.reserve reference, rest⟩)
  | classifying {reference : AiEvaluationReference} {row : RunRow} {rest : Rest D}
      (started : Linearization.Started trace caller (.reserve reference))
      (absent : ∀ call ∈ order, call.caller ≠ caller) (stored : table reference.key = some row)
      (isRest : rest = classifying reference) :
      Place order trace table caller (some ⟨.reserve reference, rest⟩)
  | completing {reference : AiEvaluationReference} {rest : Rest D}
      (started : Linearization.Started trace caller (.recordCompleted reference))
      (absent : ∀ call ∈ order, call.caller ≠ caller)
      (isRest : rest = program (.recordCompleted reference)) :
      Place order trace table caller (some ⟨.recordCompleted reference, rest⟩)
  | conflicted {reference : AiEvaluationReference} {row : RunRow} {rest : Rest D}
      (started : Linearization.Started trace caller (.recordCompleted reference))
      (absent : ∀ call ∈ order, call.caller ≠ caller) (stored : table reference.key = some row)
      (differs : row.catalogId ≠ reference.catalogId) (isRest : rest = conflicted reference) :
      Place order trace table caller (some ⟨.recordCompleted reference, rest⟩)
  | missed {reference : AiEvaluationReference} {rest : Rest D}
      (started : Linearization.Started trace caller (.recordCompleted reference))
      (listed : ⟨caller, .recordCompleted reference, .recordCompleted (.error .missingReservation)⟩ ∈
        order)
      (stillOpen : ∀ value, ¬Linearization.Returned trace caller value)
      (isRest : rest = conflicted reference) :
      Place order trace table caller (some ⟨.recordCompleted reference, rest⟩)
  | ended {entry : Call} {value : Returned (PostgresAiEvaluationRunLedgerError D)} :
      Place order trace table caller (some ⟨entry, .ready value⟩)

variable {order after : Order Caller} {trace : Trace Caller D} {table grown : RunTable}
  {caller : Caller} {input : Pool.Input Caller Call (Conduct D)}
  {turn : Turn Statement (Returned (PostgresAiEvaluationRunLedgerError D))}

/-- A caller stays where it is when nothing of its own changes. -/
theorem Place.mono {later : Trace Caller D}
    {held : Option (Task Call Statement (Answer D) (Returned (PostgresAiEvaluationRunLedgerError D)))}
    (place : Place order trace table caller held)
    (starts : ∀ entry, Linearization.Started trace caller entry →
      Linearization.Started later caller entry)
    (returns : ∀ value, Linearization.Returned later caller value →
      Linearization.Returned trace caller value)
    (grows : RunTable.Grows table grown)
    (agree : ∀ call : Linearization.Listed Caller Call _, call.caller = caller →
      (call ∈ after ↔ call ∈ order)) :
    Place after later grown caller held := by
  have still (absent : ∀ call ∈ order, call.caller ≠ caller) : ∀ call ∈ after, call.caller ≠ caller :=
    fun call isCall same => absent call ((agree call same).1 isCall) same
  cases place with
  | idle absent => exact .idle (still absent)
  | reserving started absent isRest => exact .reserving (starts _ started) (still absent) isRest
  | classifying started absent stored isRest =>
    obtain ⟨kept, isKept, -⟩ := grows _ _ stored
    exact .classifying (starts _ started) (still absent) isKept isRest
  | completing started absent isRest => exact .completing (starts _ started) (still absent) isRest
  | conflicted started absent stored differs isRest =>
    obtain ⟨kept, isKept, same⟩ := grows _ _ stored
    exact .conflicted (starts _ started) (still absent) isKept (by rwa [same]) isRest
  | missed started listed stillOpen isRest =>
    exact .missed (starts _ started) ((agree _ rfl).2 listed)
      (fun value returned => stillOpen value (returns value returned)) isRest
  | ended => exact .ended

theorem reservedKeys_snoc (step : Pool.Input Caller Call (Conduct D) × Turn Statement _) :
    reservedKeys trace ⊆ reservedKeys (trace ++ [step]) := by
  rw [reservedKeys, reservedKeys, List.filterMap_append]
  exact List.subset_append_left _ _

theorem mem_reservedKeys {reference : AiEvaluationReference}
    (started : Linearization.Started trace caller (.reserve reference)) :
    reference.key ∈ reservedKeys trace := by
  obtain ⟨turn, isStep⟩ := started
  exact List.mem_filterMap.2 ⟨_, isStep, rfl⟩

variable [DecidableEq Caller]

abbrev Calls (Caller D : Type) :=
  Pool Caller RunTable Call Statement (Answer D) (Returned (PostgresAiEvaluationRunLedgerError D))

/-- Any number of callers of one durable ledger. -/
def machine (Caller D : Type) [DecidableEq Caller] :
    Machine (Calls Caller D) (Pool.Input Caller Call (Conduct D))
      (Turn Statement (Returned (PostgresAiEvaluationRunLedgerError D))) :=
  Pool.machine (service D)

/-- `order` explains a state and how it was reached. -/
structure Explained (capacity : Nat) (p : Calls Caller D) (trace : Trace Caller D)
    (order : Order Caller) : Prop where
  lin : Linearization inMemory (.empty capacity) view trace order
  shows : Shows p.store (Linearization.final inMemory (.empty capacity) order)
  asked : Keyed.keys (Linearization.final inMemory (.empty capacity) order).state ⊆ reservedKeys trace
  fixed : (Linearization.final inMemory (.empty capacity) order).capacity = capacity
  places : ∀ caller, Place order trace p.store caller (p.task caller)

namespace Explained

variable {capacity : Nat} {p : Calls Caller D} {store : RunTable}
  {task : Task Call Statement (Answer D) (Returned (PostgresAiEvaluationRunLedgerError D))}

/-- What has to be shown of a move: how it is explained, and where it leaves its caller. -/
theorem move (explained : Explained capacity p trace order)
    (lin : Linearization inMemory (.empty capacity) view (trace ++ [(input, task.rest.turn)]) after)
    (shows : Shows store (Linearization.final inMemory (.empty capacity) after))
    (asked : Keyed.keys (Linearization.final inMemory (.empty capacity) after).state ⊆
      reservedKeys (trace ++ [(input, task.rest.turn)]))
    (fixed : (Linearization.final inMemory (.empty capacity) after).capacity = capacity)
    (grows : RunTable.Grows p.store store)
    (agree : ∀ call : Linearization.Listed Caller Call _, call.caller ≠ input.caller →
      (call ∈ after ↔ call ∈ order))
    (place : Place after (trace ++ [(input, task.rest.turn)]) store input.caller (some task)) :
    Explained capacity (p.put input.caller store task) (trace ++ [(input, task.rest.turn)]) after := by
  refine ⟨lin, shows, asked, fixed, fun caller => ?_⟩
  by_cases same : caller = input.caller
  · subst same
    rw [Pool.put_task_self]
    exact place
  · rw [Pool.put_task_of_ne p same]
    refine (explained.places caller).mono (fun entry started => started.snoc _) ?_ grows
      fun call isCaller => agree call (isCaller ▸ same)
    intro value returned
    rcases Linearization.returned_snoc_iff.1 returned with earlier | ⟨isInput, -⟩
    · exact earlier
    · exact absurd isInput.symm same

variable (input) in
/-- A move after which the calls are explained as before. -/
theorem carry (explained : Explained capacity p trace order)
    (fresh : ∀ caller entry, input = .start caller entry → ∀ call ∈ order, call.caller ≠ caller)
    (returns : ∀ value, task.rest.turn = .returns value →
      ∃ call ∈ order, call.caller = input.caller ∧ view value = some call.value)
    (place : Place order (trace ++ [(input, task.rest.turn)]) p.store input.caller (some task)) :
    Explained capacity (p.put input.caller p.store task) (trace ++ [(input, task.rest.turn)]) order :=
  explained.move (explained.lin.carry fresh returns) explained.shows
    (List.Subset.trans explained.asked (reservedKeys_snoc _)) explained.fixed (.refl _) (fun _ _ => .rfl) place

variable (input) in
/-- A move with which its call takes effect. -/
theorem append (explained : Explained capacity p trace order)
    (absent : ∀ call ∈ order, call.caller ≠ input.caller) {entry : Call}
    {ledger : InMemoryAiEvaluationRunLedger} {value : Returned InMemoryAiEvaluationRunLedgerError}
    (started : Linearization.Started trace input.caller entry)
    (effect : inMemory (Linearization.final inMemory (.empty capacity) order) entry = (ledger, value))
    (returns : ∀ returned, task.rest.turn = .returns returned → view returned = some value)
    (shows : Shows store ledger) (asked : Keyed.keys ledger.state ⊆ reservedKeys trace)
    (fixed : ledger.capacity = capacity) (grows : RunTable.Grows p.store store)
    (place : Place (order ++ [⟨input.caller, entry, value⟩])
      (trace ++ [(input, task.rest.turn)]) store input.caller (some task)) :
    ∃ after, Explained capacity (p.put input.caller store task)
      (trace ++ [(input, task.rest.turn)]) after := by
  have isFinal : Linearization.final inMemory (.empty capacity)
      (order ++ [⟨input.caller, entry, value⟩]) = ledger := by
    rw [Linearization.final_snoc, effect]
  refine ⟨_, explained.move
    (explained.lin.append absent (started.snoc _) (by rw [effect]) returns) ?_ ?_ ?_ grows ?_ place⟩
  · rwa [isFinal]
  · rw [isFinal]
    exact List.Subset.trans asked (reservedKeys_snoc _)
  · rwa [isFinal]
  · intro call differ
    rw [List.mem_append, List.mem_singleton]
    exact ⟨fun isCall => isCall.resolve_right fun same => differ (by rw [same]), .inl⟩

variable {reference : AiEvaluationReference} {conduct : Conduct D} {row : RunRow}

omit [DecidableEq Caller] in
/-- There is room for the key of every reservation that is under way. -/
theorem room (explained : Explained capacity p trace order)
    (sufficient : (reservedKeys trace).dedup.length ≤ capacity)
    (started : Linearization.Started trace caller (.reserve reference))
    (free : p.store reference.key = none) :
    (Linearization.final inMemory (.empty capacity) order).state.length <
      (Linearization.final inMemory (.empty capacity) order).capacity := by
  have unlisted := Keyed.hget_eq_none.1 (explained.shows.absent free)
  have distinct : (reference.key :: Keyed.keys
      (Linearization.final inMemory (.empty capacity) order).state).Nodup :=
    List.nodup_cons.2 ⟨unlisted, explained.shows.unique⟩
  have within : reference.key :: Keyed.keys
      (Linearization.final inMemory (.empty capacity) order).state ⊆ (reservedKeys trace).dedup := by
    intro key isKey
    rw [List.mem_dedup]
    rcases List.mem_cons.1 isKey with rfl | isKey
    · exact mem_reservedKeys started
    · exact explained.asked isKey
  have fits := (distinct.subperm within).length_le
  rw [List.length_cons, Keyed.keys, List.length_map] at fits
  rw [explained.fixed]
  omega

/-- The insert of a reservation. -/
theorem reserve_step (explained : Explained capacity p trace order)
    (sufficient : (reservedKeys trace).dedup.length ≤ capacity)
    (started : Linearization.Started trace caller (.reserve reference))
    (absent : ∀ call ∈ order, call.caller ≠ caller) {resume : Except D Nat → Rest D}
    (granted : resume (.ok 1) = .ready (.reserve (.ok .reserved)))
    (refused : resume (.ok 0) = classifying reference) :
    ∃ after, Explained capacity
      (p.put caller (insertRun reference p.store).1
        ⟨.reserve reference, resume (.ok (insertRun reference p.store).2)⟩)
      (trace ++ [(.serve caller conduct, (resume (.ok (insertRun reference p.store).2)).turn)])
      after := by
  have grows := insertRun_grows reference p.store
  cases stored : p.store reference.key with
  | none =>
    have effect := explained.shows.reserve_free stored (explained.room sufficient started stored)
    simp only [insertRun, stored, granted] at grows ⊢
    refine explained.append (.serve caller conduct) absent started (by rw [inMemory, effect]) ?_
      (explained.shows.set rfl rfl) ?_ explained.fixed grows .ended
    · rintro returned ⟨⟩
      rfl
    · intro key isKey
      rw [Keyed.keys_hset, List.mem_append, List.mem_singleton] at isKey
      rcases isKey with other | rfl
      · exact explained.asked (List.mem_filter.1 other).1
      · exact mem_reservedKeys started
  | some row =>
    obtain ⟨resume', isCall, -⟩ := classifying_eq (D := D) reference
    simp only [insertRun, stored, refused]
    refine ⟨order, explained.carry (.serve caller conduct) (by simp) ?_
      (.classifying (started.snoc _) absent stored rfl)⟩
    simp [isCall, Future.turn]

/-- The select of a reservation, which finds the row its insert ran into. -/
theorem classify_step (explained : Explained capacity p trace order)
    (started : Linearization.Started trace caller (.reserve reference))
    (absent : ∀ call ∈ order, call.caller ≠ caller) (stored : p.store reference.key = some row)
    {result : Except (PostgresAiEvaluationRunLedgerError D) AiEvaluationRunReservation}
    (isResult : result =
      if row.catalogId = reference.catalogId then statusOf row else .error .identityConflict) :
    ∃ after, Explained capacity (p.put caller p.store ⟨.reserve reference, .ready (.reserve result)⟩)
      (trace ++ [(.serve caller conduct, .returns (.reserve result))]) after := by
  obtain ⟨unchanged, same⟩ := explained.shows.reserve_stored (D := D) stored
  refine explained.append (.serve caller conduct) absent started (Prod.ext unchanged rfl) ?_
    explained.shows explained.asked explained.fixed (.refl _) .ended
  rintro returned ⟨⟩
  simp only [view, isResult, same, Option.map_some, inMemory]

/-- The update of a completion. -/
theorem complete_step (explained : Explained capacity p trace order)
    (started : Linearization.Started trace caller (.recordCompleted reference))
    (absent : ∀ call ∈ order, call.caller ≠ caller) (now : Int) {resume : Except D Nat → Rest D}
    (recorded : resume (.ok 1) = .ready (.recordCompleted (.ok ())))
    (refused : resume (.ok 0) = conflicted reference) :
    ∃ after, Explained capacity
      (p.put caller (completeRun reference now p.store).1
        ⟨.recordCompleted reference, resume (.ok (completeRun reference now p.store).2)⟩)
      (trace ++ [(.serve caller conduct,
        (resume (.ok (completeRun reference now p.store).2)).turn)]) after := by
  obtain ⟨resume', isCall, -⟩ := conflicted_eq (D := D) reference
  have grows := completeRun_grows reference now p.store
  have waits : ∀ value, (conflicted (D := D) reference).turn ≠ .returns value := by
    simp [isCall, Future.turn]
  cases stored : p.store reference.key with
  | none =>
    -- listed as a missing reservation before its answer is known
    have effect := explained.shows.record_absent stored
    simp only [completeRun, stored, refused]
    refine explained.append (.serve caller conduct) absent started (by rw [inMemory, effect])
      (fun returned isTurn => absurd isTurn (waits returned)) explained.shows explained.asked
      explained.fixed (.refl _)
      (.missed (started.snoc _) (List.mem_append_right _ List.mem_cons_self) ?_ rfl)
    intro value returned
    rcases Linearization.returned_snoc_iff.1 returned with earlier | ⟨-, isTurn⟩
    · obtain ⟨call, isCall, isCaller, -⟩ := explained.lin.complete _ _ earlier
      exact absent call isCall isCaller
    · exact waits value isTurn
  | some row =>
    by_cases same : row.catalogId = reference.catalogId
    · obtain ⟨affected, effect, shows, within, fixed⟩ := explained.shows.record_same stored same now
      rw [affected, recorded]
      refine explained.append (.serve caller conduct) absent started (Prod.ext rfl rfl) ?_ shows
        (List.Subset.trans within explained.asked) (fixed.trans explained.fixed) grows .ended
      rintro returned ⟨⟩
      simp [view, common, effect]
    · simp only [completeRun, stored, same, false_and, if_false, refused]
      exact ⟨order, explained.carry (.serve caller conduct) (by simp)
        (fun value isTurn => absurd isTurn (waits value))
        (.conflicted (started.snoc _) absent stored same rfl)⟩

omit [DecidableEq Caller] in
/-- A missing reservation changes nothing. -/
theorem readOnly_missing (reference : AiEvaluationReference) :
    Linearization.Listed.ReadOnly inMemory
      (⟨caller, .recordCompleted reference, .recordCompleted (.error .missingReservation)⟩ :
        Linearization.Listed Caller Call (Returned InMemoryAiEvaluationRunLedgerError)) := by
  intro ledger returns
  simp only [inMemory, InMemoryAiEvaluationRunLedger.recordCompleted] at returns ⊢
  split
  · rfl
  · split
    · rfl
    · split
      · rfl
      · simp_all

/-- The select of a completion that ran into a run of another catalog. -/
theorem conflict_step (explained : Explained capacity p trace order)
    (started : Linearization.Started trace caller (.recordCompleted reference))
    (absent : ∀ call ∈ order, call.caller ≠ caller) (stored : p.store reference.key = some row)
    (differs : row.catalogId ≠ reference.catalogId) :
    ∃ after, Explained capacity
      (p.put caller p.store
        ⟨.recordCompleted reference, .ready (.recordCompleted (.error .identityConflict))⟩)
      (trace ++ [(.serve caller conduct, .returns (.recordCompleted (.error .identityConflict)))])
      after := by
  have effect := explained.shows.record_conflict stored differs
  refine explained.append (.serve caller conduct) absent started (by rw [inMemory, effect]) ?_
    explained.shows explained.asked explained.fixed (.refl _) .ended
  rintro returned ⟨⟩
  rfl

/-- A completion that was listed as missing its reservation, before a run of another catalog came in
between, need not be listed yet. -/
theorem withdraw (explained : Explained capacity p trace order)
    (runs : p.task caller = some ⟨.recordCompleted reference, conflicted reference⟩)
    (started : Linearization.Started trace caller (.recordCompleted reference))
    (listed : ⟨caller, .recordCompleted reference, .recordCompleted (.error .missingReservation)⟩ ∈ order)
    (stillOpen : ∀ value, ¬Linearization.Returned trace caller value)
    (stored : p.store reference.key = some row) (differs : row.catalogId ≠ reference.catalogId) :
    ∃ after : Order Caller, (∀ call ∈ after, call.caller ≠ caller) ∧
      Explained capacity p trace after := by
  have only : ∀ call ∈ order, call.caller = caller → call.ReadOnly inMemory := by
    intro call isCall isCaller
    rw [List.inj_on_of_nodup_map explained.lin.once isCall listed isCaller]
    exact readOnly_missing reference
  obtain ⟨lin, same⟩ := explained.lin.withdraw stillOpen only
  have absent : ∀ call ∈ order.filter fun call => call.caller ≠ caller, call.caller ≠ caller :=
    fun call isCall => by simpa using (List.mem_filter.1 isCall).2
  refine ⟨_, absent, lin, same ▸ explained.shows, same ▸ explained.asked, same ▸ explained.fixed, ?_⟩
  intro other
  by_cases isCaller : other = caller
  · subst isCaller
    rw [runs]
    exact .conflicted started absent stored differs rfl
  · refine (explained.places other).mono (fun _ => id) (fun _ => id) (.refl _) fun call isOther => ?_
    simp [List.mem_filter, isOther, isCaller]

/-- The select of a completion that was listed as missing its reservation. -/
theorem missed_step (explained : Explained capacity p trace order)
    (runs : p.task caller = some ⟨.recordCompleted reference, conflicted reference⟩)
    (started : Linearization.Started trace caller (.recordCompleted reference))
    (listed : ⟨caller, .recordCompleted reference, .recordCompleted (.error .missingReservation)⟩ ∈ order)
    (stillOpen : ∀ value, ¬Linearization.Returned trace caller value)
    {resume : Except D (Option RunRow) → Rest D}
    (missing : resume (.ok none) = .ready (.recordCompleted (.error .missingReservation)))
    (found : ∀ row, resume (.ok (some row)) = .ready (.recordCompleted (.error
      (if row.catalogId = reference.catalogId then .missingReservation else .identityConflict)))) :
    ∃ after, Explained capacity
      (p.put caller p.store
        ⟨.recordCompleted reference, resume (.ok (p.store reference.key))⟩)
      (trace ++ [(.serve caller conduct, (resume (.ok (p.store reference.key))).turn)]) after := by
  have asListed : resume (.ok (p.store reference.key)) =
      .ready (.recordCompleted (.error .missingReservation)) →
      ∃ after, Explained capacity
        (p.put caller p.store
          ⟨.recordCompleted reference, resume (.ok (p.store reference.key))⟩)
        (trace ++ [(.serve caller conduct, (resume (.ok (p.store reference.key))).turn)]) after := by
    intro isReady
    rw [isReady]
    refine ⟨order, explained.carry (.serve caller conduct) (by simp) ?_ .ended⟩
    rintro value ⟨⟩
    exact ⟨_, listed, rfl, rfl⟩
  cases stored : p.store reference.key with
  | none => exact stored ▸ asListed (by rw [stored, missing])
  | some row =>
    by_cases same : row.catalogId = reference.catalogId
    · exact stored ▸ asListed (by rw [stored, found, if_pos same])
    · obtain ⟨withdrawn, absent, explained⟩ :=
        explained.withdraw runs started listed stillOpen stored same
      rw [found, if_neg same]
      exact explained.conflict_step started absent stored same

/-- A call starts with a statement, so it is explained later. -/
theorem start (explained : Explained capacity p trace order) (entry : Call)
    (idle : p.task caller = none) :
    Explained capacity (p.put caller p.store ⟨entry, program entry⟩)
      (trace ++ [(.start caller entry, (program (D := D) entry).turn)]) order := by
  have place := explained.places caller
  rw [idle] at place
  cases place with
  | idle absent =>
    have started : Linearization.Started
        (trace ++ [(.start caller entry, (program (D := D) entry).turn)]) caller entry :=
      ⟨_, List.mem_append_right _ List.mem_cons_self⟩
    refine explained.carry (.start caller entry) ?_ ?_ ?_
    · rintro _ _ ⟨⟩
      exact absent
    · intro value isTurn
      exact absurd isTurn (program_waits entry value)
    · cases entry with
      | reserve reference => exact .reserving started absent rfl
      | recordCompleted reference => exact .completing started absent rfl

/-- Whatever statement of whichever call is answered, the calls are explained again. -/
theorem serve (explained : Explained capacity p trace order)
    (sufficient : (reservedKeys trace).dedup.length ≤ capacity) (answered : conduct.fate = .answered)
    {entry : Call} {statement : Statement} {resume : Answer D statement → Rest D}
    {response : Answer D statement} (runs : p.task caller = some ⟨entry, .call statement resume⟩)
    (served : serveStatement p.store statement conduct = some (store, response)) :
    ∃ after, Explained capacity (p.put caller store ⟨entry, resume response⟩)
      (trace ++ [(.serve caller conduct, (resume response).turn)]) after := by
  have place := explained.places caller
  rw [runs] at place
  cases place with
  | @reserving reference _ started absent isRest =>
    obtain ⟨resume', isCall, granted, refused⟩ := program_reserve (D := D) reference
    cases isRest.trans isCall
    simp only [serveStatement, Fate.deliver, answered, Option.some.injEq] at served
    cases served
    exact explained.reserve_step sufficient started absent granted refused
  | @classifying reference row _ started absent stored isRest =>
    obtain ⟨resume', isCall, found⟩ := classifying_eq (D := D) reference
    cases isRest.trans isCall
    simp only [serveStatement, Fate.deliver, answered, Option.some.injEq, stored] at served
    cases served
    rw [found]
    exact explained.classify_step started absent stored rfl
  | @completing reference _ started absent isRest =>
    obtain ⟨resume', isCall, recorded, refused⟩ := program_recordCompleted (D := D) reference
    cases isRest.trans isCall
    simp only [serveStatement, Fate.deliver, answered, Option.some.injEq] at served
    cases served
    exact explained.complete_step started absent conduct.now recorded refused
  | @conflicted reference row _ started absent stored differs isRest =>
    obtain ⟨resume', isCall, -, found⟩ := conflicted_eq (D := D) reference
    cases isRest.trans isCall
    simp only [serveStatement, Fate.deliver, answered, Option.some.injEq, stored] at served
    cases served
    rw [found, if_neg differs]
    exact explained.conflict_step started absent stored differs
  | @missed reference _ started listed stillOpen isRest =>
    obtain ⟨resume', isCall, missing, found⟩ := conflicted_eq (D := D) reference
    rw [isRest] at runs
    cases isRest.trans isCall
    simp only [serveStatement, Fate.deliver, answered, Option.some.injEq] at served
    cases served
    exact explained.missed_step runs started listed stillOpen missing found

end Explained

/-- **Linearizability.**  However the statements of concurrent calls interleave, as long as none
fails, the calls have returned what a ledger in memory, with room for the keys that were asked for,
returns to them one after the other. -/
theorem evaluation_ledger_linearizable {p : Calls Caller D} {trace : Trace Caller D}
    (run : (machine Caller D).Run Answered p trace) {capacity : Nat}
    (sufficient : (reservedKeys trace).dedup.length ≤ capacity) :
    ∃ order, Linearization inMemory (.empty capacity) view trace order := by
  have explained := run.invariant (I := fun p trace =>
    (reservedKeys trace).dedup.length ≤ capacity → ∃ order, Explained capacity p trace order) ?_ ?_
    sufficient
  · obtain ⟨order, explained⟩ := explained
    exact ⟨order, explained.lin⟩
  · rintro p ⟨empty, idle⟩ -
    refine ⟨[], .nil, ⟨fun key => ?_, .nil, rfl⟩, by simp [Linearization.final, Keyed.keys,
      InMemoryAiEvaluationRunLedger.empty], rfl, fun caller => ?_⟩
    · rw [empty key]
      rfl
    · rw [idle caller]
      exact .idle (by simp)
  · rintro before after trace input turn - explained admitted stepped sufficient
    have earlier : (reservedKeys trace).dedup.length ≤ capacity :=
      Nat.le_trans ((List.nodup_dedup _).subperm fun key isKey => List.mem_dedup.2
        (reservedKeys_snoc _ (List.mem_dedup.1 isKey))).length_le sufficient
    obtain ⟨order, explained⟩ := explained earlier
    obtain ⟨store, task, move, rfl, rfl⟩ := Pool.move_of_step _ stepped
    cases input with
    | start caller entry =>
      rw [Pool.Input.caller] at move
      generalize held : before.task caller = mover at move
      cases move with
      | start => exact ⟨order, explained.start entry held⟩
    | serve caller conduct =>
      rw [Pool.Input.caller] at move
      generalize held : before.task caller = mover at move
      cases move with
      | serve served => exact explained.serve earlier admitted held served

/-- A completion comes before its reservation, whose insert falls between its update and its
select. -/
def latecomers : Bool → Call
  | false => .recordCompleted ⟨"lab", "suite-a", "nightly-1", by decide, by decide, by decide⟩
  | true => .reserve ⟨"lab", "suite-a", "nightly-1", by decide, by decide, by decide⟩

theorem evaluation_ledger_linearizable_latecomers :
    ∃ (p : Calls Bool Unit) (trace : Trace Bool Unit),
      (machine Bool Unit).Run Answered p trace ∧
      (match p.task false with
        | some ⟨_, .ready (.recordCompleted (.error .missingReservation))⟩ => true
        | _ => false) = true ∧
      (match p.task true with
        | some ⟨_, .ready (.reserve (.ok .reserved))⟩ => true
        | _ => false) = true ∧
      ∃ order, Linearization inMemory (.empty 1) view trace order := by
  have start : (machine Bool Unit).initial ⟨fun _ => none, fun _ => none⟩ :=
    ⟨fun _ => rfl, fun _ => rfl⟩
  obtain ⟨p, trace, run, missing, reserved, keys⟩ := Machine.exists_run_exec
    (machine Bool Unit) Answered start
    [.start false (latecomers false), .serve false ⟨.answered, (), 0⟩,
      .start true (latecomers true), .serve true ⟨.answered, (), 1⟩, .serve false ⟨.answered, (), 2⟩]
    (fun p trace => (match p.task false with
        | some ⟨_, .ready (.recordCompleted (.error .missingReservation))⟩ => true
        | _ => false) = true ∧
      (match p.task true with
        | some ⟨_, .ready (.reserve (.ok .reserved))⟩ => true
        | _ => false) = true ∧ (reservedKeys trace).dedup.length ≤ 1) (by decide +kernel)
  exact ⟨p, trace, run, missing, reserved, evaluation_ledger_linearizable run keys⟩

end Places

end Rustee.AiEval.Linearizable
