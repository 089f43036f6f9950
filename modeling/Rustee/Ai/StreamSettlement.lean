/-
# Rustee.Ai.StreamSettlement -- a stream that settles its usage before it completes

`rustee-ai/src/pipeline/usage.rs` (`settle_usage_stream` and the two streams returned by
`stream_with_usage_ledger` and `stream_with_advisor_and_usage_ledger`) and
`src/pipeline/stream.rs`.  The provider's stream is cut after its first terminal event, its
completion is recorded in the ledger before it is passed on, an advisor may then transform
every event, and what comes out is cut after its first terminal event again.

The provider, the ledger and the advisor answer as they like, and the consumer may stop
between any two steps.  `Phase` lists the states a consumer of the stream can be in.
-/
import Rustee.Ai.Protocol
import Rustee.Foundation.Async
import Mathlib.Data.List.Infix

namespace Rustee.Ai

set_option autoImplicit false

open Rustee.Foundation

structure AiUsageSettlement where
  reservation : AiUsageReservation
  usage : Usage
  deriving DecidableEq

def AiUsageReservation.settlement (reservation : AiUsageReservation) (usage : Usage) :
    AiUsageSettlement :=
  ⟨reservation, usage⟩

namespace StreamSettlement

/-! ## The streams -/

/-- What a stream waits for. -/
inductive Op where
  | provider
  | recordUsage (settlement : AiUsageSettlement)
  | onStreamEvent (event : AiStreamEvent)

/-- The answers; `P`, `L` and `A` are the errors of provider, ledger and advisor. -/
abbrev Res (P L A : Type) : Op → Type
  | .provider => Option (Except P AiStreamEvent)
  | .recordUsage _ => Except L Unit
  | .onStreamEvent _ => Except A AiStreamEvent

inductive UsageLedgerStreamError (P L : Type) where
  | provider (error : P)
  | ledger (error : L)
  | duplicateCompletion

inductive AdvisedUsageLedgerStreamError (P L A : Type) where
  | usage (error : UsageLedgerStreamError P L)
  | advisor (error : A)

variable {P L A : Type}

def isTerminal {E : Type} : Except E AiStreamEvent → Bool
  | .error _ => true
  | .ok event => event.isCompleted

def stopAfterTerminalEvent {E : Type} (stream : EventStream Op (Res P L A) (Except E AiStreamEvent)) :
    EventStream Op (Res P L A) (Except E AiStreamEvent) :=
  stream.stopAfter isTerminal

/-- The stream that the provider has opened. -/
def providerStream : EventStream Op (Res P L A) (Except P AiStreamEvent) where
  State := Unit
  start := ()
  next _ := .call .provider fun item => .ready (item, ())

/-- The closure of `settle_usage_stream`, with the reservation it has captured. -/
def settleEvent (unsettled : Option AiUsageReservation) (event : Except P AiStreamEvent) :
    Option AiUsageReservation ×
      Future Op (Res P L A) (Except (UsageLedgerStreamError P L) AiStreamEvent) :=
  match event with
  | .error error => (unsettled, .ready (.error (.provider error)))
  | .ok (.completed usage) =>
    (none,
      match unsettled with
      | none => .ready (.error .duplicateCompletion)
      | some reservation =>
        .call (.recordUsage (reservation.settlement usage)) fun
          | .error error => .ready (.error (.ledger error))
          | .ok () => .ready (.ok (.completed usage)))
  | .ok event => (unsettled, .ready (.ok event))

def settleUsageStream (stream : EventStream Op (Res P L A) (Except P AiStreamEvent))
    (reservation : AiUsageReservation) :
    EventStream Op (Res P L A) (Except (UsageLedgerStreamError P L) AiStreamEvent) :=
  stream.andThen (some reservation) settleEvent

/-- The stream that `stream_with_usage_ledger` returns. -/
def streamWithUsageLedger (P L A : Type) (reservation : AiUsageReservation) :
    EventStream Op (Res P L A) (Except (UsageLedgerStreamError P L) AiStreamEvent) :=
  stopAfterTerminalEvent (settleUsageStream (stopAfterTerminalEvent providerStream) reservation)

def adviseEvent (captured : Unit) (event : Except (UsageLedgerStreamError P L) AiStreamEvent) :
    Unit × Future Op (Res P L A) (Except (AdvisedUsageLedgerStreamError P L A) AiStreamEvent) :=
  (captured,
    match event with
    | .error error => .ready (.error (.usage error))
    | .ok event =>
      .call (.onStreamEvent event) fun
        | .error error => .ready (.error (.advisor error))
        | .ok event => .ready (.ok event))

/-- The stream that `stream_with_advisor_and_usage_ledger` returns. -/
def streamWithAdvisorAndUsageLedger (P L A : Type) (reservation : AiUsageReservation) :
    EventStream Op (Res P L A) (Except (AdvisedUsageLedgerStreamError P L A) AiStreamEvent) :=
  stopAfterTerminalEvent
    ((settleUsageStream (stopAfterTerminalEvent providerStream) reservation).andThen () adviseEvent)

/-! ## What was asked and answered -/

/-- The answers of the provider. -/
def provided (answered : List (Σ op, Res P L A op)) : List (Option (Except P AiStreamEvent)) :=
  answered.filterMap fun
    | ⟨.provider, item⟩ => some item
    | _ => none

/-- What was recorded, with the answers of the ledger. -/
def recorded (answered : List (Σ op, Res P L A op)) : List (AiUsageSettlement × Except L Unit) :=
  answered.filterMap fun
    | ⟨.recordUsage settlement, result⟩ => some (settlement, result)
    | _ => none

def Op.recordUsage? : Op → Option AiUsageSettlement
  | .recordUsage settlement => some settlement
  | _ => none

/-- The calls of `record_usage`, answered or not. -/
def recordCalls {Item : Type} {stream : EventStream Op (Res P L A) Item} (c : Consumer stream) :
    List AiUsageSettlement :=
  c.calls.filterMap Op.recordUsage?

/-- The usage of a completion. -/
def completion : Option (Except P AiStreamEvent) → Option Usage
  | some (.ok (.completed usage)) => some usage
  | _ => none

/-- The provider's stream is over with this answer. -/
def isLast : Option (Except P AiStreamEvent) → Bool
  | none => true
  | some item => isTerminal item

/-- What a completion is passed on as, by what the ledger answers. -/
def settledItem (usage : Usage) : Except L Unit → Except (UsageLedgerStreamError P L) AiStreamEvent
  | .ok () => .ok (.completed usage)
  | .error error => .error (.ledger error)

/-- What an answer of the provider is emitted as, once the ledger has given these results. -/
def emission (results : List (Except L Unit)) :
    Option (Except P AiStreamEvent) → List (Except (UsageLedgerStreamError P L) AiStreamEvent)
  | none => []
  | some (.error error) => [.error (.provider error)]
  | some (.ok (.completed usage)) => results.map (settledItem usage)
  | some (.ok event) => [.ok event]

/-- Usage is recorded when the provider completes, once, and with the provider's usage. -/
structure RecordsOnce (reservation : AiUsageReservation) {Item : Type}
    {stream : EventStream Op (Res P L A) Item} (c : Consumer stream) : Prop where
  /-- The provider is not polled again after its last event. -/
  polled : ∀ item ∈ (provided c.answered).dropLast, isLast item = false
  called : recordCalls c =
    ((provided c.answered).filterMap completion).map reservation.settlement
  once : (recordCalls c).length ≤ 1

/-- A consumer of the settled stream, in whatever state it was left. -/
structure Settled (reservation : AiUsageReservation)
    (c : Consumer (streamWithUsageLedger P L A reservation)) : Prop
    extends RecordsOnce reservation c where
  /-- The provider's events are emitted in order, a completion as the ledger answers. -/
  emitted : c.emitted =
    (provided c.answered).flatMap (emission ((recorded c.answered).map Prod.snd))
  /-- After the last event the next poll ends the stream, and nothing else ends it. -/
  ends : c.pending = none → (∃ item ∈ provided c.answered, isLast item = true) →
    c.ended = true ∨ (streamWithUsageLedger P L A reservation).next c.state = .ready (none, c.state)
  ended : c.ended = true → ∃ item ∈ provided c.answered, isLast item = true
  /-- A completion is emitted only after it was recorded. -/
  recordedFirst : ∀ usage, .ok (.completed usage) ∈ c.emitted →
    (reservation.settlement usage, .ok ()) ∈ recorded c.answered
  unduplicated : .error .duplicateCompletion ∉ c.emitted

/-! ## One poll -/

section

variable (reservation : AiUsageReservation)

/-- Nothing terminal has come yet. -/
def openState : (streamWithUsageLedger P L A reservation).State :=
  ((((), false), some reservation), false)

/-- The last event is out. -/
def closedState (unsettled : Option AiUsageReservation) :
    (streamWithUsageLedger P L A reservation).State :=
  ((((), true), unsettled), true)

def afterRecord (usage : Usage) (result : Except L Unit) :
    Future Op (Res P L A) (Option (Except (UsageLedgerStreamError P L) AiStreamEvent) ×
      (streamWithUsageLedger P L A reservation).State) :=
  .ready (some (settledItem usage result), closedState reservation none)

def afterProvider (item : Option (Except P AiStreamEvent)) :
    Future Op (Res P L A) (Option (Except (UsageLedgerStreamError P L) AiStreamEvent) ×
      (streamWithUsageLedger P L A reservation).State) :=
  match item with
  | none => .ready (none, openState reservation)
  | some (.error error) =>
    .ready (some (.error (.provider error)), closedState reservation (some reservation))
  | some (.ok (.completed usage)) =>
    .call (.recordUsage (reservation.settlement usage)) (afterRecord reservation usage)
  | some (.ok event) => .ready (some (.ok event), openState reservation)

theorem next_openState :
    (streamWithUsageLedger P L A reservation).next (openState reservation) =
      .call .provider (afterProvider reservation) := by
  refine congrArg (Future.call Op.provider) (funext fun item => ?_)
  match item with
  | none => rfl
  | some (.error error) => rfl
  | some (.ok (.textDelta _)) => rfl
  | some (.ok (.toolCall _)) => rfl
  | some (.ok (.toolResult _)) => rfl
  | some (.ok (.completed usage)) =>
    refine congrArg (Future.call (Op.recordUsage (reservation.settlement usage))) (funext fun result => ?_)
    cases result <;> rfl

theorem next_closedState (unsettled : Option AiUsageReservation) :
    (streamWithUsageLedger P L A reservation).next (closedState reservation unsettled) =
      .ready (none, closedState reservation unsettled) := rfl

/-! ## The states of a consumer -/

def Plain (deltas : List AiStreamEvent) : Prop := ∀ event ∈ deltas, event.isCompleted = false

/-- The provider has given these events. -/
def given (deltas : List AiStreamEvent) : List (Σ op, Res P L A op) :=
  deltas.map fun event => ⟨.provider, some (.ok event)⟩

inductive Phase : Consumer (streamWithUsageLedger P L A reservation) → Prop where
  | idle {deltas : List AiStreamEvent} (plain : Plain deltas) :
      Phase ⟨openState reservation, none, given deltas, deltas.map .ok, false⟩
  | waiting {deltas : List AiStreamEvent} (plain : Plain deltas) :
      Phase ⟨openState reservation, some (.call .provider (afterProvider reservation)),
        given deltas, deltas.map .ok, false⟩
  | recording {deltas : List AiStreamEvent} (plain : Plain deltas) (usage : Usage) :
      Phase ⟨openState reservation,
        some (.call (.recordUsage (reservation.settlement usage)) (afterRecord reservation usage)),
        given deltas ++ [⟨.provider, some (.ok (.completed usage))⟩], deltas.map .ok, false⟩
  | settled {deltas : List AiStreamEvent} (plain : Plain deltas) (usage : Usage)
      (result : Except L Unit) (ended : Bool) :
      Phase ⟨closedState reservation none, none,
        given deltas ++ [⟨.provider, some (.ok (.completed usage))⟩] ++
          [⟨.recordUsage (reservation.settlement usage), result⟩],
        deltas.map .ok ++ [settledItem usage result], ended⟩
  | failed {deltas : List AiStreamEvent} (plain : Plain deltas) (error : P) (ended : Bool) :
      Phase ⟨closedState reservation (some reservation), none,
        given deltas ++ [⟨.provider, some (.error error)⟩],
        deltas.map .ok ++ [.error (.provider error)], ended⟩
  | exhausted {deltas : List AiStreamEvent} (plain : Plain deltas) :
      Phase ⟨openState reservation, none, given deltas ++ [⟨.provider, none⟩], deltas.map .ok, true⟩

variable {reservation}

variable {deltas : List AiStreamEvent} {c : Consumer (streamWithUsageLedger P L A reservation)}

theorem Plain.append (plain : Plain deltas) {event : AiStreamEvent}
    (more : event.isCompleted = false) : Plain (deltas ++ [event]) := by
  intro other member
  rcases List.mem_append.1 member with before | last
  · exact plain other before
  · rw [List.mem_singleton.1 last]
    exact more

/-- A delta leaves the stream open. -/
theorem Phase.delta (plain : Plain deltas) {event : AiStreamEvent} (more : event.isCompleted = false) :
    Phase (P := P) (L := L) (A := A) reservation
      ⟨openState reservation, none, given deltas ++ [⟨.provider, some (.ok event)⟩],
        deltas.map .ok ++ [.ok event], false⟩ := by
  have phase : Phase (P := P) (L := L) (A := A) reservation _ := .idle (plain.append more)
  rwa [given, List.map_append, List.map_append] at phase

theorem Phase.poll (phase : Phase reservation c) (open_ : c.ended = false) (idle : c.pending = none) :
    Phase reservation (c.advance ((streamWithUsageLedger P L A reservation).next c.state)) := by
  cases phase with
  | idle plain =>
    rw [next_openState]
    exact .waiting plain
  | waiting plain => cases idle
  | recording plain usage => cases idle
  | settled plain usage result ended => exact .settled plain usage result true
  | failed plain error ended => exact .failed plain error true
  | exhausted plain => cases open_

theorem Phase.answer {op : Op} {resume : Res P L A op → Future Op (Res P L A) _} (response : Res P L A op)
    (phase : Phase reservation c) (waits : c.pending = some (.call op resume)) :
    Phase reservation ((c.answer op response).advance (resume response)) := by
  cases phase with
  | idle plain => cases waits
  | waiting plain =>
    cases waits
    match response with
    | none => exact .exhausted plain
    | some (.error error) => exact .failed plain error false
    | some (.ok (.textDelta _)) => exact .delta plain rfl
    | some (.ok (.toolCall _)) => exact .delta plain rfl
    | some (.ok (.toolResult _)) => exact .delta plain rfl
    | some (.ok (.completed usage)) => exact .recording plain usage
  | recording plain usage =>
    cases waits
    exact .settled plain usage response false
  | settled plain usage result ended => cases waits
  | failed plain error ended => cases waits
  | exhausted plain => cases waits

theorem phase_of_reaches {trace : List (Consumer.Input Op (Res P L A) × Unit)}
    (reached : (Consumer.machine (streamWithUsageLedger P L A reservation)).Reaches c trace) :
    Phase reservation c := by
  refine Consumer.invariant (I := Phase reservation) ?_ ?_ ?_ reached
  · have none : Plain [] := fun event member => absurd member List.not_mem_nil
    exact .idle none
  · intro c phase open_ idle
    exact phase.poll open_ idle
  · intro c op resume response phase waits
    exact phase.answer response waits

/-! ## What the states show -/

@[simp] theorem provided_given (deltas : List AiStreamEvent) :
    provided (given deltas : List (Σ op, Res P L A op)) =
      deltas.map fun event => some (.ok event) := by
  rw [provided, given, List.filterMap_map]
  exact congrFun List.filterMap_eq_map' deltas

@[simp] theorem recorded_given (deltas : List AiStreamEvent) :
    recorded (given deltas : List (Σ op, Res P L A op)) = [] := by
  rw [recorded, given, List.filterMap_map]
  exact List.filterMap_eq_nil_iff.2 fun event _ => rfl

@[simp] theorem provided_append (one other : List (Σ op, Res P L A op)) :
    provided (one ++ other) = provided one ++ provided other :=
  List.filterMap_append

@[simp] theorem recorded_append (one other : List (Σ op, Res P L A op)) :
    recorded (one ++ other) = recorded one ++ recorded other :=
  List.filterMap_append

section

variable (item : Option (Except P AiStreamEvent)) (settlement : AiUsageSettlement)
  (result : Except L Unit) (rest : List (Σ op, Res P L A op))

@[simp] theorem provided_nil : provided ([] : List (Σ op, Res P L A op)) = [] := rfl

@[simp] theorem recorded_nil : recorded ([] : List (Σ op, Res P L A op)) = [] := rfl

@[simp] theorem provided_cons_provider :
    provided (⟨.provider, item⟩ :: rest) = item :: provided rest := rfl

@[simp] theorem provided_cons_recordUsage :
    provided (⟨.recordUsage settlement, result⟩ :: rest) = provided rest := rfl

@[simp] theorem provided_cons_onStreamEvent (event : AiStreamEvent) (response : Except A AiStreamEvent) :
    provided (⟨.onStreamEvent event, response⟩ :: rest) = provided rest := rfl

@[simp] theorem recorded_cons_onStreamEvent (event : AiStreamEvent) (response : Except A AiStreamEvent) :
    recorded (⟨.onStreamEvent event, response⟩ :: rest) = recorded rest := rfl

@[simp] theorem recorded_cons_provider : recorded (⟨.provider, item⟩ :: rest) = recorded rest := rfl

@[simp] theorem recorded_cons_recordUsage :
    recorded (⟨.recordUsage settlement, result⟩ :: rest) =
      (settlement, result) :: recorded rest := rfl

end

/-- The record call that is waited for. -/
def awaitedRecord {Item : Type} {stream : EventStream Op (Res P L A) Item} (c : Consumer stream) :
    List AiUsageSettlement :=
  match c.pending with
  | some (.call (.recordUsage settlement) _) => [settlement]
  | _ => []

theorem recordCalls_eq {Item : Type} {stream : EventStream Op (Res P L A) Item}
    (c : Consumer stream) :
    recordCalls c = (recorded c.answered).map Prod.fst ++ awaitedRecord c := by
  rw [recordCalls, Consumer.calls, List.filterMap_append]
  congr 1
  · rw [recorded, List.filterMap_map, List.map_filterMap]
    refine congrFun (congrArg _ (funext fun call => ?_)) _
    obtain ⟨op, response⟩ := call
    cases op <;> rfl
  · rw [awaitedRecord]
    match c.pending with
    | none => rfl
    | some (.ready _) => rfl
    | some (.call .provider _) => rfl
    | some (.call (.recordUsage _) _) => rfl
    | some (.call (.onStreamEvent _) _) => rfl

theorem Plain.emission (plain : Plain deltas) (results : List (Except L Unit)) :
    (deltas.map fun event => (some (.ok event) : Option (Except P AiStreamEvent))).flatMap
      (emission results) = deltas.map .ok := by
  induction deltas with
  | nil => rfl
  | cons event deltas ih =>
    obtain ⟨first, others⟩ := List.forall_mem_cons.1 plain
    rw [List.map_cons, List.flatMap_cons, ih others]
    cases event with
    | completed usage => cases first
    | _ => rfl

theorem Plain.completion (plain : Plain deltas) :
    (deltas.map fun event => (some (.ok event) : Option (Except P AiStreamEvent))).filterMap
      completion = [] := by
  rw [List.filterMap_map]
  refine List.filterMap_eq_nil_iff.2 fun event member => ?_
  have more := plain event member
  cases event with
  | completed usage => cases more
  | _ => rfl

theorem Plain.isLast (plain : Plain deltas) :
    ∀ item ∈ deltas.map fun event => (some (.ok event) : Option (Except P AiStreamEvent)),
      isLast item = false := by
  intro item member
  obtain ⟨event, among, rfl⟩ := List.mem_map.1 member
  exact plain event among

/-- An event that is no completion is not taken for one. -/
theorem Plain.uncompleted (plain : Plain deltas) (usage : Usage) :
    (.ok (.completed usage) : Except (UsageLedgerStreamError P L) AiStreamEvent) ∉
      deltas.map .ok := by
  intro member
  obtain ⟨event, among, same⟩ := List.mem_map.1 member
  cases same
  exact Bool.noConfusion (plain _ among)

theorem emission_completed {results : List (Except L Unit)}
    {item : Option (Except P AiStreamEvent)} {usage : Usage}
    (emitted : .ok (.completed usage) ∈ emission results item) :
    StreamSettlement.completion item = some usage ∧ .ok () ∈ results := by
  match item with
  | none => cases emitted
  | some (.error error) => cases List.mem_singleton.1 emitted
  | some (.ok (.textDelta _)) => cases List.mem_singleton.1 emitted
  | some (.ok (.toolCall _)) => cases List.mem_singleton.1 emitted
  | some (.ok (.toolResult _)) => cases List.mem_singleton.1 emitted
  | some (.ok (.completed other)) =>
    obtain ⟨result, member, same⟩ := List.mem_map.1 emitted
    cases result with
    | error error => cases same
    | ok value =>
      cases same
      exact ⟨rfl, member⟩

theorem emission_unduplicated (results : List (Except L Unit))
    (item : Option (Except P AiStreamEvent)) :
    .error .duplicateCompletion ∉ emission results item := by
  intro emitted
  match item with
  | none => cases emitted
  | some (.error error) => cases List.mem_singleton.1 emitted
  | some (.ok (.textDelta _)) => cases List.mem_singleton.1 emitted
  | some (.ok (.toolCall _)) => cases List.mem_singleton.1 emitted
  | some (.ok (.toolResult _)) => cases List.mem_singleton.1 emitted
  | some (.ok (.completed other)) =>
    obtain ⟨result, member, same⟩ := List.mem_map.1 emitted
    cases result <;> cases same

section

variable {Item : Type} {stream : EventStream Op (Res P L A) Item} {c : Consumer stream}
  {deltas : List AiStreamEvent}

/-- As long as the provider has given nothing but plain events. -/
theorem RecordsOnce.streaming (plain : Plain deltas)
    (provides : provided c.answered = deltas.map fun event => some (.ok event))
    (uncalled : recordCalls c = []) : RecordsOnce reservation c where
  polled item member := by
    rw [provides] at member
    exact plain.isLast item (List.mem_of_mem_dropLast member)
  called := by rw [uncalled, provides, plain.completion, List.map_nil]
  once := by rw [uncalled]; exact Nat.zero_le 1

/-- Once the provider has given its last answer. -/
theorem RecordsOnce.finished (plain : Plain deltas) {last : Option (Except P AiStreamEvent)}
    (provides : provided c.answered = (deltas.map fun event => some (.ok event)) ++ [last])
    (called : recordCalls c = (completion last).toList.map reservation.settlement) :
    RecordsOnce reservation c where
  polled item member := by
    rw [provides, List.dropLast_concat] at member
    exact plain.isLast item member
  called := by
    rw [called, provides, List.filterMap_append, plain.completion]
    cases completed : completion last <;> simp [completed]
  once := by
    rw [called, List.length_map]
    cases completion last <;> simp

end

theorem Settled.streaming (plain : Plain deltas) (answered : c.answered = given deltas)
    (emitted : c.emitted = deltas.map .ok) (open_ : c.ended = false)
    (unawaited : awaitedRecord c = []) : Settled reservation c where
  toRecordsOnce := by
    refine .streaming plain (by rw [answered, provided_given]) ?_
    rw [recordCalls_eq, answered, recorded_given, unawaited]
    rfl
  emitted := by rw [emitted, answered, provided_given, plain.emission]
  ends _ last := by
    obtain ⟨item, member, isLast⟩ := last
    rw [answered, provided_given] at member
    rw [plain.isLast item member] at isLast
    cases isLast
  ended hasEnded := by
    rw [open_] at hasEnded
    cases hasEnded
  recordedFirst usage member := by
    rw [emitted] at member
    exact absurd member (plain.uncompleted usage)
  unduplicated member := by
    rw [emitted] at member
    obtain ⟨event, -, same⟩ := List.mem_map.1 member
    cases same

theorem Settled.finished (plain : Plain deltas) {last : Option (Except P AiStreamEvent)}
    (isLast : isLast last = true)
    (provides : provided c.answered = (deltas.map fun event => some (.ok event)) ++ [last])
    (emitted : c.emitted = deltas.map .ok ++ emission ((recorded c.answered).map Prod.snd) last)
    (ends : c.pending = none → c.ended = true ∨
      (streamWithUsageLedger P L A reservation).next c.state = .ready (none, c.state))
    (called : recordCalls c = (completion last).toList.map reservation.settlement) :
    Settled reservation c where
  toRecordsOnce := .finished plain provides called
  emitted := by rw [emitted, provides, List.flatMap_append, plain.emission, List.flatMap_singleton]
  ends idle _ := ends idle
  ended _ := ⟨last, by rw [provides]; simp, isLast⟩
  recordedFirst usage member := by
    rw [emitted] at member
    rcases List.mem_append.1 member with among | settled
    · exact absurd among (plain.uncompleted usage)
    · obtain ⟨completed, accepted⟩ := emission_completed settled
      obtain ⟨⟨settlement, result⟩, isRecord, rfl⟩ := List.mem_map.1 accepted
      have isCall : settlement ∈ recordCalls c := by
        rw [recordCalls_eq]
        exact List.mem_append_left _ (List.mem_map_of_mem isRecord)
      rw [called, completed] at isCall
      rwa [List.mem_singleton.1 isCall] at isRecord
  unduplicated member := by
    rw [emitted] at member
    rcases List.mem_append.1 member with among | settled
    · obtain ⟨event, -, same⟩ := List.mem_map.1 among
      cases same
    · exact emission_unduplicated _ _ settled

theorem Phase.settles (phase : Phase reservation c) : Settled reservation c := by
  cases phase with
  | idle plain => exact .streaming plain rfl rfl rfl rfl
  | waiting plain => exact .streaming plain rfl rfl rfl rfl
  | recording plain usage =>
    have last : isLast (some (.ok (.completed usage)) : Option (Except P AiStreamEvent)) = true :=
      rfl
    refine .finished plain last (by simp) (by simp [emission]) (fun idle => by cases idle) ?_
    simp [recordCalls_eq, awaitedRecord, completion]
  | settled plain usage result ended =>
    have last : isLast (some (.ok (.completed usage)) : Option (Except P AiStreamEvent)) = true :=
      rfl
    refine .finished plain last (by simp) (by simp [emission])
      (fun _ => .inr (next_closedState reservation none)) ?_
    simp [recordCalls_eq, awaitedRecord, completion]
  | failed plain error ended =>
    have last : isLast (some (.error error) : Option (Except P AiStreamEvent)) = true := rfl
    refine .finished plain last (by simp) (by simp [emission])
      (fun _ => .inr (next_closedState reservation (some reservation))) ?_
    simp [recordCalls_eq, awaitedRecord, completion]
  | exhausted plain =>
    have last : isLast (none : Option (Except P AiStreamEvent)) = true := rfl
    refine .finished plain last (by simp) (by simp [emission]) (fun _ => .inl rfl) ?_
    simp [recordCalls_eq, awaitedRecord, completion]

end

/-! ## With an advisor -/

section

variable (reservation : AiUsageReservation)

abbrev AdvisedFuture (P L A : Type) (reservation : AiUsageReservation) : Type :=
  Future Op (Res P L A) (Option (Except (AdvisedUsageLedgerStreamError P L A) AiStreamEvent) ×
    (streamWithAdvisorAndUsageLedger P L A reservation).State)

/-- The state by what has come: `closed` once the provider's last event has, and `final` once
the last event is out. -/
def advisedState (closed : Bool) (unsettled : Option AiUsageReservation) (final : Bool) :
    (streamWithAdvisorAndUsageLedger P L A reservation).State :=
  (((((), closed), unsettled), ()), final)

def advised : Except A AiStreamEvent → Except (AdvisedUsageLedgerStreamError P L A) AiStreamEvent
  | .ok event => .ok event
  | .error error => .error (.advisor error)

def afterAdvice (closed : Bool) (unsettled : Option AiUsageReservation)
    (response : Except A AiStreamEvent) : AdvisedFuture P L A reservation :=
  .ready (some (advised response),
    advisedState reservation closed unsettled
      (isTerminal (advised response : Except (AdvisedUsageLedgerStreamError P L A) AiStreamEvent)))

def advisedAfterRecord (usage : Usage) : Except L Unit → AdvisedFuture P L A reservation
  | .ok () => .call (.onStreamEvent (.completed usage)) (afterAdvice reservation true none)
  | .error error =>
    .ready (some (.error (.usage (.ledger error))), advisedState reservation true none true)

def advisedAfterProvider : Option (Except P AiStreamEvent) → AdvisedFuture P L A reservation
  | none => .ready (none, advisedState reservation false (some reservation) false)
  | some (.error error) =>
    .ready (some (.error (.usage (.provider error))),
      advisedState reservation true (some reservation) true)
  | some (.ok (.completed usage)) =>
    .call (.recordUsage (reservation.settlement usage)) (advisedAfterRecord reservation usage)
  | some (.ok event) =>
    .call (.onStreamEvent event) (afterAdvice reservation false (some reservation))

theorem next_advisedOpen :
    (streamWithAdvisorAndUsageLedger P L A reservation).next
        (advisedState reservation false (some reservation) false) =
      .call .provider (advisedAfterProvider reservation) := by
  refine congrArg (Future.call Op.provider) (funext fun item => ?_)
  match item with
  | none => rfl
  | some (.error error) => rfl
  | some (.ok (.textDelta delta)) =>
    refine congrArg (Future.call (Op.onStreamEvent (.textDelta delta))) (funext fun response => ?_)
    cases response <;> rfl
  | some (.ok (.toolCall call)) =>
    refine congrArg (Future.call (Op.onStreamEvent (.toolCall call))) (funext fun response => ?_)
    cases response <;> rfl
  | some (.ok (.toolResult result)) =>
    refine congrArg (Future.call (Op.onStreamEvent (.toolResult result))) (funext fun response => ?_)
    cases response <;> rfl
  | some (.ok (.completed usage)) =>
    refine congrArg (Future.call (Op.recordUsage (reservation.settlement usage))) (funext fun result => ?_)
    cases result with
    | error error => rfl
    | ok value =>
      refine congrArg (Future.call (Op.onStreamEvent (.completed usage))) (funext fun response => ?_)
      cases response <;> rfl

/-- A stream whose last event has come, or is out, ends with the next poll. -/
theorem next_advisedClosed (closed : Bool) (unsettled : Option AiUsageReservation) (final : Bool)
    (last : closed = true ∨ final = true) :
    (streamWithAdvisorAndUsageLedger P L A reservation).next
        (advisedState reservation closed unsettled final) =
      .ready (none, advisedState reservation closed unsettled final) := by
  rcases last with rfl | rfl
  · cases final <;> rfl
  · rfl

/-- The provider has given these events and then, perhaps, one more; nothing is recorded but
this. -/
structure Log (answered : List (Σ op, Res P L A op)) (deltas : List AiStreamEvent)
    (last : List (Option (Except P AiStreamEvent)))
    (records : List (AiUsageSettlement × Except L Unit)) : Prop where
  plain : Plain deltas
  provides : provided answered = (deltas.map fun event => some (.ok event)) ++ last
  records : recorded answered = records

inductive AdvisedPhase : Consumer (streamWithAdvisorAndUsageLedger P L A reservation) → Prop where
  | streaming {deltas answered emitted} (log : Log answered deltas [] []) (final ended : Bool)
      (early : ended = true → final = true) :
      AdvisedPhase ⟨advisedState reservation false (some reservation) final, none, answered,
        emitted, ended⟩
  | waiting {deltas answered emitted} (log : Log answered deltas [] []) :
      AdvisedPhase ⟨advisedState reservation false (some reservation) false,
        some (.call .provider (advisedAfterProvider reservation)), answered, emitted, false⟩
  | advising {deltas answered emitted} (log : Log answered deltas [] []) (event : AiStreamEvent) :
      AdvisedPhase ⟨advisedState reservation false (some reservation) false,
        some (.call (.onStreamEvent event) (afterAdvice reservation false (some reservation))),
        answered, emitted, false⟩
  | exhausted {deltas answered emitted} (log : Log answered deltas [none] []) :
      AdvisedPhase ⟨advisedState reservation false (some reservation) false, none, answered,
        emitted, true⟩
  | failed {deltas answered emitted} (error : P)
      (log : Log answered deltas [some (.error error)] []) (ended : Bool) :
      AdvisedPhase ⟨advisedState reservation true (some reservation) true, none, answered,
        emitted, ended⟩
  | recording {deltas answered emitted} (usage : Usage)
      (log : Log answered deltas [some (.ok (.completed usage))] []) :
      AdvisedPhase ⟨advisedState reservation false (some reservation) false,
        some (.call (.recordUsage (reservation.settlement usage))
          (advisedAfterRecord reservation usage)), answered, emitted, false⟩
  | advisingLast {deltas answered emitted} (usage : Usage)
      (log : Log answered deltas [some (.ok (.completed usage))]
        [(reservation.settlement usage, .ok ())]) :
      AdvisedPhase ⟨advisedState reservation false (some reservation) false,
        some (.call (.onStreamEvent (.completed usage)) (afterAdvice reservation true none)),
        answered, emitted, false⟩
  | settled {deltas answered emitted} (usage : Usage) (result : Except L Unit)
      (log : Log answered deltas [some (.ok (.completed usage))]
        [(reservation.settlement usage, result)]) (final ended : Bool) :
      AdvisedPhase ⟨advisedState reservation true none final, none, answered, emitted, ended⟩

variable {reservation}

section

variable {answered : List (Σ op, Res P L A op)} {deltas : List AiStreamEvent}
  {last : List (Option (Except P AiStreamEvent))}
  {records : List (AiUsageSettlement × Except L Unit)}

theorem Log.delta (log : Log answered deltas [] records) {event : AiStreamEvent}
    (more : event.isCompleted = false) :
    Log (answered ++ [⟨.provider, some (.ok event)⟩]) (deltas ++ [event]) [] records where
  plain := log.plain.append more
  provides := by rw [provided_append, log.provides]; simp
  records := by rw [recorded_append, log.records]; simp

theorem Log.finish (log : Log answered deltas [] records) (item : Option (Except P AiStreamEvent)) :
    Log (answered ++ [⟨.provider, item⟩]) deltas [item] records where
  plain := log.plain
  provides := by rw [provided_append, log.provides]; simp
  records := by rw [recorded_append, log.records]; simp

theorem Log.record (log : Log answered deltas last records) (settlement : AiUsageSettlement)
    (result : Except L Unit) :
    Log (answered ++ [⟨.recordUsage settlement, result⟩]) deltas last
      (records ++ [(settlement, result)]) where
  plain := log.plain
  provides := by rw [provided_append, log.provides]; simp
  records := by rw [recorded_append, log.records]; simp

theorem Log.advise (log : Log answered deltas last records) (event : AiStreamEvent)
    (response : Except A AiStreamEvent) :
    Log (answered ++ [⟨.onStreamEvent event, response⟩]) deltas last records where
  plain := log.plain
  provides := by rw [provided_append, log.provides]; simp
  records := by rw [recorded_append, log.records]; simp

end

variable {c : Consumer (streamWithAdvisorAndUsageLedger P L A reservation)}

theorem AdvisedPhase.poll (phase : AdvisedPhase reservation c) (open_ : c.ended = false)
    (idle : c.pending = none) :
    AdvisedPhase reservation
      (c.advance ((streamWithAdvisorAndUsageLedger P L A reservation).next c.state)) := by
  cases phase with
  | streaming log final ended early =>
    cases final with
    | false =>
      rw [next_advisedOpen]
      cases open_
      exact .waiting log
    | true =>
      rw [next_advisedClosed reservation false _ true (.inr rfl)]
      exact .streaming log true true fun _ => rfl
  | waiting log => cases idle
  | advising log event => cases idle
  | exhausted log => cases open_
  | failed error log ended =>
    rw [next_advisedClosed reservation true _ true (.inl rfl)]
    exact .failed error log true
  | recording usage log => cases idle
  | advisingLast usage log => cases idle
  | settled usage result log final ended =>
    rw [next_advisedClosed reservation true _ final (.inl rfl)]
    exact .settled usage result log final true

theorem AdvisedPhase.answer {op : Op} {resume : Res P L A op → Future Op (Res P L A) _}
    (response : Res P L A op) (phase : AdvisedPhase reservation c)
    (waits : c.pending = some (.call op resume)) :
    AdvisedPhase reservation ((c.answer op response).advance (resume response)) := by
  cases phase with
  | streaming log final ended early => cases waits
  | waiting log =>
    cases waits
    match response with
    | none => exact .exhausted (log.finish none)
    | some (.error error) => exact .failed error (log.finish _) false
    | some (.ok (.textDelta delta)) => exact .advising (log.delta rfl) (.textDelta delta)
    | some (.ok (.toolCall call)) => exact .advising (log.delta rfl) (.toolCall call)
    | some (.ok (.toolResult result)) => exact .advising (log.delta rfl) (.toolResult result)
    | some (.ok (.completed usage)) => exact .recording usage (log.finish _)
  | advising log event =>
    cases waits
    exact .streaming (log.advise event response) _ false fun out => by cases out
  | exhausted log => cases waits
  | failed error log ended => cases waits
  | recording usage log =>
    cases waits
    match response with
    | .ok () => exact .advisingLast usage (log.record _ (.ok ()))
    | .error error => exact .settled usage _ (log.record _ (.error error)) true false
  | advisingLast usage log =>
    cases waits
    exact .settled usage (.ok ()) (log.advise _ response) _ false
  | settled usage result log final ended => cases waits

theorem advisedPhase_of_reaches {trace : List (Consumer.Input Op (Res P L A) × Unit)}
    (reached : (Consumer.machine (streamWithAdvisorAndUsageLedger P L A reservation)).Reaches c trace) :
    AdvisedPhase reservation c := by
  refine Consumer.invariant (I := AdvisedPhase reservation) ?_ ?_ ?_ reached
  · have empty : Log ([] : List (Σ op, Res P L A op)) [] [] [] :=
      ⟨fun event member => absurd member List.not_mem_nil, rfl, rfl⟩
    exact .streaming empty false false fun out => by cases out
  · intro c phase open_ idle
    exact phase.poll open_ idle
  · intro c op resume response phase waits
    exact phase.answer response waits

theorem AdvisedPhase.recordsOnce (phase : AdvisedPhase reservation c) : RecordsOnce reservation c := by
  cases phase with
  | streaming log final ended early =>
    exact .streaming log.plain (by simpa using log.provides)
      (by simp [recordCalls_eq, awaitedRecord, log.records])
  | waiting log =>
    exact .streaming log.plain (by simpa using log.provides)
      (by simp [recordCalls_eq, awaitedRecord, log.records])
  | advising log event =>
    exact .streaming log.plain (by simpa using log.provides)
      (by simp [recordCalls_eq, awaitedRecord, log.records])
  | exhausted log =>
    exact .finished log.plain log.provides
      (by simp [recordCalls_eq, awaitedRecord, log.records, completion])
  | failed error log ended =>
    exact .finished log.plain log.provides
      (by simp [recordCalls_eq, awaitedRecord, log.records, completion])
  | recording usage log =>
    exact .finished log.plain log.provides
      (by simp [recordCalls_eq, awaitedRecord, log.records, completion])
  | advisingLast usage log =>
    exact .finished log.plain log.provides
      (by simp [recordCalls_eq, awaitedRecord, log.records, completion])
  | settled usage result log final ended =>
    exact .finished log.plain log.provides
      (by simp [recordCalls_eq, awaitedRecord, log.records, completion])

end

/-! ## Every consumer -/

/-- Whatever the provider, the ledger and the advisor answer and wherever the consumer stops:
the stream is settled before it completes, and with an advisor the provider's own usage is
what is recorded. -/
theorem stream_settlement (P L A : Type) (reservation : AiUsageReservation) :
    (∀ c trace, (Consumer.machine (streamWithUsageLedger P L A reservation)).Reaches c trace →
      Settled reservation c) ∧
    (∀ c trace,
      (Consumer.machine (streamWithAdvisorAndUsageLedger P L A reservation)).Reaches c trace →
      RecordsOnce reservation c) :=
  ⟨fun _ _ reached => (phase_of_reaches reached).settles,
    fun _ _ reached => (advisedPhase_of_reaches reached).recordsOnce⟩

/-- A reservation of one question. -/
def oneQuestion : AiUsageReservation :=
  ⟨⟨"globex", "eve", by decide, by decide⟩, "order-12", ⟨"support", 5, 0, 0⟩⟩

/-- Answers that accept every record and leave every event as it is. -/
def accepting (item : Option (Except Unit AiStreamEvent)) : ∀ op, Res Unit Unit Unit op
  | .provider => item
  | .recordUsage _ => .ok ()
  | .onStreamEvent event => .ok event

/-- A delta and two completions of the provider: both streams record the first completion and
end after it. -/
def deltaThenCompletions : List (Consumer.Input Op (Res Unit Unit Unit)) :=
  [.poll, .answer (accepting (some (.ok (.textDelta "hi")))), .poll,
    .answer (accepting (some (.ok (.completed ⟨12, 34⟩)))),
    .answer (accepting (some (.ok (.completed ⟨99, 99⟩)))), .poll]

theorem stream_settlement_deltaThenCompletions :
    ∃ c trace, (Consumer.machine (streamWithUsageLedger Unit Unit Unit oneQuestion)).Reaches c trace ∧
      c.ended = true ∧ c.emitted.length = 2 ∧
      recordCalls c = [oneQuestion.settlement ⟨12, 34⟩] ∧ Settled oneQuestion c := by
  obtain ⟨c, trace, reached, ended, emitted, called⟩ := Machine.exists_run_exec
    (Consumer.machine (streamWithUsageLedger Unit Unit Unit oneQuestion)) (fun _ _ _ => True) rfl
    deltaThenCompletions
    (fun c _ => c.ended = true ∧ c.emitted.length = 2 ∧
      recordCalls c = [oneQuestion.settlement ⟨12, 34⟩]) (by decide)
  exact ⟨c, trace, reached, ended, emitted, called,
    (stream_settlement Unit Unit Unit oneQuestion).1 c trace reached⟩

end StreamSettlement

end Rustee.Ai
