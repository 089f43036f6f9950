/-
# Rustee.Kafka.Consumer -- what a committed offset stands for

`KafkaEventConsumer::run_until` and `run_with_failure_routing` handle records one at a
time and commit each with `commit_message`, which covers every lower offset of the
partition.  Both take `&self`: when a call has returned, with an error or without, the
application may make another one on the same value, and the client goes on behind the last
record it handed out.

So a record that an error exit left unsettled is stepped over by the next call, and the
next commit covers it (`commit_over_failure`).  What holds is the statement for consumers
that never receive a record past one they left behind (`commit_safety`), as when every
error is followed by a reassignment of the partition, which takes the client back to the
committed offset.
-/
import Rustee.Foundation.Machine
import Rustee.Kafka.Record
import Mathlib.Order.Nat

namespace Rustee.Kafka.Consumer

open Rustee.Foundation

set_option autoImplicit false

/-! ## The consumer -/

/-- What happens around one record: decoding, the handler, the failure router, and the
commit request, whose offset may be stored although the confirmation is lost. -/
structure Circumstances where
  decodes : Bool
  handles : Bool
  routes : FailureOrigin → KafkaFailureKind → Nat → Except KafkaError KafkaRetryAction
  stored : Bool
  confirmed : Bool
  confirmed_stored : confirmed = true → stored = true

inductive EventDeliveryOutcome where
  | acknowledged
  | retried
  | deadLettered
  deriving DecidableEq, Repr

inductive Mode where
  | idle
  | runUntil
  | runWithFailureRouting
  deriving DecidableEq, Repr

abbrev Partition := String × Int

def Record.source (record : Record) : Partition := (record.topic, record.partition)

/-- The body of the loop of `run_until`, up to the commit. -/
def deliver (record : Record) (around : Circumstances) : Except KafkaError EventDeliveryOutcome :=
  if record.payload = none then .error .missingPayload
  else if around.decodes = false then .error .decode
  else if around.handles = false then .error .handler
  else .ok .acknowledged

/-- The outcome of a route that went through. -/
def routedOutcome : KafkaRetryAction → EventDeliveryOutcome
  | .retry _ => .retried
  | .deadLetter => .deadLettered

/-- The body of the loop of `run_with_failure_routing`, up to the commit. -/
def deliverOrRoute (record : Record) (around : Circumstances) :
    Except KafkaError EventDeliveryOutcome := do
  let attempt ← retryAttempt record
  if record.payload = none then throw .missingPayload
  if around.decodes = true ∧ around.handles = true then return .acknowledged
  let failure := if around.decodes then KafkaFailureKind.handler else KafkaFailureKind.decode
  let origin ← FailureOrigin.fromMessage record
  let action ← around.routes origin failure attempt
  return routedOutcome action

structure State where
  mode : Mode
  /-- The next offset the client hands out, for each partition. -/
  position : Partition → Nat
  /-- The group's offset: everything below it is committed. -/
  committed : Partition → Nat

inductive Input where
  | callRunUntil
  | callRunWithFailureRouting (retryTopic deadLetterTopic : String)
  | shutdown
  | receiveError
  | receive (record : Record) (around : Circumstances)
  /-- The partition is assigned anew, from the committed offset. -/
  | reassign (source : Partition)

inductive Output where
  | running
  | returned (result : Except KafkaError Unit)
  /-- A record was received; its offset was stored, unless it was left unsettled; and the
  call went on or returned an error. -/
  | received (result : Except KafkaError EventDeliveryOutcome) (stored : Bool)
      (exit : Option KafkaError)

/-- One step of a consumer of `topic`, subscribed to `topics`. -/
def step (topic : String) (topics : List String) (s : State) : Input → Option (State × Output)
  | .callRunUntil =>
    if s.mode = .idle then some ({ s with mode := .runUntil }, .running) else none
  | .callRunWithFailureRouting retryTopic deadLetterTopic =>
    if s.mode = .idle then
      match validateFailureRouteTopics topic topics retryTopic deadLetterTopic with
      | .ok () => some ({ s with mode := .runWithFailureRouting }, .running)
      | .error error => some (s, .returned (.error error))
    else none
  | .shutdown =>
    if s.mode = .idle then none else some ({ s with mode := .idle }, .returned (.ok ()))
  | .receiveError =>
    if s.mode = .idle then none
    else some ({ s with mode := .idle }, .returned (.error .receive))
  | .receive record around =>
    let source := Record.source record
    -- offset order, without repetition
    if s.mode = .idle ∨ record.offset < s.position source then none
    else
      let result := if s.mode = .runUntil then deliver record around else deliverOrRoute record around
      let s := { s with position := Function.update s.position source (record.offset + 1) }
      match result with
      | .error error => some ({ s with mode := .idle }, .received result false (some error))
      | .ok _ =>
        let committed := if around.stored then
            Function.update s.committed source (record.offset + 1)
          else s.committed
        if around.confirmed then
          some ({ s with committed }, .received result around.stored none)
        else
          some ({ s with committed, mode := .idle },
            .received result around.stored (some .commit))
  | .reassign source =>
    some ({ s with position := Function.update s.position source (s.committed source) }, .running)

/-- The consumer, with the group's offsets wherever they are. -/
def consumer (topic : String) (topics : List String) : Machine State Input Output where
  initial s := s.mode = .idle ∧ s.position = s.committed
  step := step topic topics

/-! ## What a run did -/

/-- The offset of `source` that this entry received. -/
def receivedIn (source : Partition) : Input × Output → Option Nat
  | (.receive record _, .received ..) =>
    if Record.source record = source then some record.offset else none
  | _ => none

/-- The offset of `source` that this entry settled: the handler succeeded, or the record was
routed to the retry or the dead-letter path. -/
def settledIn (source : Partition) : Input × Output → Option Nat
  | (.receive record _, .received (.ok _) _ _) =>
    if Record.source record = source then some record.offset else none
  | _ => none

/-- The offset of `source` that this entry committed. -/
def committedIn (source : Partition) : Input × Output → Option Nat
  | (.receive record _, .received _ true _) =>
    if Record.source record = source then some record.offset else none
  | _ => none

/-- Every record this consumer received below the next one is settled. -/
def leavesNothingBehind (trace : List (Input × Output)) : Input → Bool
  | .receive record _ =>
    (trace.filterMap (receivedIn (Record.source record))).all fun offset =>
      record.offset ≤ offset ∨ offset ∈ trace.filterMap (settledIn (Record.source record))
  | _ => true

/-! ## What a step can do -/

variable {topic : String} {topics : List String} {s after : State} {output : Output}

/-- A received record: it is not behind the position, and its offset is stored only when it
is settled. -/
theorem receive_effect {record : Record} {around : Circumstances}
    (stepped : step topic topics s (.receive record around) = some (after, output)) :
    ∃ result stored exit, output = .received result stored exit ∧
      s.position (Record.source record) ≤ record.offset ∧
      after.position = Function.update s.position (Record.source record) (record.offset + 1) ∧
      after.committed = (if stored = true then
        Function.update s.committed (Record.source record) (record.offset + 1) else s.committed) ∧
      (stored = true → ∃ outcome, result = .ok outcome) := by
  simp only [step] at stepped
  split at stepped
  · cases stepped
  · rename_i started
    have order : s.position (Record.source record) ≤ record.offset := by
      by_contra behind
      exact started (.inr (by omega))
    generalize (if s.mode = .runUntil then deliver record around else deliverOrRoute record around) =
      result at stepped
    cases result with
    | error error =>
      cases stepped
      exact ⟨_, _, _, rfl, order, rfl, rfl, fun stored => by cases stored⟩
    | ok outcome =>
      simp only at stepped
      split at stepped
      · cases stepped
        exact ⟨_, _, _, rfl, order, rfl, rfl, fun _ => ⟨outcome, rfl⟩⟩
      · cases stepped
        exact ⟨_, _, _, rfl, order, rfl, rfl, fun _ => ⟨outcome, rfl⟩⟩

/-- Every other step receives nothing, and moves a position at most back to the committed
offset. -/
theorem other_effect {input : Input} (other : ∀ record around, input ≠ .receive record around)
    (stepped : step topic topics s input = some (after, output)) :
    after.committed = s.committed ∧
      (∀ source, after.position source = s.position source ∨
        after.position source = s.committed source) ∧
      ∀ source, receivedIn source (input, output) = none ∧ committedIn source (input, output) = none := by
  cases input with
  | callRunUntil | shutdown | receiveError =>
    simp only [step] at stepped
    split at stepped <;> cases stepped
    exact ⟨rfl, fun _ => .inl rfl, fun _ => ⟨rfl, rfl⟩⟩
  | callRunWithFailureRouting retryTopic deadLetterTopic =>
    simp only [step] at stepped
    split at stepped
    · split at stepped <;> cases stepped <;>
        exact ⟨rfl, fun _ => .inl rfl, fun _ => ⟨rfl, rfl⟩⟩
    · cases stepped
  | receive record around => exact absurd rfl (other record around)
  | reassign source =>
    simp only [step, Option.some.injEq, Prod.mk.injEq] at stepped
    obtain ⟨rfl, rfl⟩ := stepped
    refine ⟨rfl, fun other => ?_, fun _ => ⟨rfl, rfl⟩⟩
    by_cases same : other = source
    · subst same
      exact .inr (Function.update_self ..)
    · exact .inl (Function.update_of_ne same ..)

/-! ## Safety -/

structure Safe (s : State) (trace : List (Input × Output)) : Prop where
  /-- The client is never behind the group. -/
  ahead : ∀ source, s.committed source ≤ s.position source
  below : ∀ source, ∀ n ∈ trace.filterMap (committedIn source), n < s.committed source
  settled : ∀ source, ∀ n ∈ trace.filterMap (committedIn source),
    ∀ offset ∈ trace.filterMap (receivedIn source), offset ≤ n →
      offset ∈ trace.filterMap (settledIn source)

theorem mem_filterMap_append {f : Input × Output → Option Nat} {trace : List (Input × Output)}
    {entry : Input × Output} {n : Nat} :
    n ∈ (trace ++ [entry]).filterMap f ↔ n ∈ trace.filterMap f ∨ f entry = some n := by
  simp [List.filterMap_append]

theorem Safe.other {trace : List (Input × Output)} {input : Input} (safe : Safe s trace)
    (other : ∀ record around, input ≠ .receive record around)
    (stepped : step topic topics s input = some (after, output)) :
    Safe after (trace ++ [(input, output)]) := by
  obtain ⟨committed, position, silent⟩ := other_effect other stepped
  refine ⟨fun source => ?_, fun source n member => ?_, fun source n member offset received le => ?_⟩
  · rw [committed]
    rcases position source with same | back
    · rw [same]; exact safe.ahead source
    · rw [back]
  · rw [mem_filterMap_append, (silent source).2] at member
    rw [committed]
    exact safe.below source n (member.resolve_right nofun)
  · rw [mem_filterMap_append, (silent source).2] at member
    rw [mem_filterMap_append, (silent source).1] at received
    exact mem_filterMap_append.2
      (.inl (safe.settled source n (member.resolve_right nofun) offset
        (received.resolve_right nofun) le))

/-- The record that is committed and everything received below it is settled, and what was
committed before lies below the record. -/
theorem Safe.receive {topic : String} {topics : List String} {s after : State}
    {trace : List (Input × Output)} {record : Record} {around : Circumstances} {output : Output}
    (safe : Safe s trace) (admitted : leavesNothingBehind trace (.receive record around) = true)
    (stepped : step topic topics s (.receive record around) = some (after, output)) :
    Safe after (trace ++ [(.receive record around, output)]) := by
  obtain ⟨result, stored, exit, rfl, order, position, committed, settles⟩ := receive_effect stepped
  have low := (safe.ahead (Record.source record)).trans order
  refine ⟨fun source => ?_, fun source n member => ?_, fun source n member offset received le => ?_⟩
  · rw [position, committed]
    by_cases same : source = Record.source record
    · subst same
      split
      · simp
      · rw [Function.update_self]; omega
    · rw [Function.update_of_ne same]
      split
      · rw [Function.update_of_ne same]; exact safe.ahead source
      · exact safe.ahead source
  · rw [committed]
    rcases mem_filterMap_append.1 member with old | new
    · have := safe.below source n old
      split
      · by_cases same : source = Record.source record
        · subst same
          rw [Function.update_self]; omega
        · rw [Function.update_of_ne same]; exact this
      · exact this
    · cases stored with
      | false => cases new
      | true =>
        simp only [committedIn] at new
        split at new
        · rename_i same
          subst same
          cases new
          simp
        · cases new
  · rw [mem_filterMap_append] at member received ⊢
    simp only [receivedIn] at received
    rcases received with earlier | now
    · rcases member with old | new
      · exact .inl (safe.settled source n old offset earlier le)
      · cases stored with
        | false => cases new
        | true =>
          obtain ⟨outcome, rfl⟩ := settles rfl
          simp only [committedIn, settledIn] at new ⊢
          split at new
          · rename_i same
            subst same
            cases new
            -- the record itself, or one below it that was not left behind
            rcases Nat.lt_or_eq_of_le le with below | rfl
            · simp only [leavesNothingBehind, List.all_eq_true, decide_eq_true_eq] at admitted
              exact .inl ((admitted offset earlier).resolve_left (by omega))
            · exact .inr (if_pos rfl)
          · cases new
    · split at now
      · rename_i same
        subst same
        cases now
        rcases member with old | new
        · have := safe.below _ n old
          omega
        · cases stored with
          | false => cases new
          | true =>
            obtain ⟨outcome, rfl⟩ := settles rfl
            exact .inr (if_pos rfl)
      · cases now

/-- **Commit safety.**  In every run that receives no record past one it left unsettled,
whenever an offset is committed, every record of the partition up to it that this consumer
received was handled successfully or routed. -/
theorem commit_safety (topic : String) (topics : List String) (s : State)
    (trace : List (Input × Output))
    (run : (consumer topic topics).Run (fun _ trace input => leavesNothingBehind trace input) s trace)
    (source : Partition) (n : Nat) (committed : n ∈ trace.filterMap (committedIn source))
    (offset : Nat) (received : offset ∈ trace.filterMap (receivedIn source)) (le : offset ≤ n) :
    offset ∈ trace.filterMap (settledIn source) := by
  have safe : Safe s trace := by
    refine run.invariant ?_ ?_
    · rintro s ⟨-, position⟩
      exact ⟨fun source => by rw [position], nofun, nofun⟩
    · intro before after trace input output _ safe admitted stepped
      change step topic topics before input = some (after, output) at stepped
      cases input with
      | receive record around => exact safe.receive admitted stepped
      | _ => exact safe.other (fun _ _ => nofun) stepped
  exact safe.settled source n committed offset received le

/-! ## After an error -/

def paid (offset : Nat) : Record where
  topic := "orders.paid"
  partition := 0
  offset := offset
  key := none
  payload := some [123, 125]
  headers := []

def succeeds : Circumstances :=
  ⟨true, true, fun _ _ _ => .ok .deadLetter, true, true, fun _ => rfl⟩

def handlerFails : Circumstances :=
  ⟨true, false, fun _ _ _ => .ok .deadLetter, true, true, fun _ => rfl⟩

def atStart : State := ⟨.idle, fun _ => 0, fun _ => 0⟩

theorem atStart_initial (topic : String) (topics : List String) :
    (consumer topic topics).initial atStart := ⟨rfl, rfl⟩

/-- The handler fails for offset 0; the partition is reassigned; the next call starts over. -/
def reassigned : List Input :=
  [.callRunUntil, .receive (paid 0) handlerFails, .reassign ("orders.paid", 0), .callRunUntil,
    .receive (paid 0) succeeds, .receive (paid 1) succeeds]

theorem commit_safety_reassigned :
    ∃ s trace, (consumer "orders.paid" ["orders.paid"]).Run
        (fun _ trace input => leavesNothingBehind trace input) s trace ∧
      1 ∈ trace.filterMap (committedIn ("orders.paid", 0)) ∧
      0 ∈ trace.filterMap (receivedIn ("orders.paid", 0)) ∧
      0 ∈ trace.filterMap (settledIn ("orders.paid", 0)) := by
  obtain ⟨s, trace, run, committed, received⟩ := Machine.exists_run_exec
    (consumer "orders.paid" ["orders.paid"]) (fun _ trace input => leavesNothingBehind trace input)
    (atStart_initial _ _) reassigned
    (fun _ trace => 1 ∈ trace.filterMap (committedIn ("orders.paid", 0)) ∧
      0 ∈ trace.filterMap (receivedIn ("orders.paid", 0))) (by decide)
  exact ⟨s, trace, run, committed, received,
    commit_safety _ _ s trace run _ 1 committed 0 received (by decide)⟩

/-- The handler fails for offset 0 and the call returns the error; a second call on the same
value goes on with offset 1 and commits it. -/
def calledAgain : List Input :=
  [.callRunUntil, .receive (paid 0) handlerFails, .callRunUntil, .receive (paid 1) succeeds]

theorem commit_over_failure :
    ∃ s trace, (consumer "orders.paid" ["orders.paid"]).Reaches s trace ∧
      1 ∈ trace.filterMap (committedIn ("orders.paid", 0)) ∧
      0 ∈ trace.filterMap (receivedIn ("orders.paid", 0)) ∧
      0 ∉ trace.filterMap (settledIn ("orders.paid", 0)) := by
  exact Machine.exists_run_exec (consumer "orders.paid" ["orders.paid"]) (fun _ _ _ => True)
    (atStart_initial _ _) calledAgain
    (fun _ trace => 1 ∈ trace.filterMap (committedIn ("orders.paid", 0)) ∧
      0 ∈ trace.filterMap (receivedIn ("orders.paid", 0)) ∧
      0 ∉ trace.filterMap (settledIn ("orders.paid", 0))) (by decide)

end Rustee.Kafka.Consumer
