/-
# Rustee.Kafka.RetryChain -- a failing record from its first delivery to its dead letter

`rustee-events-kafka/src/failure/publisher.rs` writes the metadata that `failure/metadata.rs` reads:
decimal numbers and a topic, one header each.  A record that `Carries` an origin and an attempt is
routed to one that carries the same origin and the next attempt (`process_carries`), so the chain of a
record whose processing always fails has as many deliveries as its budget, and its last record is the
only dead letter (`retry_chain`).

The delayed router stages no empty or oversized record, and a record without a payload is not
processed at all; those have no chain (`empty_payload_unrouted`).
-/
import Rustee.Foundation.Text
import Rustee.Foundation.Decimal
import Rustee.Kafka.Consumer
import Rustee.Kafka.DelayedRetry
import Mathlib.Algebra.Group.Nat.Defs

namespace Rustee.Kafka

open Rustee.Foundation DelayedRetry

set_option autoImplicit false

/-! ## Writing -/

def failureKindHeader : String := "rustee-event-failure-kind"

/-- `KafkaFailureKind::as_str`. -/
def KafkaFailureKind.asStr : KafkaFailureKind → String
  | .decode => "decode"
  | .handler => "handler"

/-- `failure_headers`. -/
def failureHeaders (attempt : Nat) (failure : KafkaFailureKind) (origin : FailureOrigin) :
    List (String × HeaderValue) :=
  [(retryAttemptHeader, .text (Nat.repr attempt)), (failureKindHeader, .text failure.asStr),
    (originTopicHeader, .text origin.topic),
    (originPartitionHeader, .text (Nat.repr origin.partition)),
    (originOffsetHeader, .text (Nat.repr origin.offset))]

/-- A record for the producer. -/
structure FutureRecord where
  topic : String
  key : Option (List UInt8)
  payload : List UInt8
  headers : List (String × HeaderValue)
  deriving DecidableEq

/-- The record as a consumer receives it, from where the broker put it. -/
def FutureRecord.received (record : FutureRecord) (partition offset : Nat) : Record :=
  ⟨record.topic, partition, offset, record.key, some record.payload, record.headers⟩

/-- `KafkaFailurePublisher::route`, up to the broker's answer. -/
def publisherRoute (config : KafkaRetryConfig) (record : Record) (origin : FailureOrigin)
    (failure : KafkaFailureKind) (attempt : Nat) :
    Except KafkaError (KafkaRetryAction × FutureRecord) :=
  let action := config.afterFailure attempt
  let target := match action with
    | .retry _ => config.retryTopic
    | .deadLetter => config.deadLetterTopic
  let nextAttempt := match action with
    | .retry nextAttempt => nextAttempt
    | .deadLetter => attempt
  match record.payload with
  | none => .error .missingPayload
  | some payload =>
    .ok (action, ⟨target, record.key, payload, failureHeaders nextAttempt failure origin⟩)

/-- `publish_delayed_retry`. -/
def publishDelayedRetry (retry : RetryMessage) : FutureRecord :=
  ⟨retry.retryTopic, retry.eventKey, retry.payload,
    failureHeaders retry.retryAttempt retry.failureKind retry.origin⟩

/-! ## Following a record -/

inductive Routing where
  | publisher
  | delayed (delay : KafkaDelayedRetryDelay)

/-- Of one delivery: how processing fails and where the broker puts the record that is written;
and what the delayed router finds, its table, the time and the id it draws. -/
structure Surroundings where
  failure : KafkaFailureKind
  partition : Nat
  offset : Nat
  rows : List RetryRow
  now : Int
  id : Nat

structure Delivery where
  record : Record
  attempt : Nat
  origin : FailureOrigin
  action : KafkaRetryAction
  written : Record
  deriving DecidableEq

section

variable (config : KafkaRetryConfig) (routing : Routing)

/-- The delayed router, and the relay that publishes the row of this origin and attempt. -/
def delayedRoute (delay : KafkaDelayedRetryDelay) (around : Surroundings) (record : Record)
    (origin : FailureOrigin) (origin_ok : FailureOrigin.fromMessage record = .ok origin)
    (attempt : Nat) : Except KafkaError (KafkaRetryAction × FutureRecord) :=
  match route around.rows around.now
      ⟨⟨config, delay⟩, record, origin, around.failure, attempt, around.id, .answered, true,
        origin_ok⟩ with
  | (_, .error error) => .error error
  | (_, .ok .deadLetter) => publisherRoute config record origin around.failure attempt
  | (rows, .ok (.retry nextAttempt)) =>
    match rows.find? fun row => row.message.conflictKey = (origin, nextAttempt) with
    | none => .error .failureRoute
    | some row =>
      match Relay.retryFromRow row.message with
      | .error error => .error error
      | .ok retry => .ok (.retry nextAttempt, publishDelayedRetry retry)

/-- The route that a failed delivery takes. -/
def routed (around : Surroundings) (record : Record) (origin : FailureOrigin)
    (origin_ok : FailureOrigin.fromMessage record = .ok origin) (attempt : Nat) :
    Except KafkaError (KafkaRetryAction × FutureRecord) :=
  match routing with
  | .publisher => publisherRoute config record origin around.failure attempt
  | .delayed delay => delayedRoute config delay around record origin origin_ok attempt

/-- One delivery of a record whose processing fails: the body of `run_with_failure_routing`. -/
def process (around : Surroundings) (record : Record) : Except KafkaError Delivery :=
  match retryAttempt record with
  | .error error => .error error
  | .ok attempt =>
    if record.payload = none then .error .missingPayload
    else
      match origin_ok : FailureOrigin.fromMessage record with
      | .error error => .error error
      | .ok origin =>
        match routed config routing around record origin origin_ok attempt with
        | .error error => .error error
        | .ok (action, written) =>
          .ok ⟨record, attempt, origin, action,
            written.received around.partition around.offset⟩

/-- The deliveries of a record and of the records written for it, up to the dead letter or to the
end of the fuel.  The surroundings of the `k`-th delivery are `arounds k`. -/
def follow (arounds : Nat → Surroundings) : Nat → Nat → Record → Except KafkaError (List Delivery)
  | 0, _, _ => .ok []
  | fuel + 1, k, record =>
    match process config routing (arounds k) record with
    | .error error => .error error
    | .ok delivery =>
      match delivery.action with
      | .deadLetter => .ok [delivery]
      | .retry _ => (follow arounds fuel (k + 1) delivery.written).map (delivery :: ·)

end

section

variable {config : KafkaRetryConfig} {routing : Routing} {around : Surroundings} {record : Record}

/-- A record whose metadata can be read goes the way of its route. -/
theorem process_eq {attempt : Nat} {origin : FailureOrigin}
    (isAttempt : retryAttempt record = .ok attempt) (present : record.payload ≠ none)
    (isOrigin : FailureOrigin.fromMessage record = .ok origin) :
    process config routing around record =
      (routed config routing around record origin isOrigin attempt).map fun written =>
        ⟨record, attempt, origin, written.1,
          written.2.received around.partition around.offset⟩ := by
  simp only [process, isAttempt, if_neg present]
  split
  · rename_i refused
    cases isOrigin.symm.trans refused
  · rename_i found isFound
    cases isOrigin.symm.trans isFound
    split <;> rename_i wrote <;> rw [wrote] <;> rfl

/-- A delivery of the chain is a delivery of the consumer's loop. -/
theorem deliverOrRoute_eq_process {circumstances : Consumer.Circumstances}
    (fails : ¬(circumstances.decodes = true ∧ circumstances.handles = true))
    (isFailure : around.failure = if circumstances.decodes then .handler else .decode)
    (routes : circumstances.routes = fun origin failure attempt =>
      (publisherRoute config record origin failure attempt).map Prod.fst) :
    Consumer.deliverOrRoute record circumstances =
      (process config .publisher around record).map fun delivery =>
        Consumer.routedOutcome delivery.action := by
  cases isAttempt : retryAttempt record with
  | error error => simp [Consumer.deliverOrRoute, process, isAttempt, bind, Except.bind, Except.map]
  | ok attempt =>
    by_cases absent : record.payload = none
    · simp [Consumer.deliverOrRoute, process, isAttempt, absent, bind, Except.bind, throw,
        throwThe, MonadExceptOf.throw, Except.map]
    · cases isOrigin : FailureOrigin.fromMessage record with
      | error error =>
        have refused : process config .publisher around record = .error error := by
          simp only [process, isAttempt, if_neg absent]
          split <;> rename_i found <;> cases isOrigin.symm.trans found
          rfl
        rw [refused]
        simp [Consumer.deliverOrRoute, isAttempt, absent, fails, isOrigin, bind, Except.bind,
          Except.map]
      | ok origin =>
        rw [process_eq isAttempt absent isOrigin]
        simp only [Consumer.deliverOrRoute, isAttempt, absent, fails, isOrigin, routes,
          ← isFailure, routed, bind, Except.bind, pure, Except.pure, if_false]
        cases publisherRoute config record origin around.failure attempt <;> rfl

end

/-! ## Decimal texts -/

theorem digits_eq_ofDigitChars {chars : List Char} (some_ : chars ≠ [])
    (each : ∀ c ∈ chars, c.isDigit = true) :
    digits chars = some (Nat.ofDigitChars 10 chars 0) := by
  have fold : ∀ (chars : List Char) (start : Nat), (∀ c ∈ chars, c.isDigit = true) →
      chars.foldl (fun value c => value.bind fun n =>
        if '0' ≤ c ∧ c ≤ '9' then some (n * 10 + (c.toNat - '0'.toNat)) else none) (some start) =
      some (Nat.ofDigitChars 10 chars start) := by
    intro chars
    induction chars with
    | nil => intro start _; rfl
    | cons c rest ih =>
      intro start each
      have isDigit : '0' ≤ c ∧ c ≤ '9' := by
        have digit := each c List.mem_cons_self
        simpa [Char.isDigit, Char.le_def] using digit
      rw [List.foldl_cons, Option.bind_some, if_pos isDigit,
        ih _ fun d among => each d (List.mem_cons_of_mem c among), Nat.ofDigitChars_cons,
        Nat.mul_comm]
  cases chars with
  | nil => exact absurd rfl some_
  | cons c rest => exact fold (c :: rest) 0 each

theorem digits_repr (n : Nat) : digits (Nat.repr n).toList = some n := by
  rw [digits_eq_ofDigitChars (by simp) (repr_digits n), Nat.toList_repr,
    Nat.ofDigitChars_ten_toDigits]

/-- It starts with a digit, so neither with a sign nor with white space. -/
theorem repr_cons (n : Nat) : ∃ c rest, (Nat.repr n).toList = c :: rest ∧ c.isDigit = true := by
  cases isText : (Nat.repr n).toList with
  | nil => simp at isText
  | cons c rest => exact ⟨c, rest, rfl, repr_digits n c (isText ▸ List.mem_cons_self)⟩

variable {n attempt : Nat} {record source : Record} {failure : KafkaFailureKind} {origin : FailureOrigin}

theorem parseU16_repr (fits : n ≤ 65535) : parseU16 (Nat.repr n) = some n := by
  obtain ⟨c, rest, isText, isDigit⟩ := repr_cons n
  have value := digits_repr n
  rw [isText] at value
  have unsigned : c ≠ '+' := by
    rintro rfl
    simp at isDigit
  have read : parseU16 (Nat.repr n) = (digits (c :: rest)).filter fun n => n ≤ 65535 := by
    unfold parseU16
    rw [isText]
    split
    · rename_i same
      exact absurd (List.cons.inj same).1 unsigned
    · rfl
  rw [read, value]
  simp [fits]

theorem parseNonNegative_repr {max : Int} (fits : (n : Int) ≤ max) :
    parseNonNegative max (Nat.repr n) = .ok n := by
  obtain ⟨c, rest, isText, isDigit⟩ := repr_cons n
  have value := digits_repr n
  rw [isText] at value
  have notPlus : c ≠ '+' := by
    rintro rfl
    simp at isDigit
  have notMinus : c ≠ '-' := by
    rintro rfl
    simp at isDigit
  unfold parseNonNegative
  rw [isText]
  split
  · rename_i same
    exact absurd (List.cons.inj same).1 notPlus
  · rename_i same
    exact absurd (List.cons.inj same).1 notMinus
  · simp only [value]
    exact if_pos fits

theorem toNat_of_isDigit {c : Char} (isDigit : c.isDigit = true) :
    48 ≤ c.toNat ∧ c.toNat ≤ 57 := by
  simp only [Char.isDigit, Bool.and_eq_true, decide_eq_true_eq] at isDigit
  exact isDigit

/-- A decimal text of at most twenty digits passes the test on header texts. -/
theorem repr_headerText (short : n < 10 ^ 20) :
    isBlank (Nat.repr n) = false ∧ byteLen (Nat.repr n) ≤ 255 := by
  constructor
  · obtain ⟨c, rest, isText, isDigit⟩ := repr_cons n
    obtain ⟨low, high⟩ := toNat_of_isDigit isDigit
    have dark : ¬isWhitespace c = true := by
      simp only [isWhitespace, Bool.or_eq_true, Bool.and_eq_true, decide_eq_true_eq, beq_iff_eq]
      omega
    simp [isBlank, isText, dark]
  · have ascii : ∀ c ∈ Nat.toDigits 10 n, c.utf8Size = 1 := by
      intro c among
      obtain ⟨-, high⟩ :=
        toNat_of_isDigit (Nat.isDigit_of_mem_toDigits (by decide) (by decide) among)
      rw [Char.utf8Size_eq_one_iff, UInt32.le_iff_toNat_le]
      exact high.trans (by decide)
    have length : (Nat.toDigits 10 n).length ≤ 20 :=
      (Nat.length_toDigits_le_iff (by decide) (by decide)).2 short
    rw [Nat.repr_eq_ofList_toDigits, byteLen_ofList ascii]
    omega

/-! ## Reading back -/

/-- An origin that its own numbers' types can hold and whose topic is valid. -/
structure FailureOrigin.Valid (origin : FailureOrigin) : Prop where
  topic : validateTopicName origin.topic = true
  partition : (origin.partition : Int) ≤ i32Max
  offset : (origin.offset : Int) ≤ i64Max

theorem validTopic_headerText {topic : String} (valid : validateTopicName topic = true) :
    isBlank topic = false ∧ byteLen topic ≤ 255 := by
  simp only [validateTopicName, Bool.and_eq_true, Bool.not_eq_true', decide_eq_true_eq] at valid
  obtain ⟨⟨⟨dark, short⟩, -⟩, -⟩ := valid
  exact ⟨dark, short.trans (by decide)⟩

/-- A header that is there once, with a text that passes the test. -/
theorem uniqueHeaderText_eq {name value : String}
    (once : record.headers.filter (fun header => header.1 = name) = [(name, .text value)])
    (passes : isBlank value = false ∧ byteLen value ≤ 255) :
    uniqueHeaderText record name = .ok (some value) := by
  simp only [uniqueHeaderText, once]
  simp [passes.1, passes.2]

/-- The headers of a routed record, each found by its name. -/
theorem failureHeaders_filter (attempt : Nat) (failure : KafkaFailureKind) (origin : FailureOrigin) :
    (failureHeaders attempt failure origin).filter (fun header => header.1 = retryAttemptHeader) =
        [(retryAttemptHeader, .text (Nat.repr attempt))] ∧
      (failureHeaders attempt failure origin).filter (fun header => header.1 = originTopicHeader) =
        [(originTopicHeader, .text origin.topic)] ∧
      (failureHeaders attempt failure origin).filter (fun header => header.1 = originPartitionHeader) =
        [(originPartitionHeader, .text (Nat.repr origin.partition))] ∧
      (failureHeaders attempt failure origin).filter (fun header => header.1 = originOffsetHeader) =
        [(originOffsetHeader, .text (Nat.repr origin.offset))] := by
  refine ⟨?_, ?_, ?_, ?_⟩ <;>
    simp [failureHeaders, retryAttemptHeader, failureKindHeader, originTopicHeader,
      originPartitionHeader, originOffsetHeader]

theorem retryAttempt_failureHeaders (isWritten : record.headers = failureHeaders attempt failure origin)
    (positive : 0 < attempt) (fits : attempt ≤ 65535) : retryAttempt record = .ok attempt := by
  have kept : (some attempt).filter (fun attempt => decide (attempt > 0)) = some attempt := by
    simp [positive]
  simp only [retryAttempt, isWritten, (failureHeaders_filter attempt failure origin).1,
    parseU16_repr fits, kept]

theorem fromMessage_failureHeaders (isWritten : record.headers = failureHeaders attempt failure origin)
    (valid : origin.Valid) : FailureOrigin.fromMessage record = .ok origin := by
  obtain ⟨-, topics, partitions, offsets⟩ := failureHeaders_filter attempt failure origin
  rw [← isWritten] at topics partitions offsets
  have bounds : i32Max < 10 ^ 20 ∧ i64Max < 10 ^ 20 := by decide
  obtain ⟨partition, offset⟩ := And.intro valid.partition valid.offset
  have topicText := uniqueHeaderText_eq topics (validTopic_headerText valid.topic)
  have partitionText := uniqueHeaderText_eq partitions (repr_headerText (by omega))
  have offsetText := uniqueHeaderText_eq offsets (repr_headerText (by omega))
  unfold FailureOrigin.fromMessage
  rw [topicText, partitionText, offsetText]
  simp [bind, Except.bind, pure, Except.pure, valid.topic, parseNonNegative_repr partition,
    parseNonNegative_repr offset]

/-- The metadata, the key and the payload of a record at its `attempt`-th delivery. -/
structure Carries (source : Record) (origin : FailureOrigin) (attempt : Nat) (record : Record) :
    Prop where
  attempt : retryAttempt record = .ok attempt
  origin : FailureOrigin.fromMessage record = .ok origin
  key : record.key = source.key
  payload : record.payload = source.payload

theorem Carries.of_written (valid : origin.Valid) (positive : 0 < attempt) (fits : attempt ≤ 65535)
    {topic : String} {key : Option (List UInt8)} {payload : List UInt8} (isKey : key = source.key)
    (isPayload : source.payload = some payload) (partition offset : Nat) :
    Carries source origin attempt
      ((⟨topic, key, payload, failureHeaders attempt failure origin⟩ : FutureRecord).received
        partition offset) where
  attempt := retryAttempt_failureHeaders rfl positive fits
  origin := fromMessage_failureHeaders rfl valid
  key := isKey
  payload := isPayload.symm

/-! ## One delivery -/

section

variable {config : KafkaRetryConfig} {source : Record} {origin : FailureOrigin}

theorem afterFailure_retry {attempt : Nat} (positive : 0 < attempt)
    (left : attempt < config.maxDeliveries) : config.afterFailure attempt = .retry (attempt + 1) := by
  have fits := config.deliveries_fits
  unfold KafkaRetryConfig.afterFailure
  rw [if_neg (by omega), Nat.min_eq_left (by omega)]

theorem afterFailure_deadLetter {attempt : Nat} (spent : config.maxDeliveries ≤ attempt) :
    config.afterFailure attempt = .deadLetter :=
  if_pos (.inr spent)

/-- What a delivery is and what is written after it. -/
structure Delivery.IsAttempt (config : KafkaRetryConfig) (source : Record) (origin : FailureOrigin)
    (attempt : Nat) (delivery : Delivery) : Prop where
  record : Carries source origin attempt delivery.record
  attempt_eq : delivery.attempt = attempt
  origin_eq : delivery.origin = origin
  retried : attempt < config.maxDeliveries →
    delivery.action = .retry (attempt + 1) ∧ delivery.written.topic = config.retryTopic ∧
      Carries source origin (attempt + 1) delivery.written
  deadLettered : config.maxDeliveries ≤ attempt →
    delivery.action = .deadLetter ∧ delivery.written.topic = config.deadLetterTopic ∧
      Carries source origin attempt delivery.written

/-- What a route writes for the `attempt`-th delivery. -/
structure Writes (config : KafkaRetryConfig) (source : Record) (origin : FailureOrigin)
    (attempt : Nat) (action : KafkaRetryAction) (written : FutureRecord) : Prop where
  retried : attempt < config.maxDeliveries →
    action = .retry (attempt + 1) ∧ written.topic = config.retryTopic ∧
      ∀ partition offset, Carries source origin (attempt + 1) (written.received partition offset)
  deadLettered : config.maxDeliveries ≤ attempt →
    action = .deadLetter ∧ written.topic = config.deadLetterTopic ∧
      ∀ partition offset, Carries source origin attempt (written.received partition offset)

variable {attempt : Nat} {record : Record} {payload : List UInt8}

theorem publisherRoute_writes (valid : origin.Valid) (positive : 0 < attempt)
    (fits : attempt ≤ 65535) (carries : Carries source origin attempt record)
    (isPayload : source.payload = some payload) (failure : KafkaFailureKind) :
    ∃ action written, publisherRoute config record origin failure attempt = .ok (action, written) ∧
      Writes config source origin attempt action written := by
  have itsPayload : record.payload = some payload := carries.payload.trans isPayload
  unfold publisherRoute
  rw [itsPayload]
  refine ⟨_, _, rfl, ?_, ?_⟩
  · intro left
    have budget := config.deliveries_fits
    rw [afterFailure_retry positive left]
    exact ⟨rfl, rfl, .of_written valid (by omega) (by omega) carries.key isPayload⟩
  · intro spent
    rw [afterFailure_deadLetter spent]
    exact ⟨rfl, rfl, .of_written valid positive fits carries.key isPayload⟩

/-- The row that the delayed router inserts is the one that the relay finds and publishes. -/
theorem delayedRoute_writes (delay : KafkaDelayedRetryDelay) {around : Surroundings}
    (valid : origin.Valid) (positive : 0 < attempt) (fits : attempt ≤ 65535)
    (carries : Carries source origin attempt record) (isPayload : source.payload = some payload)
    (stageable : attempt < config.maxDeliveries →
      validateDelayedRetryRecord payload source.key = .ok () ∧
        ∀ row ∈ around.rows, row.message.conflictKey ≠ (origin, attempt + 1) ∧
          row.message.id ≠ around.id) :
    ∃ action written,
      delayedRoute config delay around record origin carries.origin attempt = .ok (action, written) ∧
      Writes config source origin attempt action written := by
  have itsPayload : record.payload = some payload := carries.payload.trans isPayload
  by_cases left : attempt < config.maxDeliveries
  · obtain ⟨accepted, fresh⟩ := stageable left
    have budget := config.deliveries_fits
    let call : RouteCall := ⟨⟨config, delay⟩, record, origin, around.failure, attempt, around.id,
      .answered, true, carries.origin⟩
    let row := call.row (attempt + 1) payload around.now
    have inserted : insertRetry around.rows row = some (around.rows ++ [row]) := by
      have free : (around.rows.any fun old => old.message.conflictKey = row.message.conflictKey) =
          false := by
        simp only [List.any_eq_false, decide_eq_true_eq]
        intro old stored
        exact (fresh old stored).1
      have unused : (around.rows.any fun old => old.message.id = row.message.id) = false := by
        simp only [List.any_eq_false, decide_eq_true_eq]
        intro old stored
        exact (fresh old stored).2
      simp [insertRetry, free, unused]
    have found : (around.rows ++ [row]).find? (fun row =>
        row.message.conflictKey = (origin, attempt + 1)) = some row := by
      have before : around.rows.find? (fun row =>
          row.message.conflictKey = (origin, attempt + 1)) = none := by
        simp only [List.find?_eq_none, decide_eq_true_eq]
        intro old stored
        exact (fresh old stored).1
      rw [List.find?_append, before]
      simp [row, call, RouteCall.row, RetryMessage.conflictKey]
    have routed : route around.rows around.now call =
        (around.rows ++ [row], .ok (.retry (attempt + 1))) := by
      simp only [route, RouteCall.action, call, afterFailure_retry positive left, itsPayload,
        carries.key, accepted]
      simp only [row, call] at inserted
      rw [inserted]
      rfl
    have read : Relay.retryFromRow row.message = .ok row.message := by
      have notBig : ¬attempt + 1 > 65535 := by omega
      have notSmall : ¬attempt + 1 < 2 := by omega
      simp [Relay.retryFromRow, Relay.validateStoredRetryRecord, row, call, RouteCall.row, notBig,
        notSmall, config.retry_valid, valid.topic, carries.key, accepted]
    refine ⟨.retry (attempt + 1), publishDelayedRetry row.message, ?_, ?_, ?_⟩
    · simp only [delayedRoute]
      rw [show route around.rows around.now _ = _ from routed]
      simp only [found, read]
    · intro _
      exact ⟨rfl, rfl, .of_written valid (by omega) (by omega) carries.key isPayload⟩
    · intro spent
      omega
  · have spent : config.maxDeliveries ≤ attempt := Nat.le_of_not_lt left
    obtain ⟨action, written, wrote, writes⟩ :=
      publisherRoute_writes valid positive fits carries isPayload around.failure
    refine ⟨action, written, ?_, writes⟩
    simp only [delayedRoute, route, RouteCall.action, afterFailure_deadLetter spent, itsPayload]
    exact wrote

/-- What the delayed router needs: it stages the record, and finds its origin and attempt free. -/
def Stageable (config : KafkaRetryConfig) (routing : Routing) (arounds : Nat → Surroundings)
    (source : Record) (origin : FailureOrigin) : Prop :=
  ∀ delay, routing = .delayed delay → ∀ attempt, 0 < attempt → attempt < config.maxDeliveries →
    (∀ payload, source.payload = some payload →
      validateDelayedRetryRecord payload source.key = .ok ()) ∧
    ∀ row ∈ (arounds attempt).rows, row.message.conflictKey ≠ (origin, attempt + 1) ∧
      row.message.id ≠ (arounds attempt).id

/-- **One delivery.** -/
theorem process_isAttempt {routing : Routing} {arounds : Nat → Surroundings} (valid : origin.Valid)
    (stageable : Stageable config routing arounds source origin)
    (isPayload : source.payload = some payload) (positive : 0 < attempt)
    (within : attempt ≤ config.maxDeliveries) (carries : Carries source origin attempt record) :
    ∃ delivery, process config routing (arounds attempt) record = .ok delivery ∧
      delivery.IsAttempt config source origin attempt := by
  have fits := within.trans config.deliveries_fits
  have present : record.payload ≠ none := by simp [carries.payload, isPayload]
  have routes : ∃ action written,
      routed config routing (arounds attempt) record origin carries.origin attempt =
        .ok (action, written) ∧ Writes config source origin attempt action written := by
    cases routing with
    | publisher => exact publisherRoute_writes valid positive fits carries isPayload _
    | delayed delay =>
      refine delayedRoute_writes delay valid positive fits carries isPayload fun left => ?_
      obtain ⟨accepted, fresh⟩ := stageable delay rfl attempt positive left
      exact ⟨accepted payload isPayload, fresh⟩
  obtain ⟨action, written, wrote, writes⟩ := routes
  refine ⟨⟨record, attempt, origin, action,
    written.received (arounds attempt).partition (arounds attempt).offset⟩, ?_, ?_⟩
  · rw [process_eq carries.attempt present carries.origin, wrote]
    rfl
  · refine ⟨carries, rfl, rfl, fun left => ?_, fun spent => ?_⟩
    · obtain ⟨isRetry, topic, next⟩ := writes.retried left
      exact ⟨isRetry, topic, next _ _⟩
    · obtain ⟨isDead, topic, last⟩ := writes.deadLettered spent
      exact ⟨isDead, topic, last _ _⟩

/-! ## The chain -/

/-- From the `attempt`-th delivery on, with `left` more to come after it. -/
theorem follow_isAttempt {routing : Routing} {arounds : Nat → Surroundings} (valid : origin.Valid)
    (stageable : Stageable config routing arounds source origin)
    (isPayload : source.payload = some payload) (left : Nat) :
    ∀ (attempt : Nat) (record : Record), 0 < attempt → attempt + left = config.maxDeliveries →
      Carries source origin attempt record →
      ∃ deliveries : List Delivery, (∀ fuel, left < fuel →
          follow config routing arounds fuel attempt record = .ok deliveries) ∧
        deliveries.length = left + 1 ∧
        ∀ (i : Nat) (delivery : Delivery), deliveries[i]? = some delivery →
          delivery.IsAttempt config source origin (attempt + i) := by
  induction left with
  | zero =>
    intro attempt record positive budget carries
    obtain ⟨delivery, processed, isAttempt⟩ :=
      process_isAttempt valid stageable isPayload positive (by omega) carries
    refine ⟨[delivery], fun fuel some_ => ?_, rfl, ?_⟩
    · obtain ⟨fuel, rfl⟩ : ∃ less, fuel = less + 1 := ⟨fuel - 1, by omega⟩
      obtain ⟨isDead, -⟩ := isAttempt.deadLettered (by omega)
      simp only [follow, processed, isDead]
    · intro i other isOther
      obtain ⟨rfl, rfl⟩ : i = 0 ∧ delivery = other := by
        cases i <;> simp_all
      exact isAttempt
  | succ left ih =>
    intro attempt record positive budget carries
    obtain ⟨delivery, processed, isAttempt⟩ :=
      process_isAttempt valid stageable isPayload positive (by omega) carries
    obtain ⟨isRetry, -, next⟩ := isAttempt.retried (by omega)
    obtain ⟨rest, follows, length, each⟩ :=
      ih (attempt + 1) delivery.written (by omega) (by omega) next
    refine ⟨delivery :: rest, fun fuel some_ => ?_, by simp [length], ?_⟩
    · obtain ⟨fuel, rfl⟩ : ∃ less, fuel = less + 1 := ⟨fuel - 1, by omega⟩
      simp only [follow, processed, isRetry, follows fuel (by omega)]
      rfl
    · intro i other isOther
      cases i with
      | zero =>
        cases isOther
        exact isAttempt
      | succ i =>
        have later := each i other isOther
        rwa [show attempt + 1 + i = attempt + (i + 1) by omega] at later

end

/-- Where a record without metadata comes from. -/
def sourceOrigin (source : Record) : FailureOrigin :=
  ⟨source.topic, source.partition.toNat, source.offset⟩

/-- The chain of a record whose processing always fails: as many deliveries as the budget, the
last of them, and no other, dead-lettered; whatever fuel there is beyond that is not used. -/
def RetryChain (config : KafkaRetryConfig) (routing : Routing) (arounds : Nat → Surroundings)
    (source : Record) : Prop :=
  ∃ deliveries : List Delivery, (∀ fuel, config.maxDeliveries ≤ fuel →
      follow config routing arounds fuel 1 source = .ok deliveries) ∧
    deliveries.length = config.maxDeliveries ∧
    ∀ (i : Nat) (delivery : Delivery), deliveries[i]? = some delivery →
      delivery.IsAttempt config source (sourceOrigin source) (i + 1)

/-- A record of the source topic, without the headers that the parsers read. -/
structure IsSource (source : Record) : Prop where
  topic : validateTopicName source.topic = true
  partition : 0 ≤ source.partition ∧ source.partition ≤ i32Max
  offset : (source.offset : Int) ≤ i64Max
  plain : ∀ header ∈ source.headers, header.1 ∉
    [retryAttemptHeader, originTopicHeader, originPartitionHeader, originOffsetHeader]

theorem IsSource.absent (isSource : IsSource source) {name : String}
    (read : name ∈ [retryAttemptHeader, originTopicHeader, originPartitionHeader, originOffsetHeader]) :
    source.headers.filter (fun header => header.1 = name) = [] := by
  simp only [List.filter_eq_nil_iff, decide_eq_true_eq]
  rintro header among rfl
  exact isSource.plain header among read

theorem IsSource.carries (isSource : IsSource source) :
    Carries source (sourceOrigin source) 1 source where
  attempt := by
    have noAttempt : source.headers.filter (fun header => header.1 = retryAttemptHeader) = [] :=
      isSource.absent (by simp)
    simp only [retryAttempt, noAttempt]
  origin := by
    have noTopic : source.headers.filter (fun header => header.1 = originTopicHeader) = [] :=
      isSource.absent (by simp)
    have noPartition : source.headers.filter (fun header => header.1 = originPartitionHeader) = [] :=
      isSource.absent (by simp)
    have noOffset : source.headers.filter (fun header => header.1 = originOffsetHeader) = [] :=
      isSource.absent (by simp)
    have nonNegative : ¬source.partition < 0 := not_lt.2 isSource.partition.1
    simp [FailureOrigin.fromMessage, uniqueHeaderText, noTopic, noPartition, noOffset,
      isSource.topic, nonNegative, bind, Except.bind, pure, Except.pure, sourceOrigin]
  key := rfl
  payload := rfl

theorem IsSource.valid (isSource : IsSource source) :
    (sourceOrigin source).Valid where
  topic := isSource.topic
  partition := by
    have := isSource.partition
    simp only [sourceOrigin]
    omega
  offset := isSource.offset

/-- **The retry chain.** -/
theorem retry_chain (config : KafkaRetryConfig) (routing : Routing) (arounds : Nat → Surroundings)
    (source : Record) (isSource : IsSource source) (present : source.payload ≠ none)
    (stageable : Stageable config routing arounds source (sourceOrigin source)) :
    RetryChain config routing arounds source := by
  obtain ⟨payload, isPayload⟩ := Option.ne_none_iff_exists'.1 present
  have budget := config.deliveries_pos
  obtain ⟨deliveries, follows, length, each⟩ := follow_isAttempt isSource.valid stageable isPayload
    (config.maxDeliveries - 1) 1 source (by omega) (by omega) isSource.carries
  refine ⟨deliveries, fun fuel enough => follows fuel (by omega), by omega, ?_⟩
  intro i delivery isDelivery
  rw [Nat.add_comm i 1]
  exact each i delivery isDelivery

/-- A broker that puts everything at one place, and an empty table. -/
def quietAround : Surroundings := ⟨.handler, 0, 0, [], 0, 1⟩

def paidRecord (payload : List UInt8) : Record := ⟨"orders.paid", 0, 7, some [9], some payload, []⟩

theorem paidRecord_isSource (payload : List UInt8) : IsSource (paidRecord payload) := by
  have topic : validateTopicName "orders.paid" = true := by decide
  refine ⟨topic, ⟨le_rfl, ?_⟩, ?_, fun header among => by cases among⟩
  · show (0 : Int) ≤ i32Max
    decide
  · show (7 : Int) ≤ i64Max
    decide

theorem retry_chain_paidRecord :
    RetryChain billing.retryConfig .publisher (fun _ => quietAround) (paidRecord []) ∧
      RetryChain billing.retryConfig (.delayed delay) (fun _ => quietAround) (paidRecord [1]) := by
  constructor
  · refine retry_chain _ _ _ _ (paidRecord_isSource []) (by decide) ?_
    intro _ isDelayed
    cases isDelayed
  · refine retry_chain _ _ _ _ (paidRecord_isSource [1]) (by decide) ?_
    intro _ _ attempt _ _
    refine ⟨?_, fun row stored => by cases stored⟩
    intro payload isPayload
    cases isPayload
    rfl

/-- The delayed router refuses an empty payload: three deliveries are allowed, and the first
stages nothing. -/
theorem empty_payload_unrouted :
    IsSource (paidRecord []) ∧ billing.retryConfig.maxDeliveries = 3 ∧
      process billing.retryConfig (.delayed delay) quietAround (paidRecord []) =
        .error .failureRoute ∧
      ¬RetryChain billing.retryConfig (.delayed delay) (fun _ => quietAround) (paidRecord []) := by
  have refused : process billing.retryConfig (.delayed delay) quietAround (paidRecord []) =
      .error .failureRoute := by decide +kernel
  refine ⟨paidRecord_isSource [], rfl, refused, ?_⟩
  rintro ⟨deliveries, follows, -⟩
  have followed := follows 3 le_rfl
  simp only [follow, refused] at followed
  cases followed

end Rustee.Kafka
