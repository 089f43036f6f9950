/-
# Rustee.Kafka.Record -- consumed records and the metadata of a failure route

`rustee-events-kafka/src/failure.rs`, `src/failure/metadata.rs` and the topic checks of
`src/config.rs` and `src/consumer.rs`: what a record carries, the retry attempt and the
origin that its headers tell, and the route chosen after a failed delivery.  The value of a
header is absent, not UTF-8, or a text.
-/
import Rustee.Foundation.RustStd

namespace Rustee.Kafka

open Rustee.Foundation

set_option autoImplicit false

/-- The variants of `KafkaError` that consumption and routing end in. -/
inductive KafkaError where
  | receive
  | missingPayload
  | decode
  | handler
  | commit
  | retryTopicNotSubscribed
  | failureRouteConfiguration
  | retryMetadata
  | failurePublish
  | failureRoute
  deriving DecidableEq, Repr

def maxTopicBytes : Nat := 249

/-- `validate_topic_name(..).is_ok()`. -/
def validateTopicName (topic : String) : Bool :=
  !isBlank topic && decide (byteLen topic ≤ maxTopicBytes) && !containsNul topic &&
    !(topic.toList.any isWhitespace)

/-! ## Records -/

inductive HeaderValue where
  | missing
  | notUtf8
  | text (value : String)
  deriving DecidableEq, Repr

structure Record where
  topic : String
  partition : Int
  offset : Nat
  key : Option (List UInt8)
  payload : Option (List UInt8)
  headers : List (String × HeaderValue)
  deriving DecidableEq, Repr

def retryAttemptHeader : String := "rustee-event-retry-attempt"

def originTopicHeader : String := "rustee-event-origin-topic"

def originPartitionHeader : String := "rustee-event-origin-partition"

def originOffsetHeader : String := "rustee-event-origin-offset"

/-- The number that a non-empty run of ASCII digits denotes. -/
def digits : List Char → Option Nat
  | [] => none
  | chars =>
    chars.foldl (fun value c => value.bind fun n =>
      if '0' ≤ c ∧ c ≤ '9' then some (n * 10 + (c.toNat - '0'.toNat)) else none) (some 0)

/-- `text.parse::<u16>()`: an optional plus sign and digits. -/
def parseU16 (text : String) : Option Nat :=
  let value := match text.toList with
    | '+' :: rest => digits rest
    | chars => digits chars
  value.filter fun n => n ≤ 65535

/-- `parse_non_negative_i32` and `parse_non_negative_i64`: a sign may stand before the
digits, and a minus sign only before a zero. -/
def parseNonNegative (max : Int) (text : String) : Except KafkaError Nat :=
  let value := match text.toList with
    | '+' :: rest => digits rest
    | '-' :: rest => (digits rest).filter fun n => n = 0
    | chars => digits chars
  match value with
  | some n => if (n : Int) ≤ max then .ok n else .error .retryMetadata
  | none => .error .retryMetadata

/-- `retry_attempt`. -/
def retryAttempt (record : Record) : Except KafkaError Nat :=
  match record.headers.filter fun header => header.1 = retryAttemptHeader with
  | [] => .ok 1
  | [(_, .text value)] =>
    match (parseU16 value).filter fun attempt => attempt > 0 with
    | some attempt => .ok attempt
    | none => .error .retryMetadata
  | _ => .error .retryMetadata

/-- `unique_header_text`. -/
def uniqueHeaderText (record : Record) (name : String) : Except KafkaError (Option String) :=
  match record.headers.filter fun header => header.1 = name with
  | [] => .ok none
  | [(_, .text value)] =>
    if !isBlank value ∧ byteLen value ≤ 255 then .ok (some value) else .error .retryMetadata
  | _ => .error .retryMetadata

structure FailureOrigin where
  topic : String
  partition : Nat
  offset : Nat
  deriving DecidableEq, Repr

/-- `FailureOrigin::from_headers`: the origin an earlier route preserved, or else the
consumed record itself. -/
def FailureOrigin.fromMessage (record : Record) : Except KafkaError FailureOrigin := do
  let topic ← uniqueHeaderText record originTopicHeader
  let partition ← uniqueHeaderText record originPartitionHeader
  let offset ← uniqueHeaderText record originOffsetHeader
  match topic, partition, offset with
  | none, none, none =>
    if validateTopicName record.topic = false ∨ record.partition < 0 then throw .retryMetadata
    return ⟨record.topic, record.partition.toNat, record.offset⟩
  | some topic, some partition, some offset =>
    if validateTopicName topic = false then throw .retryMetadata
    let partition ← parseNonNegative i32Max partition
    let offset ← parseNonNegative i64Max offset
    return ⟨topic, partition, offset⟩
  | _, _, _ => throw .retryMetadata

/-! ## Routes -/

inductive KafkaFailureKind where
  | decode
  | handler
  deriving DecidableEq, Repr

inductive KafkaRetryAction where
  | retry (nextAttempt : Nat)
  | deadLetter
  deriving DecidableEq, Repr

/-- `KafkaRetryConfig`; the fields after the data are what `new` checks, the budget being a
`NonZeroU16`. -/
@[ext]
structure KafkaRetryConfig where
  retryTopic : String
  deadLetterTopic : String
  maxDeliveries : Nat
  retry_valid : validateTopicName retryTopic = true
  deadLetter_valid : validateTopicName deadLetterTopic = true
  distinct : retryTopic ≠ deadLetterTopic
  deliveries_pos : 0 < maxDeliveries
  deliveries_fits : maxDeliveries ≤ 65535

instance : DecidableEq KafkaRetryConfig := fun one other =>
  decidable_of_iff (one.retryTopic = other.retryTopic ∧
    one.deadLetterTopic = other.deadLetterTopic ∧ one.maxDeliveries = other.maxDeliveries)
    KafkaRetryConfig.ext_iff.symm

/-- `after_failure`.  The saturating addition cannot saturate below the budget. -/
def KafkaRetryConfig.afterFailure (config : KafkaRetryConfig) (attempt : Nat) : KafkaRetryAction :=
  if attempt = 0 ∨ attempt ≥ config.maxDeliveries then .deadLetter
  else .retry (min (attempt + 1) 65535)

/-- `validate_failure_route_topics`. -/
def validateFailureRouteTopics (sourceTopic : String) (subscribedTopics : List String)
    (retryTopic deadLetterTopic : String) : Except KafkaError Unit :=
  if validateTopicName retryTopic = false ∨ validateTopicName deadLetterTopic = false ∨
      retryTopic = sourceTopic ∨ deadLetterTopic = sourceTopic ∨ retryTopic = deadLetterTopic then
    .error .failureRouteConfiguration
  else if retryTopic ∉ subscribedTopics then .error .retryTopicNotSubscribed
  else .ok ()

end Rustee.Kafka
