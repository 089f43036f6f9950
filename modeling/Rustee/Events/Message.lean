/-
# Rustee.Events.Message -- a serialized event and its staged form

`EventMessage` of `rustee-events/src/publisher.rs` with the type contract of `src/envelope.rs`,
and `from_event_message` of `rustee-outbox-sqlx/src/message/staging.rs`.
-/
import Rustee.Foundation.Text
import Rustee.Outbox.Message
import Mathlib.Order.Nat

namespace Rustee.Events

open Rustee.Foundation Rustee.Outbox

set_option autoImplicit false

def maxEventEnvelopeBytes : Nat := 1024 * 1024

def maxEventPartitionKeyBytes : Nat := maxEventEnvelopeBytes

def maxEventTypeBytes : Nat := 255

/-- `is_valid_event_type`. -/
def isValidEventType (eventType : String) : Bool :=
  !isBlank eventType && decide (byteLen eventType ≤ maxEventTypeBytes) && !containsNul eventType

structure EventMessage where
  id : Uuid
  eventType : String
  version : UInt16
  key : String
  payload : List UInt8
  deriving DecidableEq, Repr

inductive EventMessageError where
  | blankEventType
  | eventTypeTooLarge
  | invalidEventType
  | blankKey
  | keyTooLarge
  | emptyPayload
  | payloadTooLarge
  deriving DecidableEq, Repr

/-- `EventMessage::from_parts`. -/
def EventMessage.fromParts (id : Uuid) (eventType : String) (version : UInt16) (key : String)
    (payload : List UInt8) : Except EventMessageError EventMessage :=
  if !isValidEventType eventType then
    if isBlank eventType then .error .blankEventType
    else if byteLen eventType > maxEventTypeBytes then .error .eventTypeTooLarge
    else .error .invalidEventType
  else if isBlank key then .error .blankKey
  else if byteLen key > maxEventPartitionKeyBytes then .error .keyTooLarge
  else if payload.isEmpty then .error .emptyPayload
  else if payload.length > maxEventEnvelopeBytes then .error .payloadTooLarge
  else .ok ⟨id, eventType, version, key, payload⟩

/-- `OutboxMessage::from_event_message`, given the row id it draws. -/
def fromEventMessage (id : OutboxId) (destination : OutboxDestination) (message : EventMessage) :
    Except OutboxMessageError OutboxMessage :=
  OutboxMessage.new id .event destination (uuidText message.id) message.eventType message.version
    message.key 1 message.payload

end Rustee.Events
