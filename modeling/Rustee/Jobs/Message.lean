/-
# Rustee.Jobs.Message -- a serialized job and its staged form

`JobMessage` of `rustee-jobs/src/publisher.rs` with the job-name contract of
`src/envelope.rs`, and the way a job enters the outbox: `from_job_message` of
`rustee-outbox-sqlx/src/message/staging.rs`.  The outbox has an admission test of its own; a
message that `from_parts` accepted passes it.
-/
import Rustee.Foundation.Text
import Rustee.Outbox.Message

namespace Rustee.Jobs

open Rustee.Foundation Rustee.Outbox

set_option autoImplicit false

def maxJobEnvelopeBytes : Nat := 1024 * 1024

def maxJobNameBytes : Nat := 255

/-- `is_valid_job_name`. -/
def isValidJobName (name : String) : Bool :=
  !name.toList.isEmpty && decide (byteLen name ≤ maxJobNameBytes) && !containsNul name &&
    !name.toList.any isWhitespace

structure JobMessage where
  id : Uuid
  name : String
  version : UInt16
  attempt : UInt16
  payload : List UInt8
  deriving DecidableEq, Repr

inductive JobMessageError where
  | blankName
  | invalidName
  | invalidAttempt
  | emptyPayload
  | payloadTooLarge
  deriving DecidableEq, Repr

/-- `JobMessage::from_parts`. -/
def JobMessage.fromParts (id : Uuid) (name : String) (version attempt : UInt16)
    (payload : List UInt8) : Except JobMessageError JobMessage :=
  if isBlank name then .error .blankName
  else if !isValidJobName name then .error .invalidName
  else if attempt = 0 then .error .invalidAttempt
  else if payload.isEmpty then .error .emptyPayload
  else if payload.length > maxJobEnvelopeBytes then .error .payloadTooLarge
  else .ok ⟨id, name, version, attempt, payload⟩

/-- What `from_parts` admits. -/
structure JobMessage.Admitted (message : JobMessage) : Prop where
  name : isValidJobName message.name = true
  attempt : message.attempt ≠ 0
  payload : message.payload ≠ []
  bounded : message.payload.length ≤ maxJobEnvelopeBytes

variable {name : String}

/-- A valid name is a bounded text: it has a character, and none of its characters is
white space. -/
theorem isBoundedText_of_isValidJobName (valid : isValidJobName name = true) :
    isBoundedText maxJobNameBytes name = true := by
  simp only [isValidJobName, Bool.and_eq_true, Bool.not_eq_true', decide_eq_true_eq] at valid
  obtain ⟨⟨⟨nonempty, short⟩, nulFree⟩, dark⟩ := valid
  have notBlank : isBlank name = false := by
    cases chars : name.toList with
    | nil => simp [chars] at nonempty
    | cons c rest =>
      rw [chars, List.any_cons, Bool.or_eq_false_iff] at dark
      simp [isBlank, chars, dark.1]
  simp [isBoundedText, notBlank, nulFree, short]

theorem isBlank_of_isValidJobName (valid : isValidJobName name = true) :
    isBlank name = false := by
  have bounded := isBoundedText_of_isValidJobName valid
  simp only [isBoundedText, Bool.and_eq_true, Bool.not_eq_true'] at bounded
  exact bounded.1.1

theorem JobMessage.fromParts_eq_ok_iff {id : Uuid} {version attempt : UInt16} {payload : List UInt8}
    {message : JobMessage} :
    JobMessage.fromParts id name version attempt payload = .ok message ↔
      message = ⟨id, name, version, attempt, payload⟩ ∧ message.Admitted := by
  unfold JobMessage.fromParts
  constructor
  · intro ok
    split at ok
    · cases ok
    split at ok
    · cases ok
    split at ok
    · cases ok
    split at ok
    · cases ok
    split at ok
    · cases ok
    cases ok
    exact ⟨rfl, by simp_all, by simp_all, by simp_all, by simp_all⟩
  · rintro ⟨rfl, valid, attempted, nonempty, bounded⟩
    simp only at valid attempted nonempty bounded
    simp [isBlank_of_isValidJobName valid, valid, attempted, nonempty, bounded]

/-! ## Staging -/

/-- `OutboxMessage::from_job_message`, given the row id it draws. -/
def fromJobMessage (id : OutboxId) (destination : OutboxDestination) (message : JobMessage) :
    Except OutboxMessageError OutboxMessage :=
  OutboxMessage.new id .job destination (uuidText message.id) message.name message.version
    (uuidText message.id) message.attempt message.payload

/-- **The outbox takes every admitted job.** -/
theorem fromJobMessage_ok {message : JobMessage} (admitted : message.Admitted) (id : OutboxId)
    (destination : OutboxDestination) :
    ∃ staged, fromJobMessage id destination message = .ok staged ∧ staged.kind = .job ∧
      staged.destination = destination ∧ staged.messageId = uuidText message.id ∧
      staged.messageType = message.name ∧ staged.payload = message.payload := by
  have idText : isBoundedText maxMessageIdBytes (uuidText message.id) = true :=
    isBoundedText_uuidText (by decide) message.id
  have keyText : isBoundedText maxOrderingKeyBytes (uuidText message.id) = true :=
    isBoundedText_uuidText (by decide) message.id
  have name : isBoundedText maxMessageTypeBytes message.name = true :=
    isBoundedText_of_isValidJobName admitted.name
  have valid : validateDurableMessageFields (uuidText message.id) message.name
      (uuidText message.id) message.attempt message.payload = .ok () :=
    validateDurableMessageFields_eq_ok.2
      ⟨idText, name, keyText, admitted.attempt, admitted.payload, admitted.bounded⟩
  refine ⟨⟨id, .job, destination, uuidText message.id, message.name, message.version,
    uuidText message.id, message.attempt, 0, message.payload, valid⟩, ?_, rfl, rfl, rfl, rfl, rfl⟩
  unfold fromJobMessage OutboxMessage.new
  split
  · rename_i error refused
    rw [valid] at refused
    cases refused
  · rfl

end Rustee.Jobs
