/-
# Rustee.Envelope.Carrier -- what event and job envelopes share

The bounded writer of `rustee-json/src/lib.rs`, the trace carrier of the two `envelope/trace.rs`
and the bounded identifiers of the two `envelope.rs`.  `rustee-events` and `rustee-jobs` have each
their own copy with the same bounds; they differ in the error they report.

`serde_json` is a parameter: the chunks in which it writes a document, and what it reads from
bytes.
-/
import Rustee.Foundation.Json

namespace Rustee.Envelope

open Rustee.Foundation

set_option autoImplicit false

/-- What envelopes use of `serde_json`. -/
structure SerdeJson where
  /-- The chunks that `to_writer` hands to its writer. -/
  toWriter : Json → List (List UInt8)
  fromSlice : List UInt8 → Option Json

/-! ## The bounded writer -/

inductive BoundedJsonError where
  | tooLarge
  | serialize
  deriving DecidableEq, Repr

/-- `BoundedJsonBuffer`: the chunk that would pass the bound is refused, and with it the rest. -/
def writeBounded (maxBytes : Nat) (written : List UInt8) : List (List UInt8) → Option (List UInt8)
  | [] => some written
  | chunk :: rest =>
    if chunk.length > maxBytes - written.length then none
    else writeBounded maxBytes (written ++ chunk) rest

/-- `to_vec_bounded`, of the document that the value serializes to.  Where its serialization
fails, that is what is reported. -/
def toVecBounded (serde : SerdeJson) (document : Option Json) (maxBytes : Nat) :
    Except BoundedJsonError (List UInt8) :=
  match document with
  | none => .error .serialize
  | some document =>
    match writeBounded maxBytes [] (serde.toWriter document) with
    | some bytes => .ok bytes
    | none => .error .tooLarge

theorem writeBounded_eq_some {maxBytes : Nat} {written bytes : List UInt8}
    {chunks : List (List UInt8)} (fits : written.length ≤ maxBytes)
    (wrote : writeBounded maxBytes written chunks = some bytes) :
    bytes = written ++ chunks.flatten ∧ bytes.length ≤ maxBytes := by
  induction chunks generalizing written with
  | nil =>
    cases wrote
    exact ⟨(List.append_nil _).symm, fits⟩
  | cons chunk rest ih =>
    simp only [writeBounded] at wrote
    split at wrote
    · cases wrote
    · rename_i room
      have more : (written ++ chunk).length ≤ maxBytes := by
        rw [List.length_append]
        omega
      rw [List.flatten_cons, ← List.append_assoc]
      exact ih more wrote

theorem writeBounded_of_fits {maxBytes : Nat} {written : List UInt8} {chunks : List (List UInt8)}
    (fits : written.length + chunks.flatten.length ≤ maxBytes) :
    writeBounded maxBytes written chunks = some (written ++ chunks.flatten) := by
  induction chunks generalizing written with
  | nil => rw [writeBounded, List.flatten_nil, List.append_nil]
  | cons chunk rest ih =>
    rw [List.flatten_cons, List.length_append] at fits
    rw [writeBounded, if_neg (by omega), ih (by rw [List.length_append]; omega), List.flatten_cons,
      List.append_assoc]

theorem writeBounded_singleton (maxBytes : Nat) (chunk : List UInt8) :
    writeBounded maxBytes [] [chunk] = if chunk.length ≤ maxBytes then some chunk else none := by
  by_cases fits : chunk.length ≤ maxBytes <;> simp [writeBounded, fits]

/-! ## Trace carriers -/

def maxTraceparentLen : Nat := 512

def maxTracestateLen : Nat := 512

/-- `text.is_ascii()`. -/
def isAscii (text : String) : Bool := text.toList.all fun c => c.toNat < 128

/-- `validate(..).is_ok()` of the two carriers. -/
def isCarrier (traceparent : String) (tracestate : Option String) : Bool :=
  !(isBlank traceparent || !isAscii traceparent ||
    decide (byteLen traceparent > maxTraceparentLen) || tracestate.any fun value =>
      isBlank value || !isAscii value || decide (byteLen value > maxTracestateLen))

/-- `JobTraceContext` and `EventTraceContext`; the last field is what `new` checks. -/
structure TraceContext where
  traceparent : String
  tracestate : Option String
  valid : isCarrier traceparent tracestate = true

/-- `SerializedJobTraceContext` and `SerializedEventTraceContext`. -/
structure SerializedTraceContext where
  traceparent : String
  tracestate : Option String
  deriving DecidableEq, Repr

/-- `from_serialized`. -/
def TraceContext.fromSerialized (serialized : SerializedTraceContext) : Option TraceContext :=
  if valid : isCarrier serialized.traceparent serialized.tracestate = true then
    some ⟨serialized.traceparent, serialized.tracestate, valid⟩
  else none

/-- The derived serialization, which leaves an absent `tracestate` out. -/
def TraceContext.json (context : TraceContext) : Json :=
  .object (("traceparent", .string context.traceparent) ::
    context.tracestate.toList.map fun value => ("tracestate", .string value))

def SerializedTraceContext.ofJson (value : Json) : Option SerializedTraceContext := do
  match ← value.structFields ["traceparent", "tracestate"] with
  | [traceparent, tracestate] =>
    return ⟨← Json.required Json.asString traceparent, ← Json.optional Json.asString tracestate⟩
  | _ => none

/-! ## Bounded identifiers -/

def maxMetadataIdBytes : Nat := 255

/-- `validate_optional_bounded_identifier`. -/
def validateOptionalBoundedIdentifier {ε : Type} (value : Option String)
    (blankError tooLargeError : ε) : Except ε Unit :=
  match value with
  | none => .ok ()
  | some value =>
    if isBlank value then .error blankError
    else if byteLen value > maxMetadataIdBytes then .error tooLargeError
    else .ok ()

end Rustee.Envelope
