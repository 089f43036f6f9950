/-
# Rustee.OpenAi.BatchInput -- the input file of a batch, row by row

`rustee-ai-openai/src/batch/input`.  A row is serialized straight into the text of the file, through a
writer that refuses what does not fit; when it does, or when there is no room for the newline, what
was written of the row is cut off again.

`appendJsonlRow_eq` says what that comes to: the row with its newline, or the text as it was.  So the
text is at any time made of the rows that were accepted, one JSON object on each line
(`accepted_rows_one_per_line`); newlines in the strings of a row are escaped by the serializer.
-/
import Rustee.Foundation.JsonWriter
import Mathlib.Data.Finset.Insert

namespace Rustee.OpenAi

set_option autoImplicit false

open Rustee.Foundation JsonWriter

def openaiBatchFileMaxBytes : Nat := 200 * 1024 * 1024

def openaiBatchMaxRequests : Nat := 50000

inductive OpenAiBatchInputError where
  | empty
  | tooLarge
  | unsafeCustomId
  | bodyMustBeObject
  | endpointMismatch
  | duplicateCustomId
  | tooManyRows
  | serialization
  deriving DecidableEq, Repr

/-! ## Rows -/

inductive OpenAiBatchEndpoint where
  | responses
  | embeddings
  deriving DecidableEq, Repr

def OpenAiBatchEndpoint.path : OpenAiBatchEndpoint → String
  | .responses => "/v1/responses"
  | .embeddings => "/v1/embeddings"

def validProviderIdentifier (value : String) : Bool :=
  value ≠ "" && byteLen value ≤ 128 &&
    value.toList.all fun c => c.isAlphanum || c = '_' || c = '-' || c = '.'

structure OpenAiBatchInputRow where
  customId : String
  endpoint : OpenAiBatchEndpoint
  body : Json
  safe : validProviderIdentifier customId = true
  object : body.isObject = true

def OpenAiBatchInputRow.new (customId : String) (endpoint : OpenAiBatchEndpoint) (body : Json) :
    Except OpenAiBatchInputError OpenAiBatchInputRow :=
  if safe : validProviderIdentifier customId = true then
    if object : body.isObject = true then .ok ⟨customId, endpoint, body, safe, object⟩
    else .error .bodyMustBeObject
  else .error .unsafeCustomId

/-- `BatchInputRowWire`. -/
def OpenAiBatchInputRow.wire (row : OpenAiBatchInputRow) : Json :=
  .object [("custom_id", .string row.customId), ("method", .string "POST"),
    ("url", .string row.endpoint.path), ("body", row.body)]

/-! ## The bounded writer -/

structure BoundedJsonlWriter where
  bytes : Bytes
  maxBytes : Nat
  exceeded : Bool
  deriving DecidableEq, Repr

namespace BoundedJsonlWriter

/-- With whether it succeeded. -/
def write (writer : BoundedJsonlWriter) (buffer : Bytes) : BoundedJsonlWriter × Bool :=
  if buffer.length > writer.maxBytes - writer.bytes.length then
    ({ writer with exceeded := true }, false)
  else ({ writer with bytes := writer.bytes ++ buffer }, true)

/-- `serde_json::to_writer`, which stops at the first write that fails. -/
def toWriter (writer : BoundedJsonlWriter) : List Bytes → BoundedJsonlWriter × Bool
  | [] => (writer, true)
  | buffer :: rest =>
    match writer.write buffer with
    | (writer, true) => toWriter writer rest
    | (writer, false) => (writer, false)

theorem toWriter_fits {writer : BoundedJsonlWriter} {writes : List Bytes}
    (fits : writer.bytes.length + writes.flatten.length ≤ writer.maxBytes) :
    writer.toWriter writes = ({ writer with bytes := writer.bytes ++ writes.flatten }, true) := by
  induction writes generalizing writer with
  | nil => simp [toWriter]
  | cons buffer rest ih =>
    rw [List.flatten_cons, List.length_append] at fits
    have room : ¬buffer.length > writer.maxBytes - writer.bytes.length := by omega
    rw [toWriter, write, if_neg room]
    simp only
    rw [ih (by simp only [List.length_append]; omega), List.flatten_cons, List.append_assoc]

/-- What fits is written up to some point, and then the writer gives up. -/
theorem toWriter_exceeds (writer : BoundedJsonlWriter) (writes : List Bytes)
    (room : writer.bytes.length ≤ writer.maxBytes)
    (exceeds : writer.maxBytes < writer.bytes.length + writes.flatten.length) :
    ∃ part, writer.toWriter writes = (⟨writer.bytes ++ part, writer.maxBytes, true⟩, false) := by
  induction writes generalizing writer with
  | nil => simp at exceeds; omega
  | cons buffer rest ih =>
    rw [List.flatten_cons, List.length_append] at exceeds
    rw [toWriter, write]
    by_cases full : buffer.length > writer.maxBytes - writer.bytes.length
    · rw [if_pos full]
      exact ⟨[], by simp⟩
    · rw [if_neg full]
      obtain ⟨part, result⟩ := ih { writer with bytes := writer.bytes ++ buffer }
        (by simp only [List.length_append]; omega) (by simp only [List.length_append]; omega)
      exact ⟨buffer ++ part, by simp only [result, List.append_assoc]⟩

end BoundedJsonlWriter

/-! ## The builder -/

section

variable (floats : FloatPrinter)

/-- The new text, and whether the row is in it. -/
def appendJsonlRow (jsonl : Bytes) (row : OpenAiBatchInputRow) (maxBytes : Nat) :
    Bytes × Except OpenAiBatchInputError Unit :=
  let initialLen := jsonl.length
  let (writer, ok) := BoundedJsonlWriter.toWriter ⟨jsonl, maxBytes, false⟩ (writes floats row.wire)
  if writer.exceeded then (writer.bytes.take initialLen, .error .tooLarge)
  else if !ok then (writer.bytes.take initialLen, .error .serialization)
  else if writer.bytes.length = maxBytes then (writer.bytes.take initialLen, .error .tooLarge)
  else (writer.bytes ++ [10], .ok ())

/-- `custom_ids` is a `HashSet`. -/
structure OpenAiBatchJsonlBuilder where
  endpoint : OpenAiBatchEndpoint
  customIds : Finset String
  jsonl : Bytes
  rowCount : Nat

namespace OpenAiBatchJsonlBuilder

def new (endpoint : OpenAiBatchEndpoint) : OpenAiBatchJsonlBuilder := ⟨endpoint, ∅, [], 0⟩

def push (builder : OpenAiBatchJsonlBuilder) (row : OpenAiBatchInputRow) :
    OpenAiBatchJsonlBuilder × Except OpenAiBatchInputError Unit :=
  if row.endpoint ≠ builder.endpoint then (builder, .error .endpointMismatch)
  else if builder.rowCount ≥ openaiBatchMaxRequests then (builder, .error .tooManyRows)
  else if row.customId ∈ builder.customIds then (builder, .error .duplicateCustomId)
  else
    match appendJsonlRow floats builder.jsonl row openaiBatchFileMaxBytes with
    | (jsonl, .error error) => ({ builder with jsonl := jsonl }, .error error)
    | (jsonl, .ok ()) =>
      (⟨builder.endpoint, insert row.customId builder.customIds, jsonl, builder.rowCount + 1⟩, .ok ())

/-- `OpenAiBatchInputJsonl` holds the bytes and nothing else. -/
def build (builder : OpenAiBatchJsonlBuilder) : Except OpenAiBatchInputError Bytes :=
  if builder.rowCount = 0 then .error .empty
  else if builder.jsonl = [] then .error .empty
  else if builder.jsonl.length > openaiBatchFileMaxBytes then .error .tooLarge
  else .ok builder.jsonl

/-- A sequence of calls, with the rows that were accepted. -/
def pushAll (builder : OpenAiBatchJsonlBuilder) :
    List OpenAiBatchInputRow → OpenAiBatchJsonlBuilder × List OpenAiBatchInputRow
  | [] => (builder, [])
  | row :: rest =>
    let (builder, result) := builder.push floats row
    let (builder, accepted) := builder.pushAll rest
    match result with
    | .ok () => (builder, row :: accepted)
    | .error _ => (builder, accepted)

end OpenAiBatchJsonlBuilder

/-! ## One push -/

/-- The text of a row, without its newline. -/
def rowText (row : OpenAiBatchInputRow) : Bytes := JsonWriter.text floats row.wire

theorem appendJsonlRow_eq {jsonl : Bytes} {row : OpenAiBatchInputRow} {maxBytes : Nat}
    (room : jsonl.length ≤ maxBytes) :
    appendJsonlRow floats jsonl row maxBytes =
      if jsonl.length + (rowText floats row).length < maxBytes then
        (jsonl ++ (rowText floats row ++ [10]), .ok ())
      else (jsonl, .error .tooLarge) := by
  have isText : (writes floats row.wire).flatten = rowText floats row := rfl
  unfold appendJsonlRow
  by_cases fits : jsonl.length + (rowText floats row).length ≤ maxBytes
  · rw [BoundedJsonlWriter.toWriter_fits (by rwa [isText]), isText]
    simp only [Bool.false_eq_true, if_false, Bool.not_true, List.length_append]
    by_cases full : jsonl.length + (rowText floats row).length = maxBytes
    · rw [if_pos full, if_neg (by omega), List.take_left]
    · rw [if_neg full, if_pos (by omega), List.append_assoc]
  · obtain ⟨part, result⟩ := BoundedJsonlWriter.toWriter_exceeds ⟨jsonl, maxBytes, false⟩
      (writes floats row.wire) room (by rw [isText]; exact not_le.1 fits)
    rw [result, if_neg (by omega)]
    simp only [if_true, List.take_left]

theorem rowText_object (row : OpenAiBatchInputRow) :
    ObjectText (rowText floats row) ∧ 10 ∉ rowText floats row :=
  ⟨objectText_text floats _, newline_not_mem_text floats _⟩

namespace OpenAiBatchJsonlBuilder

/-- The builder holds these rows, in this order, and nothing else. -/
structure Holds (builder : OpenAiBatchJsonlBuilder) (accepted : List OpenAiBatchInputRow) : Prop where
  jsonl : builder.jsonl = accepted.flatMap fun row => rowText floats row ++ [10]
  customIds : builder.customIds = (accepted.map OpenAiBatchInputRow.customId).toFinset
  rowCount : builder.rowCount = accepted.length
  endpoint : ∀ row ∈ accepted, row.endpoint = builder.endpoint
  distinct : (accepted.map OpenAiBatchInputRow.customId).Nodup
  rowLimit : accepted.length ≤ openaiBatchMaxRequests
  byteLimit : builder.jsonl.length ≤ openaiBatchFileMaxBytes

theorem holds_new (endpoint : OpenAiBatchEndpoint) : (new endpoint).Holds floats [] where
  jsonl := rfl
  customIds := rfl
  rowCount := rfl
  endpoint := by simp
  distinct := List.nodup_nil
  rowLimit := Nat.zero_le _
  byteLimit := Nat.zero_le _

variable {floats} {builder : OpenAiBatchJsonlBuilder} {accepted : List OpenAiBatchInputRow}
  {row : OpenAiBatchInputRow}

/-- A push changes nothing, or adds its row at the end. -/
theorem push_cases (row : OpenAiBatchInputRow)
    (room : builder.jsonl.length ≤ openaiBatchFileMaxBytes) :
    (∃ error, builder.push floats row = (builder, .error error)) ∨
      row.endpoint = builder.endpoint ∧ builder.rowCount < openaiBatchMaxRequests ∧
        row.customId ∉ builder.customIds ∧
        builder.jsonl.length + (rowText floats row).length < openaiBatchFileMaxBytes ∧
        builder.push floats row = (⟨builder.endpoint, insert row.customId builder.customIds,
          builder.jsonl ++ (rowText floats row ++ [10]), builder.rowCount + 1⟩, .ok ()) := by
  unfold push
  by_cases mismatch : row.endpoint ≠ builder.endpoint
  · rw [if_pos mismatch]
    exact .inl ⟨_, rfl⟩
  by_cases many : builder.rowCount ≥ openaiBatchMaxRequests
  · rw [if_neg mismatch, if_pos many]
    exact .inl ⟨_, rfl⟩
  by_cases duplicate : row.customId ∈ builder.customIds
  · rw [if_neg mismatch, if_neg many, if_pos duplicate]
    exact .inl ⟨_, rfl⟩
  rw [if_neg mismatch, if_neg many, if_neg duplicate, appendJsonlRow_eq floats room]
  by_cases fits : builder.jsonl.length + (rowText floats row).length < openaiBatchFileMaxBytes
  · rw [if_pos fits]
    exact .inr ⟨not_not.1 mismatch, not_le.1 many, duplicate, fits, rfl⟩
  · rw [if_neg fits]
    exact .inl ⟨_, rfl⟩

theorem Holds.add (holds : builder.Holds floats accepted) (endpoint : row.endpoint = builder.endpoint)
    (few : builder.rowCount < openaiBatchMaxRequests) (fresh : row.customId ∉ builder.customIds)
    (fits : builder.jsonl.length + (rowText floats row).length < openaiBatchFileMaxBytes) :
    Holds floats ⟨builder.endpoint, insert row.customId builder.customIds,
      builder.jsonl ++ (rowText floats row ++ [10]), builder.rowCount + 1⟩ (accepted ++ [row]) where
  jsonl := by simp [holds.jsonl]
  customIds := by
    ext id
    rw [holds.customIds, Finset.mem_insert, List.mem_toFinset, List.mem_toFinset, List.map_append,
      List.mem_append, List.map_singleton, List.mem_singleton, or_comm]
  rowCount := by simp [holds.rowCount]
  endpoint := by
    intro other member
    rcases List.mem_append.1 member with inside | last
    · exact holds.endpoint other inside
    · rw [List.mem_singleton.1 last]
      exact endpoint
  distinct := by
    rw [holds.customIds, List.mem_toFinset] at fresh
    rw [List.map_append, List.map_singleton, ← List.concat_eq_append]
    exact holds.distinct.concat fresh
  rowLimit := by
    rw [List.length_append, List.length_singleton, ← holds.rowCount]
    exact few
  byteLimit := by
    simp only [List.length_append, List.length_singleton]
    omega

theorem pushAll_of_error {next : OpenAiBatchJsonlBuilder} {error : OpenAiBatchInputError}
    (failed : builder.push floats row = (next, .error error)) (rest : List OpenAiBatchInputRow) :
    builder.pushAll floats (row :: rest) = next.pushAll floats rest := by
  rw [pushAll, failed]

theorem pushAll_of_ok {next : OpenAiBatchJsonlBuilder}
    (added : builder.push floats row = (next, .ok ())) (rest : List OpenAiBatchInputRow) :
    builder.pushAll floats (row :: rest) =
      ((next.pushAll floats rest).1, row :: (next.pushAll floats rest).2) := by
  rw [pushAll, added]

theorem pushAll_holds (holds : builder.Holds floats accepted) (rows : List OpenAiBatchInputRow) :
    (builder.pushAll floats rows).1.Holds floats (accepted ++ (builder.pushAll floats rows).2) := by
  induction rows generalizing builder accepted with
  | nil => simpa [pushAll] using holds
  | cons row rest ih =>
    rcases push_cases row holds.byteLimit with
      ⟨error, failed⟩ | ⟨endpoint, few, fresh, fits, added⟩
    · rw [pushAll_of_error failed]
      exact ih holds
    · rw [pushAll_of_ok added]
      have more := ih (holds.add endpoint few fresh fits)
      rwa [List.append_assoc, List.singleton_append] at more

theorem pushAll_sublist (rows : List OpenAiBatchInputRow) :
    (builder.pushAll floats rows).2.Sublist rows := by
  induction rows generalizing builder with
  | nil => exact List.Sublist.refl _
  | cons row rest ih =>
    cases pushed : builder.push floats row with
    | mk next result =>
      cases result with
      | error error =>
        rw [pushAll_of_error pushed]
        exact ih.cons row
      | ok done =>
        rw [pushAll_of_ok pushed]
        exact ih.cons_cons row

/-- After any sequence of calls the lines of the accepted rows are uploaded, and only a batch without
rows is refused: the other checks always pass. -/
theorem build_after_pushes (endpoint : OpenAiBatchEndpoint) (rows : List OpenAiBatchInputRow) :
    let run := (new endpoint).pushAll floats rows
    run.1.build = if run.2 = [] then .error .empty
      else .ok (run.2.flatMap fun row => rowText floats row ++ [10]) := by
  intro run
  have holds : run.1.Holds floats run.2 := pushAll_holds (holds_new floats endpoint) rows
  rw [build, holds.rowCount, holds.jsonl]
  by_cases none : run.2 = []
  · simp [none]
  · have text : (run.2.flatMap fun row => rowText floats row ++ [10]) ≠ [] := by
      obtain ⟨row, rest, isCons⟩ := List.exists_cons_of_ne_nil none
      simp [isCons]
    rw [if_neg (mt List.length_eq_zero_iff.1 none), if_neg text, if_neg none,
      if_neg (not_lt.2 (holds.jsonl ▸ holds.byteLimit))]

end OpenAiBatchJsonlBuilder

/-- After any sequence of calls the text is that of the accepted rows, one JSON object on each line, in
the order of the calls; their ids are distinct, both limits are kept, and a call that fails changes
nothing. -/
theorem accepted_rows_one_per_line (endpoint : OpenAiBatchEndpoint)
    (rows : List OpenAiBatchInputRow) :
    let run := (OpenAiBatchJsonlBuilder.new endpoint).pushAll floats rows
    run.1.Holds floats run.2 ∧ run.2.Sublist rows ∧
      (∀ row ∈ run.2, ObjectText (rowText floats row) ∧ 10 ∉ rowText floats row) ∧
      ∀ row error, (run.1.push floats row).2 = .error error → (run.1.push floats row).1 = run.1 := by
  intro run
  have holds : run.1.Holds floats run.2 :=
    OpenAiBatchJsonlBuilder.pushAll_holds (OpenAiBatchJsonlBuilder.holds_new floats endpoint) rows
  refine ⟨holds, OpenAiBatchJsonlBuilder.pushAll_sublist rows, fun row _ => rowText_object floats row, ?_⟩
  intro row error failed
  rcases OpenAiBatchJsonlBuilder.push_cases row holds.byteLimit with
    ⟨_, unchanged⟩ | ⟨-, -, -, -, added⟩
  · rw [unchanged]
  · rw [added] at failed
    cases failed

end

/-- A printer for the one float below. -/
def oneAndAHalf : FloatPrinter where
  text _ := ascii "1.5"
  numeral _ _ := @JsonNumeral.parts [] (ascii "1") (ascii ".5") [] (.inl rfl) rfl (.digits rfl) .none

def poem : OpenAiBatchInputRow :=
  ⟨"poem", .responses, .object [("input", .string "one\ntwo")], by decide +kernel, rfl⟩

def warmer : OpenAiBatchInputRow :=
  ⟨"warmer", .responses, .object [("temperature", .number (.float 4609434218613702656))],
    by decide +kernel, rfl⟩

-- the repeated id is refused, and so is a row for another endpoint
example : ((OpenAiBatchJsonlBuilder.new .responses).pushAll oneAndAHalf
      [poem, poem, { warmer with endpoint := .embeddings }, warmer]).1.jsonl =
    ascii "\x7b\"custom_id\":\"poem\",\"method\":\"POST\",\"url\":\"/v1/responses\",\"body\":\x7b\"input\":\"one\\ntwo\"\x7d\x7d\n" ++
    ascii "\x7b\"custom_id\":\"warmer\",\"method\":\"POST\",\"url\":\"/v1/responses\",\"body\":\x7b\"temperature\":1.5\x7d\x7d\n" := by
  decide +kernel

end Rustee.OpenAi
