/-
# Rustee.AiWeb.Frames -- the body of a streamed response

`rustee-ai-web/src/frame.rs` and `stream_response` of `src/lib.rs`.  Each event of the upstream becomes
one frame: a JSON document on one line, between what the format puts before and after it.  An event
that does not fit, like an error of the upstream, becomes a document that says so and no more, and it
ends the body.

`encodeFrame_eq` says what the bounded buffer comes to, `frames_eq` what the loop does: the frames are
those of the events up to the first one that stops the stream.  No document has a line break in it, so a
reader who splits the body has the documents back (`body_of_frames`).
-/
import Rustee.Ai.Protocol
import Rustee.OpenAi.BatchInput

namespace Rustee.AiWeb

set_option autoImplicit false

open Rustee.Foundation JsonWriter Ai

/-! ## Formats and limits -/

inductive StreamFormat where
  | sse
  | ndjson
  deriving DecidableEq, Repr

def StreamFormat.framePrefix : StreamFormat → Bytes
  | .sse => ascii "data: "
  | .ndjson => []

def StreamFormat.frameSuffix : StreamFormat → Bytes
  | .sse => [10, 10]
  | .ndjson => [10]

def defaultMaxFrameBytes : Nat := 1024 * 1024

def minMaxFrameBytes : Nat := 128

inductive AiStreamResponseConfigError where
  | frameLimitTooSmall
  deriving DecidableEq, Repr

structure AiStreamResponseConfig where
  maxFrameBytes : Nat
  accepted : minMaxFrameBytes ≤ maxFrameBytes

def AiStreamResponseConfig.new : AiStreamResponseConfig := ⟨defaultMaxFrameBytes, by decide⟩

def AiStreamResponseConfig.withMaxFrameBytes (_ : AiStreamResponseConfig) (maxFrameBytes : Nat) :
    Except AiStreamResponseConfigError AiStreamResponseConfig :=
  if small : maxFrameBytes < minMaxFrameBytes then .error .frameLimitTooSmall
  else .ok ⟨maxFrameBytes, Nat.le_of_not_lt small⟩

/-! ## Frames -/

inductive FrameEncodingError where
  | tooLarge
  | serializationRejected
  deriving DecidableEq, Repr

inductive TerminalError where
  | streamFailed
  | eventTooLarge
  deriving DecidableEq, Repr

def terminalErrorFrame : StreamFormat → TerminalError → Bytes
  | .sse, .streamFailed => ascii "data: \x7b\"type\":\"error\",\"code\":\"ai_stream_failed\"\x7d\n\n"
  | .sse, .eventTooLarge =>
    ascii "data: \x7b\"type\":\"error\",\"code\":\"ai_stream_event_too_large\"\x7d\n\n"
  | .ndjson, .streamFailed => ascii "\x7b\"type\":\"error\",\"code\":\"ai_stream_failed\"\x7d\n"
  | .ndjson, .eventTooLarge =>
    ascii "\x7b\"type\":\"error\",\"code\":\"ai_stream_event_too_large\"\x7d\n"

/-- `WebEvent`, tagged by its type.  The counts of tokens are of 64 bits. -/
def webEvent : AiStreamEvent → Json
  | .textDelta delta => .object [("type", .string "text_delta"), ("delta", .string delta)]
  | .toolCall call =>
    .object [("type", .string "tool_call"), ("id", .string call.id), ("name", .string call.name),
      ("arguments", call.arguments)]
  | .toolResult result =>
    .object [("type", .string "tool_result"), ("call_id", .string result.callId),
      ("name", .string result.name), ("content", result.content)]
  | .completed usage =>
    .object [("type", .string "completed"),
      ("usage", .object [("input_tokens", .ofU64 (.ofNat usage.inputTokens)),
        ("output_tokens", .ofU64 (.ofNat usage.outputTokens))])]

/-- The same writer as that of a batch file. -/
abbrev BoundedFrameBuffer := OpenAi.BoundedJsonlWriter

section

variable (floats : FloatPrinter)

def encodeFrame (format : StreamFormat) (value : Json) (maxFrameBytes : Nat) :
    Except FrameEncodingError Bytes :=
  let (buffer, ok) := OpenAi.BoundedJsonlWriter.write ⟨[], maxFrameBytes, false⟩ format.framePrefix
  if !ok then .error .tooLarge
  else
    let (buffer, ok) := buffer.toWriter (writes floats value)
    if buffer.exceeded then .error .tooLarge
    else if !ok then .error .serializationRejected
    else
      let (buffer, ok) := buffer.write format.frameSuffix
      if !ok then .error .tooLarge else .ok buffer.bytes

def encodeEvent (format : StreamFormat) (event : AiStreamEvent) (maxFrameBytes : Nat) :
    Except FrameEncodingError Bytes :=
  encodeFrame floats format (webEvent event) maxFrameBytes

/-! ## The stream -/

section

variable {E : Type}

/-- The body of the loop: a frame, and whether it is the last. -/
def nextFrame (format : StreamFormat) (config : AiStreamResponseConfig) :
    Except E AiStreamEvent → Bytes × Bool
  | .ok event =>
    match encodeEvent floats format event config.maxFrameBytes with
    | .ok frame => (frame, event.isCompleted)
    | .error .tooLarge => (terminalErrorFrame format .eventTooLarge, true)
    | .error .serializationRejected => (terminalErrorFrame format .streamFailed, true)
  | .error _ => (terminalErrorFrame format .streamFailed, true)

/-- `stream_response`, polled `polls` times from the answer at `index` on.  An upstream is what it
answers to each poll; it may go on for ever. -/
def streamResponse (format : StreamFormat) (config : AiStreamResponseConfig)
    (upstream : Nat → Option (Except E AiStreamEvent)) (index : Nat) : Nat → List Bytes
  | 0 => []
  | polls + 1 =>
    match upstream index with
    | none => []
    | some event =>
      let (frame, terminal) := nextFrame floats format config event
      if terminal then [frame] else frame :: streamResponse format config upstream (index + 1) polls

end

/-! ## What the body is to be -/

/-- What an upstream answers to so many polls. -/
def received {α : Type} (upstream : Nat → Option α) (index : Nat) : Nat → List α
  | 0 => []
  | polls + 1 =>
    match upstream index with
    | none => []
    | some event => event :: received upstream (index + 1) polls

/-- The elements up to the first that passes the test, and that one. -/
def upToFirst {α : Type} (test : α → Bool) : List α → List α
  | [] => []
  | first :: rest => if test first then [first] else first :: upToFirst test rest

/-- The code of an error, in its document. -/
def errorDocument (error : TerminalError) : Bytes :=
  text floats (.object [("type", .string "error"), ("code", .string (match error with
    | .streamFailed => "ai_stream_failed"
    | .eventTooLarge => "ai_stream_event_too_large"))])

def inFrame (format : StreamFormat) (document : Bytes) : Bytes :=
  format.framePrefix ++ (document ++ format.frameSuffix)

/-- The frame of the event is within the limit. -/
def fits (format : StreamFormat) (config : AiStreamResponseConfig) (event : AiStreamEvent) : Bool :=
  (inFrame format (text floats (webEvent event))).length ≤ config.maxFrameBytes

variable {E : Type}

/-- A completed event, an error and one that cannot be encoded. -/
def stops (format : StreamFormat) (config : AiStreamResponseConfig) : Except E AiStreamEvent → Bool
  | .ok event => event.isCompleted || !fits floats format config event
  | .error _ => true

/-- The document that an event is emitted as. -/
def document (format : StreamFormat) (config : AiStreamResponseConfig) : Except E AiStreamEvent → Bytes
  | .ok event =>
    if fits floats format config event then text floats (webEvent event)
    else errorDocument floats .eventTooLarge
  | .error _ => errorDocument floats .streamFailed

/-- A body, split at its blank lines or at its newlines. -/
def splitBody : StreamFormat → Bytes → List Bytes
  | .sse, body =>
    (((body.splitOn 10).splitOn []).filter (· ≠ [])).map fun lines => List.intercalate [10] lines
  | .ndjson, body => (body.splitOn 10).filter (· ≠ [])

/-! ## The bounded buffer -/

/-- A value is encoded if its frame fits, and else the frame is too large. -/
theorem encodeFrame_eq (format : StreamFormat) (value : Json) (maxFrameBytes : Nat) :
    encodeFrame floats format value maxFrameBytes =
      if (inFrame format (text floats value)).length ≤ maxFrameBytes then
        .ok (inFrame format (text floats value))
      else .error .tooLarge := by
  have isText : (writes floats value).flatten = text floats value := rfl
  have size : (inFrame format (text floats value)).length = format.framePrefix.length +
      ((text floats value).length + format.frameSuffix.length) := by
    rw [inFrame, List.length_append, List.length_append]
  rw [encodeFrame, size]
  by_cases opens : format.framePrefix.length ≤ maxFrameBytes
  · have opened : OpenAi.BoundedJsonlWriter.write ⟨[], maxFrameBytes, false⟩ format.framePrefix =
        (⟨format.framePrefix, maxFrameBytes, false⟩, true) := if_neg (by simpa using opens)
    by_cases written : format.framePrefix.length + (text floats value).length ≤ maxFrameBytes
    · have filled := @OpenAi.BoundedJsonlWriter.toWriter_fits ⟨format.framePrefix, maxFrameBytes, false⟩
        (writes floats value) (by rwa [isText])
      rw [isText] at filled
      by_cases closes : format.framePrefix.length + ((text floats value).length +
          format.frameSuffix.length) ≤ maxFrameBytes
      · have closed : OpenAi.BoundedJsonlWriter.write
            ⟨format.framePrefix ++ text floats value, maxFrameBytes, false⟩ format.frameSuffix =
            (⟨format.framePrefix ++ text floats value ++ format.frameSuffix, maxFrameBytes, false⟩, true) :=
          if_neg (by simp only [List.length_append]; omega)
        simp [opened, filled, closed, closes, inFrame]
      · have full : OpenAi.BoundedJsonlWriter.write
            ⟨format.framePrefix ++ text floats value, maxFrameBytes, false⟩ format.frameSuffix =
            (⟨format.framePrefix ++ text floats value, maxFrameBytes, true⟩, false) :=
          if_pos (by simp only [List.length_append]; omega)
        simp [opened, filled, full, closes]
    · obtain ⟨part, stopped⟩ := OpenAi.BoundedJsonlWriter.toWriter_exceeds
        ⟨format.framePrefix, maxFrameBytes, false⟩ (writes floats value) opens
        (by rw [isText]; exact not_le.1 written)
      rw [if_neg (show ¬ _ ≤ maxFrameBytes by omega)]
      simp [opened, stopped]
  · have refused : OpenAi.BoundedJsonlWriter.write ⟨[], maxFrameBytes, false⟩ format.framePrefix =
        (⟨[], maxFrameBytes, true⟩, false) := if_pos (by simpa using opens)
    rw [if_neg (show ¬ _ ≤ maxFrameBytes by omega)]
    simp [refused]

theorem terminalErrorFrame_eq (format : StreamFormat) (error : TerminalError) :
    terminalErrorFrame format error = inFrame format (errorDocument floats error) := by
  cases format <;> cases error <;> rfl

theorem length_terminalErrorFrame (format : StreamFormat) (error : TerminalError) :
    (terminalErrorFrame format error).length ≤ minMaxFrameBytes := by
  cases format <;> cases error <;> decide

/-- The loop's body, for any answer of the upstream. -/
theorem nextFrame_eq (format : StreamFormat) (config : AiStreamResponseConfig)
    (event : Except E AiStreamEvent) :
    nextFrame floats format config event =
      (inFrame format (document floats format config event), stops floats format config event) := by
  cases event with
  | error error =>
    rw [document, stops, ← terminalErrorFrame_eq]
    rfl
  | ok event =>
    rw [nextFrame, encodeEvent, encodeFrame_eq, document, stops]
    by_cases within : (inFrame format (text floats (webEvent event))).length ≤ config.maxFrameBytes
    · have isFit : fits floats format config event = true := decide_eq_true within
      rw [if_pos within, if_pos isFit, isFit, Bool.not_true, Bool.or_false]
    · have isFit : fits floats format config event = false := decide_eq_false within
      rw [if_neg within, isFit, if_neg Bool.false_ne_true, Bool.not_false, Bool.or_true,
        ← terminalErrorFrame_eq]

theorem length_inFrame_document (format : StreamFormat) (config : AiStreamResponseConfig)
    (event : Except E AiStreamEvent) :
    (inFrame format (document floats format config event)).length ≤ config.maxFrameBytes := by
  have ofError (error : TerminalError) :
      (inFrame format (errorDocument floats error)).length ≤ config.maxFrameBytes := by
    rw [← terminalErrorFrame_eq]
    exact (length_terminalErrorFrame format error).trans config.accepted
  cases event with
  | error error => exact ofError .streamFailed
  | ok event =>
    rw [document]
    split_ifs with isFit
    · exact of_decide_eq_true isFit
    · exact ofError .eventTooLarge

/-! ## The loop -/

/-- **The frames of a body** are those of the events up to the first one that stops the stream. -/
theorem frames_eq (format : StreamFormat) (config : AiStreamResponseConfig)
    (upstream : Nat → Option (Except E AiStreamEvent)) (index polls : Nat) :
    streamResponse floats format config upstream index polls =
      (upToFirst (stops floats format config) (received upstream index polls)).map fun event =>
        inFrame format (document floats format config event) := by
  induction polls generalizing index with
  | zero => rfl
  | succ polls ih =>
    rw [streamResponse, received]
    cases upstream index with
    | none => rfl
    | some event =>
      simp only [nextFrame_eq, upToFirst]
      split_ifs
      · rfl
      · rw [ih, List.map_cons]

/-- What the error of an upstream is does not show. -/
theorem streamResponse_mapError {E' : Type} (format : StreamFormat) (config : AiStreamResponseConfig)
    (upstream : Nat → Option (Except E AiStreamEvent)) (other : E → E') (index polls : Nat) :
    streamResponse floats format config (fun index => (upstream index).map (Except.mapError other)) index
      polls = streamResponse floats format config upstream index polls := by
  induction polls generalizing index with
  | zero => rfl
  | succ polls ih =>
    rw [streamResponse, streamResponse]
    cases upstream index with
    | none => rfl
    | some event =>
      have same : nextFrame floats format config (Except.mapError other event) =
          nextFrame floats format config event := by
        cases event <;> rfl
      rw [Option.map_some]
      simp only [same, ih]

theorem upToFirst_last {α : Type} {test : α → Bool} {list front rest : List α} {element : α}
    (isUpTo : upToFirst test list = front ++ element :: rest) (passes : test element = true) :
    rest = [] := by
  induction list generalizing front with
  | nil => simp [upToFirst] at isUpTo
  | cons first others ih =>
    rw [upToFirst] at isUpTo
    split_ifs at isUpTo with stopped
    · cases front with
      | nil => exact (List.cons.inj isUpTo).2.symm
      | cons head tail => simp at isUpTo
    · cases front with
      | nil =>
        obtain ⟨rfl, -⟩ := List.cons.inj isUpTo
        exact absurd passes stopped
      | cons head tail => exact ih (List.cons.inj isUpTo).2

/-! ## Documents -/

/-- No event is tagged as an error. -/
theorem text_webEvent_ne (event : AiStreamEvent) (error : TerminalError) :
    text floats (webEvent event) ≠ errorDocument floats error := by
  intro same
  -- the byte behind `{"type":"`
  have ofEvent : (text floats (webEvent event))[9]? = some 116 ∨
      (text floats (webEvent event))[9]? = some 99 := by
    cases event with
    | textDelta delta => exact .inl rfl
    | toolCall call => exact .inl rfl
    | toolResult result => exact .inl rfl
    | completed usage => exact .inr rfl
  have ofError : (errorDocument floats error)[9]? = some 101 := by cases error <;> rfl
  rw [same, ofError] at ofEvent
  revert ofEvent
  decide

theorem stops_of_errorDocument {format : StreamFormat} {config : AiStreamResponseConfig}
    {event : Except E AiStreamEvent} {error : TerminalError}
    (isError : document floats format config event = errorDocument floats error) :
    stops floats format config event = true := by
  cases event with
  | error error => rfl
  | ok event =>
    rw [document] at isError
    split_ifs at isError with isFit
    · exact absurd isError (text_webEvent_ne floats event error)
    · simp [stops, isFit]

/-- A document stands on one line. -/
theorem printable_document (format : StreamFormat) (config : AiStreamResponseConfig)
    (event : Except E AiStreamEvent) : Printable (document floats format config event) := by
  cases event with
  | error error => exact (line_text floats _).printable
  | ok event =>
    rw [document]
    split_ifs
    · exact (line_text floats _).printable
    · exact (line_text floats _).printable

theorem document_ne_nil (format : StreamFormat) (config : AiStreamResponseConfig)
    (event : Except E AiStreamEvent) : document floats format config event ≠ [] := by
  have ofObject (fields : List (String × Json)) : text floats (.object fields) ≠ [] := by simp [text, writes]
  cases event with
  | error error => exact ofObject _
  | ok event =>
    rw [document]
    split_ifs
    · cases event <;> exact ofObject _
    · exact ofObject _

/-! ## Splitting -/

theorem splitOn_lines {lines : List Bytes} (whole : ∀ line ∈ lines, (10 : UInt8) ∉ line) :
    (lines.flatMap (· ++ [10])).splitOn 10 = lines ++ [[]] := by
  induction lines with
  | nil => rfl
  | cons line rest ih =>
    obtain ⟨first, others⟩ := List.forall_mem_cons.1 whole
    rw [List.flatMap_cons, List.append_assoc, List.singleton_append, List.splitOn_append_cons_self,
      List.splitOn_eq_singleton first, ih others]
    rfl

/-- Lines with a blank one after each, split at the blank ones. -/
theorem splitOn_blank {lines : List Bytes} (filled : ∀ line ∈ lines, line ≠ []) :
    (lines.flatMap (fun line => [line, []]) ++ [[]]).splitOn [] =
      lines.map (fun line => [line]) ++ [[], []] := by
  induction lines with
  | nil => rfl
  | cons line rest ih =>
    obtain ⟨first, others⟩ := List.forall_mem_cons.1 filled
    have one : ([] : Bytes) ∉ [line] := by simpa using first.symm
    rw [List.flatMap_cons, List.append_assoc, List.cons_append, List.cons_append, List.nil_append,
      ← List.singleton_append, List.splitOn_append_cons_self, List.splitOn_eq_singleton one, ih others]
    rfl

/-- **A split body gives the documents back.** -/
theorem splitBody_inFrame (format : StreamFormat) {documents : List Bytes}
    (filled : ∀ document ∈ documents, document ≠ [])
    (whole : ∀ document ∈ documents, Printable document) :
    splitBody format (documents.flatMap (inFrame format)) = documents.map (format.framePrefix ++ ·) := by
  have noBreak : ∀ document ∈ documents, (10 : UInt8) ∉ document := fun document member isBreak =>
    absurd (whole document member 10 isBreak) (by decide)
  cases format with
  | ndjson =>
    have lines : documents.flatMap (inFrame .ndjson) = documents.flatMap (· ++ [10]) := rfl
    rw [splitBody, lines, splitOn_lines noBreak, List.filter_append]
    simpa [StreamFormat.framePrefix] using filled
  | sse =>
    generalize isLines : documents.map (StreamFormat.framePrefix .sse ++ ·) = lines
    have filledLines : ∀ line ∈ lines, line ≠ [] := by
      rintro line member rfl
      obtain ⟨document, isDocument, empty⟩ := List.mem_map.1 (isLines ▸ member)
      exact filled document isDocument (List.append_eq_nil_iff.1 empty).2
    have wholeLines : ∀ line ∈ lines.flatMap fun line => [line, []], (10 : UInt8) ∉ line := by
      have ofPrefix : (10 : UInt8) ∉ StreamFormat.framePrefix .sse := by decide
      simp only [← isLines, List.mem_flatMap, List.mem_map]
      rintro line ⟨_, ⟨document, isDocument, rfl⟩, isLine⟩
      rcases List.mem_pair.1 isLine with rfl | rfl
      · simp [ofPrefix, noBreak document isDocument]
      · simp
    have body : documents.flatMap (inFrame .sse) =
        (lines.flatMap fun line => [line, []]).flatMap (· ++ [10]) := by
      rw [← isLines, List.flatMap_assoc, List.flatMap_map]
      refine List.flatMap_congr fun document _ => ?_
      simp [inFrame, StreamFormat.frameSuffix]
    have blocks : ((lines.map fun line => [line]) ++ [[], []]).filter (· ≠ []) =
        lines.map fun line => [line] := by
      rw [List.filter_append, List.filter_eq_self.2 (by simp)]
      simp
    rw [splitBody, body, splitOn_lines wholeLines, splitOn_blank filledLines, blocks, List.map_map]
    exact List.map_id'' (fun line => List.intercalate_singleton) lines

variable {floats}

/-- **The body of a streamed response.**  For any upstream and after any number of polls the frames are
those of the events up to and with the first that is completed, an error or too large; each is within the
limit; a frame of an error is the last one and says nothing about the upstream's error; and the body,
split at its blank lines or newlines, is the documents of the events. -/
theorem body_of_frames (format : StreamFormat) (config : AiStreamResponseConfig)
    (upstream : Nat → Option (Except E AiStreamEvent)) (polls : Nat) :
    let emitted := upToFirst (stops floats format config) (received upstream 0 polls)
    let frames := streamResponse floats format config upstream 0 polls
    frames = emitted.map (fun event => inFrame format (document floats format config event)) ∧
      (∀ frame ∈ frames, frame.length ≤ config.maxFrameBytes) ∧
      (∀ front error rest, frames = front ++ terminalErrorFrame format error :: rest → rest = []) ∧
      (∀ (E' : Type) (other : E → E'),
        streamResponse floats format config (fun index => (upstream index).map (Except.mapError other)) 0
          polls = frames) ∧
      splitBody format frames.flatten =
        emitted.map fun event => format.framePrefix ++ document floats format config event := by
  intro emitted frames
  have isFrames : frames = emitted.map fun event => inFrame format (document floats format config event) :=
    frames_eq floats format config upstream 0 polls
  refine ⟨isFrames, ?_, ?_, ?_, ?_⟩
  · intro frame member
    rw [isFrames] at member
    obtain ⟨event, -, rfl⟩ := List.mem_map.1 member
    exact length_inFrame_document floats format config event
  · intro front error rest split
    rw [isFrames] at split
    obtain ⟨before, after, isEmitted, -, isRest⟩ := List.map_eq_append_iff.1 split
    obtain ⟨event, others, rfl, isFrame, rfl⟩ := List.map_eq_cons_iff.1 isRest
    rw [terminalErrorFrame_eq floats] at isFrame
    have isError := List.append_cancel_right (List.append_cancel_left isFrame)
    rw [upToFirst_last isEmitted (stops_of_errorDocument floats isError), List.map_nil]
  · intro E' other
    exact streamResponse_mapError floats format config upstream other 0 polls
  · have joined : frames.flatten =
        (emitted.map (document floats format config)).flatMap (inFrame format) := by
      rw [isFrames, List.flatMap_map, List.flatMap_def]
    rw [joined, splitBody_inFrame, List.map_map]
    · rfl
    · simpa using fun event _ => document_ne_nil floats format config event
    · simpa using fun event _ => printable_document floats format config event

end

end Rustee.AiWeb
