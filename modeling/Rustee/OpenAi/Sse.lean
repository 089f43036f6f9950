/-
# Rustee.OpenAi.Sse -- server-sent events: frames, payloads and what they decode to

`rustee-ai-openai/src/response/sse.rs`.  Bytes are appended to a buffer as they come and
frames are cut off its front.  A frame ends with a blank line, and a line ends with CR, LF
or CRLF.

`sseFrameEnd` looks at what is in the buffer only.  So a buffer that ends in the CR of a
blank line is taken to hold a complete frame, whether or not an LF is still to come
(`sseFrameEnd_append`): of all cuts this is the one that changes where a frame ends.
-/
import Rustee.Ai.Protocol
import Rustee.Foundation.Framing
import Rustee.Foundation.Utf8

namespace Rustee.OpenAi

set_option autoImplicit false

open Rustee.Foundation Rustee.Ai

inductive OpenAiError where
  | transport
  | malformedResponse
  | malformedEmbeddingResponse
  | emptyEmbeddingBatch
  | embeddingBatchInputLimit
  | embeddingBatchContentLimit
  | malformedStreamEvent
  | streamEventTooLarge
  | streamTerminated
  deriving DecidableEq, Repr

/-! ## The end of a frame -/

abbrev cr : UInt8 := 13

abbrev lf : UInt8 := 10

@[simp] theorem lf_ne_cr : lf ≠ cr := by decide

/-- The loop of `sse_frame_end`, with the bytes from `index` on. -/
def sseFrameEndFrom : Nat → Nat → List UInt8 → Option Nat
  | _, _, [] => none
  | index, lineStart, byte :: rest =>
    if byte = cr then
      match rest with
      | [] => if index = lineStart then some (index + 1) else none
      | next :: others =>
        if next = lf then
          if index = lineStart then some (index + 2)
          else sseFrameEndFrom (index + 2) (index + 2) others
        else if index = lineStart then some (index + 1)
        else sseFrameEndFrom (index + 1) (index + 1) (next :: others)
    else if byte = lf then
      if index = lineStart then some (index + 1) else sseFrameEndFrom (index + 1) (index + 1) rest
    else sseFrameEndFrom (index + 1) lineStart rest

def sseFrameEnd (bytes : List UInt8) : Option Nat := sseFrameEndFrom 0 0 bytes

/-! ### Line by line -/

theorem sseFrameEndFrom_crlf (index lineStart : Nat) (rest : List UInt8) :
    sseFrameEndFrom index lineStart (cr :: lf :: rest) =
      if index = lineStart then some (index + 2)
      else sseFrameEndFrom (index + 2) (index + 2) rest := by
  simp [sseFrameEndFrom]

variable {byte : UInt8} {rest bytes more : List UInt8} {index lineStart n : Nat}

/-- A line break of one byte. -/
theorem sseFrameEndFrom_break (index lineStart : Nat) (isBreak : byte = cr ∨ byte = lf)
    (single : byte = cr → rest.head? ≠ some lf) :
    sseFrameEndFrom index lineStart (byte :: rest) =
      if index = lineStart then some (index + 1)
      else sseFrameEndFrom (index + 1) (index + 1) rest := by
  rcases isBreak with rfl | rfl
  · cases rest with
    | nil => simp [sseFrameEndFrom]
    | cons next others =>
      have other : next ≠ lf := by simpa using single rfl
      rw [sseFrameEndFrom.eq_def]
      simp [other]
  · rw [sseFrameEndFrom.eq_def]
    simp

theorem sseFrameEndFrom_other (index lineStart : Nat) (rest : List UInt8)
    (inLine : byte ≠ cr ∧ byte ≠ lf) :
    sseFrameEndFrom index lineStart (byte :: rest) = sseFrameEndFrom (index + 1) lineStart rest := by
  rw [sseFrameEndFrom.eq_def]
  simp [inLine.1, inLine.2]

/-- Induction on bytes by line breaks. -/
@[elab_as_elim]
theorem byLineBreaks {P : List UInt8 → Prop} (bytes : List UInt8) (nil : P [])
    (crlf : ∀ rest, P rest → P (cr :: lf :: rest))
    (break_ : ∀ byte rest, (byte = cr ∨ byte = lf) → (byte = cr → rest.head? ≠ some lf) →
      P rest → P (byte :: rest))
    (other : ∀ byte rest, byte ≠ cr ∧ byte ≠ lf → P rest → P (byte :: rest)) : P bytes := by
  induction length : bytes.length using Nat.strongRecOn generalizing bytes with
  | ind size ih =>
    cases bytes with
    | nil => exact nil
    | cons byte rest =>
      have below : P rest := ih rest.length (by simp [← length]) rest rfl
      by_cases inLine : byte ≠ cr ∧ byte ≠ lf
      · exact other byte rest inLine below
      · have isBreak : byte = cr ∨ byte = lf := by tauto
        by_cases pair : byte = cr ∧ rest.head? = some lf
        · obtain ⟨rfl, first⟩ := pair
          obtain ⟨others, rfl⟩ := List.head?_eq_some_iff.1 first
          refine crlf others (ih others.length ?_ others rfl)
          rw [← length, List.length_cons, List.length_cons]
          omega
        · exact break_ byte rest isBreak (fun isCr isLf => pair ⟨isCr, isLf⟩) below

theorem sseFrameEndFrom_bounds (found : sseFrameEndFrom index lineStart bytes = some n) :
    index < n ∧ n ≤ index + bytes.length := by
  induction bytes using byLineBreaks generalizing index lineStart with
  | nil => cases found
  | crlf rest ih =>
    rw [sseFrameEndFrom_crlf] at found
    split_ifs at found
    · cases found
      simp
    · have := ih found
      simp only [List.length_cons]
      omega
  | break_ byte rest isBreak single ih =>
    rw [sseFrameEndFrom_break index lineStart isBreak single] at found
    split_ifs at found
    · cases found
      simp
    · have := ih found
      simp only [List.length_cons]
      omega
  | other byte rest inLine ih =>
    rw [sseFrameEndFrom_other index lineStart rest inLine] at found
    have := ih found
    simp only [List.length_cons]
    omega

/-! ### What comes after the buffer -/

/-- A CR is the last byte here and an LF the first one there. -/
def splitsCrlf (bytes more : List UInt8) : Bool :=
  bytes.getLast? == some cr && more.head? == some lf

theorem ne_nil_of_found (found : sseFrameEndFrom index lineStart bytes = some n) : bytes ≠ [] := by
  rintro rfl
  cases found

theorem splitsCrlf_cons (nonempty : rest ≠ []) (more : List UInt8) :
    splitsCrlf (byte :: rest) more = splitsCrlf rest more := by
  rw [splitsCrlf, splitsCrlf, List.getLast?_cons_of_ne_nil nonempty]

/-- A break of one byte stays one, unless it is a CR at the end and an LF follows. -/
theorem single_append (single : byte = cr → rest.head? ≠ some lf)
    (apart : ¬ (byte = cr ∧ rest = [] ∧ more.head? = some lf)) :
    byte = cr → (rest ++ more).head? ≠ some lf := by
  intro isCr
  cases rest with
  | nil => exact fun first => apart ⟨isCr, rfl, first⟩
  | cons next others => exact single isCr

/-- A frame found in a buffer ends at the same place whatever follows, unless it ends with
the buffer, in a CR, and an LF follows: then that is part of the frame as well. -/
theorem sseFrameEndFrom_append (found : sseFrameEndFrom index lineStart bytes = some n)
    (more : List UInt8) :
    sseFrameEndFrom index lineStart (bytes ++ more) =
      some (if n = index + bytes.length ∧ splitsCrlf bytes more then n + 1 else n) := by
  induction bytes using byLineBreaks generalizing index lineStart with
  | nil => cases found
  | crlf rest ih =>
    rw [sseFrameEndFrom_crlf] at found
    rw [List.cons_append, List.cons_append, sseFrameEndFrom_crlf]
    by_cases blank : index = lineStart
    · rw [if_pos blank] at found ⊢
      cases found
      -- the frame ends in an LF, so where it ends with the buffer this is the last byte
      have inside : ¬ (index + 2 = index + (cr :: lf :: rest).length ∧
          splitsCrlf (cr :: lf :: rest) more = true) := by
        rintro ⟨same, split⟩
        have empty : rest = [] := by
          rw [← List.length_eq_zero_iff]
          simp only [List.length_cons] at same
          omega
        subst empty
        simp [splitsCrlf] at split
      rw [if_neg inside]
    · rw [if_neg blank] at found ⊢
      have nonempty := ne_nil_of_found found
      rw [ih found, splitsCrlf_cons (List.cons_ne_nil lf rest), splitsCrlf_cons nonempty]
      simp only [List.length_cons, Nat.add_comm, Nat.add_left_comm]
  | break_ byte rest isBreak single ih =>
    rw [sseFrameEndFrom_break index lineStart isBreak single] at found
    by_cases joined : byte = cr ∧ rest = [] ∧ more.head? = some lf
    · obtain ⟨rfl, rfl, first⟩ := joined
      obtain ⟨others, rfl⟩ := List.head?_eq_some_iff.1 first
      have blank : index = lineStart := by
        by_contra inside
        rw [if_neg inside] at found
        cases found
      rw [if_pos blank] at found
      cases found
      rw [List.cons_append, List.nil_append, sseFrameEndFrom_crlf, if_pos blank]
      simp [splitsCrlf]
    · rw [List.cons_append,
        sseFrameEndFrom_break index lineStart isBreak (single_append single joined)]
      by_cases blank : index = lineStart
      · rw [if_pos blank] at found ⊢
        cases found
        have inside : ¬ (index + 1 = index + (byte :: rest).length ∧
            splitsCrlf (byte :: rest) more = true) := by
          rintro ⟨same, split⟩
          have empty : rest = [] := by
            rw [← List.length_eq_zero_iff]
            simp only [List.length_cons] at same
            omega
          subst empty
          simp only [splitsCrlf, List.getLast?_singleton, Bool.and_eq_true, beq_iff_eq,
            Option.some.injEq] at split
          exact joined ⟨split.1, rfl, split.2⟩
        rw [if_neg inside]
      · rw [if_neg blank] at found ⊢
        rw [ih found, splitsCrlf_cons (ne_nil_of_found found), List.length_cons,
          Nat.add_right_comm, Nat.add_assoc]
  | other byte rest inLine ih =>
    rw [sseFrameEndFrom_other index lineStart rest inLine] at found
    rw [List.cons_append, sseFrameEndFrom_other _ _ _ inLine, ih found,
      splitsCrlf_cons (ne_nil_of_found found), List.length_cons, Nat.add_right_comm, Nat.add_assoc]

/-- Where a buffer has no complete frame, the first frame ends behind it, and behind the LF of
a CRLF at its end. -/
theorem sseFrameEndFrom_incomplete (incomplete : sseFrameEndFrom index lineStart bytes = none)
    (found : sseFrameEndFrom index lineStart (bytes ++ more) = some n) :
    index + bytes.length < n ∧ (splitsCrlf bytes more → index + bytes.length + 1 < n) := by
  induction bytes using byLineBreaks generalizing index lineStart with
  | nil =>
    have bounds := sseFrameEndFrom_bounds found
    exact ⟨bounds.1, fun split => by simp [splitsCrlf] at split⟩
  | crlf rest ih =>
    rw [sseFrameEndFrom_crlf] at incomplete
    rw [List.cons_append, List.cons_append, sseFrameEndFrom_crlf] at found
    split_ifs at incomplete with blank
    rw [if_neg blank] at found
    obtain ⟨behind, split⟩ := ih incomplete found
    simp only [List.length_cons]
    refine ⟨by omega, fun splits => ?_⟩
    cases rest with
    | nil => simp [splitsCrlf] at splits
    | cons byte others =>
      rw [splitsCrlf_cons (by simp), splitsCrlf_cons (by simp)] at splits
      have := split splits
      omega
  | break_ byte rest isBreak single ih =>
    rw [sseFrameEndFrom_break index lineStart isBreak single] at incomplete
    split_ifs at incomplete with blank
    rw [List.cons_append] at found
    by_cases joined : byte = cr ∧ rest = [] ∧ more.head? = some lf
    · obtain ⟨rfl, rfl, first⟩ := joined
      obtain ⟨others, rfl⟩ := List.head?_eq_some_iff.1 first
      rw [List.nil_append, sseFrameEndFrom_crlf, if_neg blank] at found
      have := sseFrameEndFrom_bounds found
      simp only [List.length_cons, List.length_nil]
      omega
    · rw [sseFrameEndFrom_break index lineStart isBreak (single_append single joined),
        if_neg blank] at found
      obtain ⟨behind, split⟩ := ih incomplete found
      simp only [List.length_cons]
      refine ⟨by omega, fun splits => ?_⟩
      cases rest with
      | nil =>
        simp only [splitsCrlf, List.getLast?_singleton, Bool.and_eq_true, beq_iff_eq,
          Option.some.injEq] at splits
        exact absurd ⟨splits.1, rfl, splits.2⟩ joined
      | cons next others =>
        rw [splitsCrlf_cons (by simp)] at splits
        have := split splits
        omega
  | other byte rest inLine ih =>
    rw [sseFrameEndFrom_other index lineStart rest inLine] at incomplete
    rw [List.cons_append, sseFrameEndFrom_other _ _ _ inLine] at found
    obtain ⟨behind, split⟩ := ih incomplete found
    simp only [List.length_cons]
    refine ⟨by omega, fun splits => ?_⟩
    cases rest with
    | nil => simp [splitsCrlf, inLine.1] at splits
    | cons next others =>
      rw [splitsCrlf_cons (by simp)] at splits
      have := split splits
      omega

def sseFraming : Framing UInt8 where
  frameEnd := sseFrameEnd
  pos found := (sseFrameEndFrom_bounds found).1
  le found := by simpa using (sseFrameEndFrom_bounds found).2

theorem sseFrameEnd_append (found : sseFrameEnd bytes = some n) (more : List UInt8) :
    sseFrameEnd (bytes ++ more) =
      some (if n = bytes.length ∧ splitsCrlf bytes more then n + 1 else n) := by
  have joined := sseFrameEndFrom_append found more
  rwa [Nat.zero_add] at joined

/-- A frame that ends within the buffer is found there. -/
theorem sseFrameEnd_of_append {bytes more : List UInt8} {n : Nat}
    (found : sseFrameEnd (bytes ++ more) = some n) (within : n ≤ bytes.length) :
    sseFrameEnd bytes = some n := by
  cases here : sseFrameEnd bytes with
  | none =>
    have behind := (sseFrameEndFrom_incomplete here found).1
    omega
  | some m =>
    rw [sseFrameEnd_append here more, Option.some.injEq] at found
    split_ifs at found with torn
    · omega
    · rw [found]

/-- A frame whose CRLF is cut in two is found without its LF. -/
theorem sseFrameEnd_torn (found : sseFrameEnd (bytes ++ more) = some (bytes.length + 1))
    (split : splitsCrlf bytes more = true) : sseFrameEnd bytes = some bytes.length := by
  cases here : sseFrameEnd bytes with
  | none =>
    have behind := (sseFrameEndFrom_incomplete here found).2 split
    omega
  | some m =>
    have within := sseFraming.le here
    rw [sseFrameEnd_append here more, Option.some.injEq] at found
    split_ifs at found with torn
    · rw [torn.1]
    · omega

/-! ## The buffer -/

/-- `SseFrameBuffer`: the bytes before `start` have been consumed. -/
structure SseFrameBuffer where
  bytes : List UInt8
  start : Nat
  start_le : start ≤ bytes.length

namespace SseFrameBuffer

def empty : SseFrameBuffer := ⟨[], 0, Nat.le_refl 0⟩

def len (buffer : SseFrameBuffer) : Nat := buffer.bytes.length - buffer.start

def reclaimConsumedPrefix (buffer : SseFrameBuffer) : SseFrameBuffer :=
  if buffer.start = buffer.bytes.length then empty
  else if buffer.start ≥ buffer.bytes.length - buffer.start then
    ⟨buffer.bytes.drop buffer.start, 0, Nat.zero_le _⟩
  else buffer

/-- The bytes that are still to be read. -/
def contents (buffer : SseFrameBuffer) : List UInt8 := buffer.bytes.drop buffer.start

def takeFrame (buffer : SseFrameBuffer) : Option (List UInt8 × SseFrameBuffer) :=
  match found : sseFrameEnd buffer.contents with
  | none => none
  | some n =>
    some (buffer.contents.take n, reclaimConsumedPrefix {
      bytes := buffer.bytes
      start := buffer.start + n
      start_le := by
        have within := sseFraming.le found
        have bounded := buffer.start_le
        rw [contents, List.length_drop] at within
        omega })

@[simp] theorem contents_empty : empty.contents = [] := rfl

@[simp] theorem contents_length (buffer : SseFrameBuffer) : buffer.contents.length = buffer.len :=
  List.length_drop

@[simp] theorem contents_reclaimConsumedPrefix (buffer : SseFrameBuffer) :
    buffer.reclaimConsumedPrefix.contents = buffer.contents := by
  unfold reclaimConsumedPrefix
  split_ifs with consumed
  · rw [contents_empty, contents, consumed, List.drop_length]
  · rfl
  · rfl

theorem takeFrame_none {buffer : SseFrameBuffer} (incomplete : sseFrameEnd buffer.contents = none) :
    buffer.takeFrame = none := by
  unfold takeFrame
  split
  · rfl
  · rename_i found
    rw [incomplete] at found
    cases found

theorem takeFrame_some {buffer : SseFrameBuffer} {n : Nat}
    (found : sseFrameEnd buffer.contents = some n) :
    ∃ rest, buffer.takeFrame = some (buffer.contents.take n, rest) ∧
      rest.contents = buffer.contents.drop n := by
  unfold takeFrame
  split
  · rename_i none
    rw [none] at found
    cases found
  · rename_i m same
    rw [same] at found
    cases found
    refine ⟨_, rfl, ?_⟩
    rw [contents_reclaimConsumedPrefix]
    exact List.drop_drop.symm

end SseFrameBuffer

def appendSseChunk (buffer : SseFrameBuffer) (chunk : List UInt8) (maxSseEventBytes : Nat) :
    Except OpenAiError SseFrameBuffer :=
  if chunk.length > maxSseEventBytes - buffer.len then .error .streamEventTooLarge
  else
    .ok {
      bytes := buffer.reclaimConsumedPrefix.bytes ++ chunk
      start := buffer.reclaimConsumedPrefix.start
      start_le := by
        have := buffer.reclaimConsumedPrefix.start_le
        rw [List.length_append]
        omega }

theorem appendSseChunk_ok {buffer : SseFrameBuffer} {chunk : List UInt8} {maxSseEventBytes : Nat}
    (fits : buffer.contents.length + chunk.length ≤ maxSseEventBytes) :
    ∃ buffer', appendSseChunk buffer chunk maxSseEventBytes = .ok buffer' ∧
      buffer'.contents = buffer.contents ++ chunk := by
  rw [SseFrameBuffer.contents_length] at fits
  unfold appendSseChunk
  rw [if_neg (by omega)]
  refine ⟨_, rfl, ?_⟩
  have within := buffer.reclaimConsumedPrefix.start_le
  rw [SseFrameBuffer.contents, List.drop_append_of_le_length within,
    ← buffer.contents_reclaimConsumedPrefix]
  rfl

/-! ## Payloads -/

def isLineBreak (c : Char) : Bool := c == '\r' || c == '\n'

/-- What a line holds after `data:`. -/
def dataLine (line : Text) : Option Text :=
  (line.dropPrefix? "data:".toList).map fun line => (line.dropPrefix? [' ']).getD line

def ssePayload (frame : List UInt8) : Except OpenAiError String :=
  match Text.fromUtf8 frame with
  | none => .error .malformedStreamEvent
  | some text =>
    let payload := List.intercalate ['\n'] ((text.splitOnP isLineBreak).filterMap dataLine)
    if payload = [] then .error .malformedStreamEvent else .ok (String.ofList payload)

/-- One more line break at the end of a frame does not change its payload. -/
theorem ssePayload_append_lf (frame : List UInt8) : ssePayload (frame ++ [lf]) = ssePayload frame := by
  rw [ssePayload, ssePayload, Text.fromUtf8_append_newline]
  cases Text.fromUtf8 frame with
  | none => rfl
  | some text =>
    have lines : ((text ++ ['\n']).splitOnP isLineBreak).filterMap dataLine =
        (text.splitOnP isLineBreak).filterMap dataLine := by
      have blank : ([[]] : List Text).filterMap dataLine = [] := by decide
      rw [List.splitOnP_append_cons text [] (by decide), List.filterMap_append,
        List.splitOnP_nil, blank, List.append_nil]
    simp only [Option.map_some, lines]

/-! ## Events -/

section

variable (fromStr : String → Option Json)

def parseOrMalformed (text : String) : Except OpenAiError Json :=
  (fromStr text).elim (.error .malformedStreamEvent) .ok

def requiredText (value : Json) (name : String) : Except OpenAiError String :=
  ((value.get name).bind Json.asString).elim (.error .malformedStreamEvent) .ok

def usageCount (value : Json) (name : String) : Except OpenAiError Nat :=
  ((value.get name).bind Json.asU64).elim (.error .malformedResponse) fun n => .ok n.toNat

def usage : Option Json → Except OpenAiError Usage
  | none => .ok ⟨0, 0⟩
  | some value => do
    let inputTokens ← usageCount value "input_tokens"
    let outputTokens ← usageCount value "output_tokens"
    .ok ⟨inputTokens, outputTokens⟩

def decodeStreamEvent (payload : String) : Except OpenAiError (Option AiStreamEvent) := do
  let value ← parseOrMalformed fromStr payload
  match (value.get "type").bind Json.asString with
  | some "response.output_text.delta" => do
    let delta ← requiredText value "delta"
    .ok (some (.textDelta delta))
  | some "response.function_call_arguments.done" => do
    let callId ← requiredText value "call_id"
    let name ← requiredText value "name"
    let arguments ← requiredText value "arguments"
    let arguments ← parseOrMalformed fromStr arguments
    let call ← (ToolCall.new callId name arguments).mapError fun _ => .malformedStreamEvent
    .ok (some (.toolCall call))
  | some "response.completed" => do
    let used ← usage ((value.get "response").bind fun response => response.get "usage")
    .ok (some (.completed used))
  | some "response.failed" | some "error" => .error .malformedStreamEvent
  | _ => .ok none

end

end Rustee.OpenAi
