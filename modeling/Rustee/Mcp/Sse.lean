/-
# Rustee.Mcp.Sse -- the events of an MCP response, whatever the chunks are

`take_sse_frame` and `parse_sse_frame` of `rustee-ai-mcp/src/sse.rs`, and the reading loop
`consume_sse_response` of `http_response.rs`.  A frame is what stands before the first of three
delimiters, and the delimiter.

No delimiter can begin before another one that is already complete (`search_append`), so a frame
that was found stays where it is, and the chunks do not show (`read_eq`).
-/
import Rustee.Foundation.Framing
import Rustee.Foundation.Json
import Rustee.Foundation.Utf8
import Mathlib.Algebra.Group.Nat.Defs

namespace Rustee.Mcp

open Rustee.Foundation

set_option autoImplicit false

inductive McpError where
  | responseTooLarge
  | malformedResponse
  | remoteError
  deriving DecidableEq, Repr

/-! ## Frames -/

/-- `windows(needle.len()).position(|window| window == needle)`. -/
def position (needle : List UInt8) : List UInt8 → Option Nat
  | [] => none
  | byte :: rest =>
    if needle.isPrefixOf (byte :: rest) then some 0 else (position needle rest).map (· + 1)

def delimiters : List (List UInt8) := [[13, 10, 13, 10], [10, 10], [13, 13]]

/-- The first of the positions that is not greater than any other, with the length found there. -/
def earliest : List (Nat × Nat) → Option (Nat × Nat)
  | [] => none
  | found :: others =>
    match earliest others with
    | some other => if other.1 < found.1 then some other else some found
    | none => some found

/-- Where a delimiter stands first, and its length. -/
def foundAt (buffer needle : List UInt8) : Option (Nat × Nat) :=
  (position needle buffer).map fun index => (index, needle.length)

/-- Where `take_sse_frame` cuts. -/
def sseFrameEnd (buffer : List UInt8) : Option Nat :=
  (earliest (delimiters.filterMap (foundAt buffer))).map fun found => found.1 + found.2

/-- The length of the delimiter at the front. -/
def delimiterAt (buffer : List UInt8) : Option Nat :=
  (delimiters.find? fun needle => needle.isPrefixOf buffer).map List.length

/-- The search in one pass. -/
def search : List UInt8 → Option Nat
  | [] => none
  | byte :: rest =>
    match delimiterAt (byte :: rest) with
    | some length => some length
    | none => (search rest).map (· + 1)

theorem earliest_cons_zero (length : Nat) (others : List (Nat × Nat)) :
    earliest ((0, length) :: others) = some (0, length) := by
  rw [earliest]
  split <;> simp

theorem earliest_foundAt (byte : UInt8) (rest : List UInt8) (needles : List (List UInt8)) :
    earliest (needles.filterMap (foundAt (byte :: rest))) =
      match needles.find? fun needle => needle.isPrefixOf (byte :: rest) with
      | some needle => some (0, needle.length)
      | none =>
        (earliest (needles.filterMap (foundAt rest))).map fun found => (found.1 + 1, found.2) := by
  induction needles with
  | nil => rfl
  | cons needle needles ih =>
    rw [List.find?_cons, List.filterMap_cons, List.filterMap_cons]
    cases here : needle.isPrefixOf (byte :: rest) with
    | true =>
      have found : foundAt (byte :: rest) needle = some (0, needle.length) := by
        rw [foundAt, position, if_pos here, Option.map_some]
      rw [found]
      exact earliest_cons_zero _ _
    | false =>
      have found : foundAt (byte :: rest) needle =
          (foundAt rest needle).map fun found => (found.1 + 1, found.2) := by
        rw [foundAt, foundAt, position, if_neg (by rw [here]; exact Bool.false_ne_true), Option.map_map,
          Option.map_map]
        rfl
      rw [found]
      cases foundAt rest needle with
      | none => exact ih
      | some found =>
        simp only [Option.map_some, earliest, ih]
        cases needles.find? fun needle => needle.isPrefixOf (byte :: rest) with
        | some needle => simp
        | none =>
          cases earliest (needles.filterMap (foundAt rest)) with
          | none => rfl
          | some other =>
            simp only [Option.map_some, Nat.add_lt_add_iff_right]
            split_ifs <;> rfl

theorem sseFrameEnd_eq_search (buffer : List UInt8) : sseFrameEnd buffer = search buffer := by
  induction buffer with
  | nil => rfl
  | cons byte rest ih =>
    rw [search, ← ih, sseFrameEnd, earliest_foundAt, delimiterAt]
    cases delimiters.find? fun needle => needle.isPrefixOf (byte :: rest) with
    | some needle => simp
    | none =>
      simp only [Option.map_none, sseFrameEnd, Option.map_map]
      exact congrArg (Option.map · _) (funext fun found => Nat.add_right_comm ..)

variable {buffer : List UInt8}

theorem delimiterAt_bounds {length : Nat} (found : delimiterAt buffer = some length) :
    0 < length ∧ length ≤ buffer.length := by
  obtain ⟨needle, isFound, rfl⟩ := Option.map_eq_some_iff.1 found
  have nonempty : ∀ needle ∈ delimiters, 0 < needle.length := by decide
  have front : needle <+: buffer := by simpa using List.find?_some isFound
  exact ⟨nonempty _ (List.mem_of_find?_eq_some isFound), front.length_le⟩

theorem search_bounds {n : Nat} (found : search buffer = some n) :
    0 < n ∧ n ≤ buffer.length := by
  induction buffer generalizing n with
  | nil => cases found
  | cons byte rest ih =>
    rw [search] at found
    cases here : delimiterAt (byte :: rest) with
    | some length =>
      rw [here] at found
      cases found
      exact delimiterAt_bounds here
    | none =>
      rw [here] at found
      obtain ⟨m, isEnd, rfl⟩ := Option.map_eq_some_iff.1 found
      exact ⟨Nat.succ_pos m, Nat.succ_le_succ (ih isEnd).2⟩

/-- Only four bytes are looked at. -/
theorem delimiterAt_cons_append (a b c d : UInt8) (rest more : List UInt8) :
    delimiterAt (a :: b :: c :: d :: rest ++ more) = delimiterAt (a :: b :: c :: d :: rest) := by
  simp [delimiterAt, delimiters, List.find?, List.isPrefixOf]

/-- No delimiter begins before another one that is already complete. -/
theorem search_append {n : Nat} (found : search buffer = some n) (more : List UInt8) :
    search (buffer ++ more) = some n := by
  induction buffer generalizing n with
  | nil => cases found
  | cons byte rest ih =>
    have same : delimiterAt (byte :: rest ++ more) = delimiterAt (byte :: rest) := by
      match rest with
      | [] => simp [search, delimiterAt, delimiters, List.find?, List.isPrefixOf] at found
      | [a] =>
        simp [search, delimiterAt, delimiters, List.find?, List.isPrefixOf] at found ⊢
        grind
      | [a, b] =>
        simp [search, delimiterAt, delimiters, List.find?, List.isPrefixOf] at found ⊢
        grind
      | a :: b :: c :: rest => exact delimiterAt_cons_append byte a b c rest more
    rw [List.cons_append, search, ← List.cons_append, same]
    rw [search] at found
    cases here : delimiterAt (byte :: rest) with
    | some length => rwa [here] at found
    | none =>
      rw [here] at found
      obtain ⟨m, isEnd, rfl⟩ := Option.map_eq_some_iff.1 found
      simp [ih isEnd]

def sseFraming : Framing UInt8 where
  frameEnd := sseFrameEnd
  pos found := (search_bounds (sseFrameEnd_eq_search _ ▸ found)).1
  le found := (search_bounds (sseFrameEnd_eq_search _ ▸ found)).2

theorem stable_sseFraming : sseFraming.Stable := by
  intro buffer n found more
  have found : search buffer = some n := sseFrameEnd_eq_search buffer ▸ found
  exact (sseFrameEnd_eq_search _).trans (search_append found more)

def takeSseFrame (buffer : List UInt8) : Option (List UInt8 × List UInt8) :=
  (sseFrameEnd buffer).map fun n => (buffer.take n, buffer.drop n)

/-! ## Parsing a frame -/

def maxSseEventIdBytes : Nat := 512

/-- `valid_printable_header_value`. -/
def validPrintableHeaderValue (value : Text) (maxBytes : Nat) : Bool :=
  !value.isEmpty && decide (value.bytes.length ≤ maxBytes) &&
    value.bytes.all fun byte => 0x21 ≤ byte && byte ≤ 0x7e

/-- `SseFrame`; the retry delay is in milliseconds. -/
structure SseFrame where
  eventId : Option Text
  retryDelay : Option Nat
  payload : Option Text
  deriving DecidableEq

/-- `.replace("\r\n", "\n").replace('\r', "\n")`. -/
def normalizeBreaks : Text → Text
  | '\r' :: '\n' :: rest => '\n' :: normalizeBreaks rest
  | '\r' :: rest => '\n' :: normalizeBreaks rest
  | c :: rest => c :: normalizeBreaks rest
  | [] => []

/-- What a line adds: the data lines so far are in the second component. -/
def parseLine (parsed : SseFrame × List Text) (line : Text) : Except McpError (SseFrame × List Text) :=
  if line.isEmpty || line.head? = some ':' then .ok parsed
  else
    let (field, value) := (Text.splitOnce ':' line).getD (line, [])
    let value := (value.dropPrefix? [' ']).getD value
    if field = "data".toList then .ok (parsed.1, parsed.2 ++ [value])
    else if field = "id".toList then
      if validPrintableHeaderValue value maxSseEventIdBytes then
        .ok ({ parsed.1 with eventId := some value }, parsed.2)
      else .error .malformedResponse
    else if field = "retry".toList && Text.isDigits value then
      .ok ({ parsed.1 with retryDelay := Text.parseUnsigned (2 ^ 64 - 1) value }, parsed.2)
    else .ok parsed

def parseSseFrame (frame : List UInt8) : Except McpError SseFrame := do
  let text ← (Text.fromUtf8 frame).elim (.error .malformedResponse) .ok
  let parsed ← ((normalizeBreaks text).splitOnP (· == '\n')).foldlM parseLine (⟨none, none, none⟩, [])
  let payload := List.intercalate ['\n'] parsed.2
  .ok { parsed.1 with payload := if payload = [] then none else some payload }

/-! ## Reading a response -/

section

variable (fromStr : Text → Option Json)

def validSseNotification (value : Json) : Bool :=
  (value.get "jsonrpc").bind Json.asString == some "2.0" &&
    ((value.get "method").bind Json.asString).isSome && (value.get "id").isNone &&
    (value.get "result").isNone && (value.get "error").isNone

def decodeRpcResult (value : Json) (id : UInt64) : Except McpError Json :=
  if (value.get "jsonrpc").bind Json.asString ≠ some "2.0" ∨
      (value.get "id").bind Json.asU64 ≠ some id then
    .error .malformedResponse
  else if (value.get "error").isSome then .error .remoteError
  else (value.get "result").elim (.error .malformedResponse) .ok

inductive SseReadOutcome where
  | result (value : Json)
  | disconnected

structure SseStreamState where
  totalBytes : Nat
  buffer : List UInt8
  lastEventId : Option Text
  retryDelay : Option Nat

/-- What a parsed frame ends the reading with, if it does. -/
def judge (expectedId : UInt64) (frame : SseFrame) : Option (Except McpError SseReadOutcome) :=
  frame.payload.bind fun payload =>
    match fromStr payload with
    | none => some (.error .malformedResponse)
    | some value =>
      if (value.get "id").isSome then
        some ((decodeRpcResult value expectedId).map fun _ => .result value)
      else if validSseNotification value then none
      else some (.error .malformedResponse)

def SseStreamState.note (state : SseStreamState) (frame : SseFrame) (buffer : List UInt8) :
    SseStreamState :=
  { state with
    buffer
    lastEventId := frame.eventId <|> state.lastEventId
    retryDelay := frame.retryDelay <|> state.retryDelay }

/-- The inner loop: the frames that were parsed, and what ends the reading.  Each frame takes bytes, so
`fuel` need not be more than there are. -/
def drain (expectedId : UInt64) : Nat → SseStreamState →
    List SseFrame × SseStreamState × Option (Except McpError SseReadOutcome)
  | 0, state => ([], state, none)
  | fuel + 1, state =>
    match takeSseFrame state.buffer with
    | none => ([], state, none)
    | some (frame, buffer) =>
      match parseSseFrame frame with
      | .error error => ([], { state with buffer }, some (.error error))
      | .ok frame =>
        let state := state.note frame buffer
        match judge fromStr expectedId frame with
        | some outcome => ([frame], state, some outcome)
        | none =>
          let (frames, ended) := drain expectedId fuel state
          (frame :: frames, ended)

/-- `consume_sse_response`, where `none` is a chunk that could not be read: the frames that were parsed,
and the outcome. -/
def consumeSseResponse (maxResponseBytes : Nat) (expectedId : UInt64) :
    List (Option (List UInt8)) → SseStreamState → List SseFrame × Except McpError SseReadOutcome
  | [], _ | none :: _, _ => ([], .ok .disconnected)
  | some chunk :: chunks, state =>
    if chunk.length > maxResponseBytes - state.totalBytes then ([], .error .responseTooLarge)
    else
      let appended := { state with
        totalBytes := state.totalBytes + chunk.length
        buffer := state.buffer ++ chunk }
      match drain fromStr expectedId appended.buffer.length appended with
      | (frames, _, some outcome) => (frames, outcome)
      | (frames, state, none) =>
        if state.buffer.length > maxResponseBytes then (frames, .error .responseTooLarge)
        else
          let (more, outcome) := consumeSseResponse maxResponseBytes expectedId chunks state
          (frames ++ more, outcome)

/-! ## One frame after the other -/

variable {fromStr} {expectedId : UInt64}

/-- What comes of these frames, one after the other. -/
def decodeFrames (fromStr : Text → Option Json) (expectedId : UInt64) :
    List (List UInt8) → List SseFrame × Option (Except McpError SseReadOutcome)
  | [] => ([], none)
  | frame :: frames =>
    match parseSseFrame frame with
    | .error error => ([], some (.error error))
    | .ok frame =>
      match judge fromStr expectedId frame with
      | some outcome => ([frame], some outcome)
      | none =>
        let (parsed, ended) := decodeFrames fromStr expectedId frames
        (frame :: parsed, ended)

/-- An end of the reading, or what comes next. -/
def followedBy {Next : Type} (first : List SseFrame × Option Next)
    (second : List SseFrame × Option Next) :
    List SseFrame × Option Next :=
  match first with
  | (frames, some outcome) => (frames, some outcome)
  | (frames, none) => (frames ++ second.1, second.2)

theorem decodeFrames_append (first second : List (List UInt8)) :
    decodeFrames fromStr expectedId (first ++ second) =
      followedBy (decodeFrames fromStr expectedId first) (decodeFrames fromStr expectedId second) := by
  induction first with
  | nil => rfl
  | cons frame frames ih =>
    rw [List.cons_append, decodeFrames, decodeFrames, ih]
    cases parseSseFrame frame with
    | error error => rfl
    | ok frame =>
      dsimp only
      cases judge fromStr expectedId frame with
      | some outcome => rfl
      | none => rcases decodeFrames fromStr expectedId frames with ⟨parsed, _ | outcome⟩ <;> rfl

/-- Draining decodes the frames of the buffer, and leaves the rest of it. -/
theorem drain_eq {fuel : Nat} {state : SseStreamState} (enough : state.buffer.length ≤ fuel) :
    ∃ after, drain fromStr expectedId fuel state =
        ((decodeFrames fromStr expectedId (sseFraming.frames state.buffer)).1, after,
          (decodeFrames fromStr expectedId (sseFraming.frames state.buffer)).2) ∧
      after.totalBytes = state.totalBytes ∧
      ((decodeFrames fromStr expectedId (sseFraming.frames state.buffer)).2 = none →
        after.buffer = sseFraming.rest state.buffer) := by
  induction bytes : state.buffer using sseFraming.induction generalizing state fuel with
  | incomplete bytes incomplete =>
    subst bytes
    refine ⟨state, ?_, rfl, fun _ => (sseFraming.rest_none incomplete).symm⟩
    rw [sseFraming.frames_none incomplete]
    have nothing : takeSseFrame state.buffer = none := by
      rw [takeSseFrame, show sseFrameEnd state.buffer = none from incomplete, Option.map_none]
    cases fuel with
    | zero => rfl
    | succ fuel => rw [drain, nothing]; rfl
  | frame bytes n found ih =>
    subst bytes
    obtain ⟨fuel, rfl, shorter⟩ := sseFraming.fuel_of_frame found enough
    have taken : takeSseFrame state.buffer = some (state.buffer.take n, state.buffer.drop n) := by
      rw [takeSseFrame, show sseFrameEnd state.buffer = some n from found, Option.map_some]
    rw [sseFraming.frames_some found, sseFraming.rest_some found, drain, taken, decodeFrames]
    dsimp only
    cases parseSseFrame (state.buffer.take n) with
    | error error => exact ⟨_, rfl, rfl, fun none => nomatch none⟩
    | ok frame =>
      dsimp only
      cases judge fromStr expectedId frame with
      | some outcome => exact ⟨_, rfl, rfl, fun none => nomatch none⟩
      | none =>
        have noted : (state.note frame (state.buffer.drop n)).buffer = state.buffer.drop n := rfl
        obtain ⟨after, drained, total, left⟩ := ih shorter noted
        exact ⟨after, by rw [drained], total, left⟩

/-- An unfinished reading ends with the connection. -/
def finished : List SseFrame × Option (Except McpError SseReadOutcome) →
    List SseFrame × Except McpError SseReadOutcome
  | (frames, outcome) => (frames, outcome.getD (.ok .disconnected))

/-- However the bytes come, the outcome is that of their frames. -/
theorem consumeSseResponse_eq {maxResponseBytes : Nat} {chunks : List (List UInt8)}
    {state : SseStreamState}
    (incomplete : sseFrameEnd state.buffer = none) (counted : state.buffer.length ≤ state.totalBytes)
    (fits : state.totalBytes + chunks.flatten.length ≤ maxResponseBytes) :
    consumeSseResponse fromStr maxResponseBytes expectedId (chunks.map some) state =
      finished (decodeFrames fromStr expectedId
        (sseFraming.frames (state.buffer ++ chunks.flatten))) := by
  induction chunks generalizing state with
  | nil =>
    rw [List.flatten_nil, List.append_nil, sseFraming.frames_none incomplete]
    rfl
  | cons chunk chunks ih =>
    rw [List.flatten_cons, List.length_append] at fits
    rw [List.flatten_cons, ← List.append_assoc, sseFraming.frames_append stable_sseFraming,
      decodeFrames_append, List.map_cons, consumeSseResponse, if_neg (by omega)]
    obtain ⟨after, drained, total, left⟩ := @drain_eq fromStr expectedId _
      { state with totalBytes := state.totalBytes + chunk.length, buffer := state.buffer ++ chunk }
      (Nat.le_refl _)
    dsimp only at drained total left ⊢
    rw [drained]
    revert left
    rcases decodeFrames fromStr expectedId (sseFraming.frames (state.buffer ++ chunk)) with
      ⟨frames, _ | outcome⟩ <;> intro left
    · have rest := left rfl
      have short : after.buffer.length ≤ state.totalBytes + chunk.length := by
        have bound := sseFraming.length_rest_le (state.buffer ++ chunk)
        rw [rest]
        rw [List.length_append] at bound
        omega
      dsimp only
      rw [if_neg (by omega), ih (by rw [rest]; exact sseFraming.frameEnd_rest _) (by omega) (by omega), rest]
      rfl
    · rfl

end

def SseStreamState.fresh : SseStreamState := ⟨0, [], none, none⟩

/-- **The chunks do not show.** -/
theorem decoding_chunk_invariant (fromStr : Text → Option Json) (maxResponseBytes : Nat)
    (expectedId : UInt64) (chunks : List (List UInt8))
    (fits : chunks.flatten.length ≤ maxResponseBytes) :
    consumeSseResponse fromStr maxResponseBytes expectedId (chunks.map some) .fresh =
      consumeSseResponse fromStr maxResponseBytes expectedId [some chunks.flatten] .fresh := by
  have whole := @consumeSseResponse_eq fromStr expectedId maxResponseBytes [chunks.flatten] .fresh rfl
    (Nat.le_refl 0)
  rw [List.flatten_singleton] at whole
  have room : SseStreamState.fresh.totalBytes + chunks.flatten.length ≤ maxResponseBytes := by
    simpa [SseStreamState.fresh] using fits
  exact (@consumeSseResponse_eq fromStr expectedId _ chunks .fresh rfl (Nat.le_refl 0) room).trans
    (whole room).symm

/-- The answer to request 1. -/
def pong : Json := .object [("jsonrpc", .string "2.0"), ("id", .ofU64 1), ("result", .object [])]

def pongText : Text := "\x7b\"jsonrpc\":\"2.0\",\"id\":1,\"result\":\x7b\x7d\x7d".toList

def readPong (text : Text) : Option Json := if text = pongText then some pong else none

/-- An event with the answer, cut in its data and in the line breaks after it. -/
def pongChunks : List (List UInt8) :=
  [Text.bytes ("data: ".toList ++ pongText.take 20), Text.bytes (pongText.drop 20) ++ [13], [10, 13], [10]]

theorem decoding_chunk_invariant_cut :
    consumeSseResponse readPong 64 1 (pongChunks.map some) .fresh =
        consumeSseResponse readPong 64 1 [some pongChunks.flatten] .fresh ∧
      (consumeSseResponse readPong 64 1 [some pongChunks.flatten] .fresh).1 =
        [⟨none, none, some pongText⟩] :=
  ⟨decoding_chunk_invariant readPong 64 1 pongChunks (by decide +kernel), by decide +kernel⟩

end Rustee.Mcp
