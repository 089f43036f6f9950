/-
# Rustee.OpenAi.ResponseStream -- the stream of events, whatever the chunks are

The decoding loop of `OpenAiResponsesProvider::stream` in
`rustee-ai-openai/src/provider/responses.rs`: every chunk is appended to the buffer, and the
frames that are complete by then are decoded, until one of them ends the stream.

How the network cuts a stream into chunks should not show.  It does in one place.  A chunk
that ends between the CR and the LF of a blank line has the frame before it decoded at once,
and the LF is left over as a frame of its own, which is malformed.  So all cuts give the same
events and the same outcome exactly when no frame after which decoding goes on ends in a
CRLF, unless what follows it is malformed anyway (`chunk_invariance`).
-/
import Rustee.OpenAi.Sse
import Mathlib.Order.Nat

namespace Rustee.OpenAi

set_option autoImplicit false

open Rustee.Foundation Rustee.Ai

/-! ## The decoding loop -/

/-- What the stream yields, and how it ends. -/
abbrev Outcome := List AiStreamEvent × Except OpenAiError Unit

inductive Verdict where
  | done
  | ignored
  | event (event : AiStreamEvent)

/-- Where the inner loop stops. -/
inductive Drained where
  | waiting (buffer : SseFrameBuffer)
  | done (completed : Bool)
  | failed (error : OpenAiError)

section

variable (fromStr : String → Option Json)

/-- What a frame says. -/
def readFrame (frame : List UInt8) : Except OpenAiError Verdict := do
  let payload ← ssePayload frame
  if payload = "[DONE]" then .ok .done
  else
    match ← decodeStreamEvent fromStr payload with
    | none => .ok .ignored
    | some event => .ok (.event event)

/-- The inner loop: the frames that the buffer holds, as long as none ends the stream.  Each
takes at least one byte, so `fuel` need not be more than the bytes there are. -/
def drain : Nat → SseFrameBuffer → List AiStreamEvent × Drained
  | 0, buffer => ([], .waiting buffer)
  | fuel + 1, buffer =>
    match buffer.takeFrame with
    | none => ([], .waiting buffer)
    | some (frame, buffer) =>
      match readFrame fromStr frame with
      | .error error => ([], .failed error)
      | .ok .done => ([], .done false)
      | .ok .ignored => drain fuel buffer
      | .ok (.event event) =>
        if event.isCompleted then ([event], .done true)
        else
          let (events, drained) := drain fuel buffer
          (event :: events, drained)

/-- After the inner loop: the stream goes on with the next chunk, or it ends. -/
def continueWith (next : SseFrameBuffer → Outcome) : List AiStreamEvent × Drained → Outcome
  | (events, .waiting buffer) => (events ++ (next buffer).1, (next buffer).2)
  | (events, .done completed) => (events, if completed then .ok () else .error .streamTerminated)
  | (events, .failed error) => (events, .error error)

/-- The outer loop over the chunks, of which `none` is one that could not be read. -/
def streamEvents (maxSseEventBytes : Nat) : List (Option (List UInt8)) → SseFrameBuffer → Outcome
  | [], _ => ([], .error .streamTerminated)
  | none :: _, _ => ([], .error .transport)
  | some chunk :: chunks, buffer =>
    match appendSseChunk buffer chunk maxSseEventBytes with
    | .error error => ([], .error error)
    | .ok buffer =>
      continueWith (streamEvents maxSseEventBytes chunks) (drain fromStr buffer.len buffer)

/-- The events of a response whose body comes in these chunks. -/
def responseEvents (maxSseEventBytes : Nat) (chunks : List (List UInt8)) : Outcome :=
  streamEvents fromStr maxSseEventBytes (chunks.map some) .empty

/-! ## One frame after the other -/

/-- What a frame makes of the outcome of what follows it. -/
def consume : Except OpenAiError Verdict → Outcome → Outcome
  | .error error, _ => ([], .error error)
  | .ok .done, _ => ([], .error .streamTerminated)
  | .ok .ignored, rest => rest
  | .ok (.event event), rest =>
    if event.isCompleted then ([event], .ok ()) else (event :: rest.1, rest.2)

/-- Decoding goes on after the frame. -/
def goesOn : Except OpenAiError Verdict → Bool
  | .ok .ignored => true
  | .ok (.event event) => !event.isCompleted
  | _ => false

/-- The outcome of a stream with these frames. -/
def decodeFrames : List (List UInt8) → Outcome
  | [] => ([], .error .streamTerminated)
  | frame :: frames => consume (readFrame fromStr frame) (decodeFrames frames)

theorem consume_stops {verdict : Except OpenAiError Verdict} (stops : goesOn verdict = false)
    (one other : Outcome) : consume verdict one = consume verdict other := by
  match verdict with
  | .error _ => rfl
  | .ok .done => rfl
  | .ok .ignored => cases stops
  | .ok (.event event) =>
    have completed : event.isCompleted = true := by simpa [goesOn] using stops
    simp [consume, completed]

theorem consume_injective {verdict : Except OpenAiError Verdict} (goes : goesOn verdict = true)
    {one other : Outcome} (same : consume verdict one = consume verdict other) : one = other := by
  match verdict with
  | .error _ => cases goes
  | .ok .done => cases goes
  | .ok .ignored => exact same
  | .ok (.event event) =>
    have going : event.isCompleted = false := by simpa [goesOn] using goes
    simp only [consume, going, Bool.false_eq_true, if_false, Prod.mk.injEq, List.cons.injEq,
      true_and] at same
    exact Prod.ext same.1 same.2

theorem readFrame_append_lf (frame : List UInt8) :
    readFrame fromStr (frame ++ [lf]) = readFrame fromStr frame := by
  rw [readFrame, readFrame, ssePayload_append_lf]

variable {buffer : SseFrameBuffer} {maxSseEventBytes : Nat} {chunks : List (List UInt8)}
  {stream : List UInt8}

theorem drain_incomplete (incomplete : sseFrameEnd buffer.contents = none) (fuel : Nat) :
    drain fromStr fuel buffer = ([], .waiting buffer) := by
  cases fuel with
  | zero => rfl
  | succ fuel => rw [drain, SseFrameBuffer.takeFrame_none incomplete]

/-- The inner loop takes the first frame and makes of it what it is. -/
theorem drain_frame {n : Nat} (fuel : Nat) (found : sseFrameEnd buffer.contents = some n)
    (next : SseFrameBuffer → Outcome) :
    ∃ rest : SseFrameBuffer, rest.contents = buffer.contents.drop n ∧
      continueWith next (drain fromStr (fuel + 1) buffer) =
        consume (readFrame fromStr (buffer.contents.take n))
          (continueWith next (drain fromStr fuel rest)) := by
  obtain ⟨rest, taken, contents⟩ := SseFrameBuffer.takeFrame_some found
  refine ⟨rest, contents, ?_⟩
  rw [drain, taken]
  dsimp only
  match readFrame fromStr (buffer.contents.take n) with
  | .error _ => rfl
  | .ok .done => rfl
  | .ok .ignored => rfl
  | .ok (.event event) =>
    dsimp only [consume]
    split_ifs
    · rfl
    · match drain fromStr fuel rest with
      | (_, .waiting _) => rfl
      | (_, .done _) => rfl
      | (_, .failed _) => rfl

/-! ## A CRLF cut in two -/

variable {fromStr}

/-- What comes of an LF that is left over. -/
def leftover : Outcome := ([], .error .malformedStreamEvent)

theorem readFrame_lf : readFrame fromStr [lf] = .error .malformedStreamEvent := by
  have decoded : Text.fromUtf8 [] = some [] := Text.fromUtf8_eq_some.2 rfl
  have payload : ssePayload [lf] = .error .malformedStreamEvent := by
    rw [← List.nil_append [lf], ssePayload_append_lf, ssePayload, decoded]
    decide
  rw [readFrame, payload]
  rfl

variable (fromStr)

/-- The outcomes that a cut within a CRLF can have: decoding goes on after the frame before
it, and then finds the LF. -/
inductive Torn : List (List UInt8) → Outcome → Prop where
  | here {frame : List UInt8} {frames : List (List UInt8)}
      (goes : goesOn (readFrame fromStr frame) = true) (crlf : [cr, lf] <:+ frame) :
      Torn (frame :: frames) (consume (readFrame fromStr frame) leftover)
  | later {frame : List UInt8} {frames : List (List UInt8)} {rest : Outcome}
      (goes : goesOn (readFrame fromStr frame) = true) (torn : Torn frames rest) :
      Torn (frame :: frames) (consume (readFrame fromStr frame) rest)

/-- An outcome that some way of reading the bytes has. -/
def Reads (bytes : List UInt8) (outcome : Outcome) : Prop :=
  outcome = decodeFrames fromStr (sseFraming.frames bytes) ∨
    Torn fromStr (sseFraming.frames bytes) outcome

variable {fromStr}

theorem Reads.frame {bytes : List UInt8} {n : Nat} {rest : Outcome}
    (found : sseFrameEnd bytes = some n) (reads : Reads fromStr (bytes.drop n) rest) :
    Reads fromStr bytes (consume (readFrame fromStr (bytes.take n)) rest) := by
  rw [Reads, sseFraming.frames_some found]
  rcases reads with rfl | torn
  · exact .inl rfl
  · cases goes : goesOn (readFrame fromStr (bytes.take n)) with
    | true => exact .inr (.later goes torn)
    | false => exact .inl (consume_stops goes _ _)

/-- Draining a buffer reads its bytes and those to come, if what is done with the buffer that
is left over does. -/
theorem drain_reads {fuel : Nat} (enough : buffer.contents.length ≤ fuel) {later : List UInt8}
    {next : SseFrameBuffer → Outcome}
    (waits : ∀ rest : SseFrameBuffer, sseFrameEnd rest.contents = none →
      rest.contents.length ≤ buffer.contents.length →
      Reads fromStr (rest.contents ++ later) (next rest))
    (cut : later.head? = some lf → ∀ rest : SseFrameBuffer, rest.contents = [] → next rest = leftover) :
    Reads fromStr (buffer.contents ++ later)
      (continueWith next (drain fromStr fuel buffer)) := by
  induction bytes : buffer.contents using sseFraming.induction generalizing buffer fuel with
  | incomplete bytes incomplete =>
    subst bytes
    rw [drain_incomplete fromStr incomplete]
    exact waits buffer incomplete (Nat.le_refl _)
  | frame bytes n found ih =>
    subst bytes
    have le := sseFraming.le found
    obtain ⟨fuel, rfl, remaining⟩ := sseFraming.fuel_of_frame found enough
    obtain ⟨rest, contents, drained⟩ := drain_frame fromStr fuel found next
    rw [drained]
    have joined := sseFrameEnd_append found later
    split_ifs at joined with torn
    · -- all of the buffer is taken for the frame, whose LF is the first byte to come
      obtain ⟨whole, split⟩ := torn
      simp only [splitsCrlf, Bool.and_eq_true, beq_iff_eq] at split
      obtain ⟨others, rfl⟩ := List.head?_eq_some_iff.1 split.2
      obtain ⟨front, ends⟩ := List.getLast?_eq_some_iff.1 split.1
      have empty : rest.contents = [] := by rw [contents, whole, List.drop_length]
      have left : continueWith next (drain fromStr fuel rest) = leftover := by
        rw [drain_incomplete fromStr (by rw [empty]; rfl)]
        exact cut rfl rest empty
      have frame : (buffer.contents ++ lf :: others).take (n + 1) = buffer.contents ++ [lf] := by
        rw [whole, List.take_length_add_append]
        rfl
      have same : readFrame fromStr (buffer.contents.take n) =
          readFrame fromStr (buffer.contents ++ [lf]) := by
        rw [readFrame_append_lf, whole, List.take_length]
      rw [left, same, Reads, sseFraming.frames_some joined, frame]
      cases goes : goesOn (readFrame fromStr (buffer.contents ++ [lf])) with
      | true => exact .inr (.here goes ⟨front, by rw [ends]; simp⟩)
      | false => exact .inl (consume_stops goes _ _)
    · have shorter : rest.contents.length ≤ buffer.contents.length :=
        contents ▸ (sseFraming.length_drop_lt found).le
      have reads : Reads fromStr (buffer.contents.drop n ++ later)
          (continueWith next (drain fromStr fuel rest)) :=
        ih (contents ▸ remaining) (fun other none bound => waits other none (bound.trans shorter)) contents
      rw [← List.drop_append_of_le_length le] at reads
      rw [← List.take_append_of_le_length le]
      exact reads.frame joined

variable (fromStr)

theorem streamEvents_chunk {chunk : List UInt8}
    (fits : buffer.contents.length + chunk.length ≤ maxSseEventBytes)
    (chunks : List (Option (List UInt8))) :
    ∃ buffer', buffer'.contents = buffer.contents ++ chunk ∧
      streamEvents fromStr maxSseEventBytes (some chunk :: chunks) buffer =
        continueWith (streamEvents fromStr maxSseEventBytes chunks)
          (drain fromStr buffer'.contents.length buffer') := by
  obtain ⟨buffer', appended, contents⟩ := appendSseChunk_ok fits
  refine ⟨buffer', contents, ?_⟩
  rw [streamEvents, appended, buffer'.contents_length]

/-- A stream that starts with an LF fails at once. -/
theorem streamEvents_leftover (empty : buffer.contents = []) (nonempty : ∀ chunk ∈ chunks, chunk ≠ [])
    (first : chunks.flatten.head? = some lf) (fits : chunks.flatten.length ≤ maxSseEventBytes) :
    streamEvents fromStr maxSseEventBytes (chunks.map some) buffer = leftover := by
  match chunks with
  | [] => cases first
  | [] :: _ => exact absurd rfl (nonempty [] List.mem_cons_self)
  | (byte :: others) :: more =>
    have isLf : byte = lf := by simpa using first
    subst isLf
    have room : buffer.contents.length + (lf :: others).length ≤ maxSseEventBytes := by
      rw [List.flatten_cons, List.length_append] at fits
      rw [empty, List.length_nil]
      omega
    obtain ⟨buffer', contents, started⟩ := streamEvents_chunk fromStr room (more.map some)
    rw [empty, List.nil_append] at contents
    have found : sseFrameEnd buffer'.contents = some 1 := by
      rw [contents]
      exact sseFrameEndFrom_break 0 0 (.inr rfl) (fun isCr => absurd isCr lf_ne_cr)
    obtain ⟨rest, -, drained⟩ := drain_frame fromStr others.length found
      (streamEvents fromStr maxSseEventBytes (more.map some))
    rw [List.map_cons, started]
    rw [contents, List.length_cons, drained, contents]
    have frame : (lf :: others).take 1 = [lf] := rfl
    rw [frame, readFrame_lf]
    rfl

/-- However the bytes come, the outcome is that of their frames or a torn one. -/
theorem streamEvents_reads (incomplete : sseFrameEnd buffer.contents = none)
    (nonempty : ∀ chunk ∈ chunks, chunk ≠ [])
    (fits : buffer.contents.length + chunks.flatten.length ≤ maxSseEventBytes) :
    Reads fromStr (buffer.contents ++ chunks.flatten)
      (streamEvents fromStr maxSseEventBytes (chunks.map some) buffer) := by
  induction chunks generalizing buffer with
  | nil =>
    refine .inl ?_
    rw [List.flatten_nil, List.append_nil, sseFraming.frames_none incomplete]
    rfl
  | cons chunk chunks ih =>
    have laterNonempty : ∀ chunk ∈ chunks, chunk ≠ [] :=
      fun other member => nonempty other (List.mem_cons_of_mem chunk member)
    rw [List.flatten_cons, List.length_append] at fits
    have room : buffer.contents.length + chunk.length ≤ maxSseEventBytes := by omega
    obtain ⟨buffer', contents, started⟩ := streamEvents_chunk fromStr room (chunks.map some)
    rw [List.flatten_cons, ← List.append_assoc, ← contents, List.map_cons, started]
    refine drain_reads (Nat.le_refl _) ?_ ?_
    · intro rest none shorter
      refine ih none laterNonempty ?_
      rw [contents, List.length_append] at shorter
      omega
    · intro first rest empty
      exact streamEvents_leftover fromStr empty laterNonempty first (by omega)

/-- Every torn outcome is that of one cut. -/
theorem Torn.cut {bytes : List UInt8} {outcome : Outcome}
    (torn : Torn fromStr (sseFraming.frames bytes) outcome) :
    ∃ first second, bytes = first ++ second ∧ first ≠ [] ∧ second.head? = some lf ∧
      ∀ {buffer : SseFrameBuffer} {fuel : Nat} {next : SseFrameBuffer → Outcome},
        buffer.contents = first → first.length ≤ fuel →
        (∀ rest : SseFrameBuffer, rest.contents = [] → next rest = leftover) →
        continueWith next (drain fromStr fuel buffer) = outcome := by
  induction bytes using sseFraming.induction generalizing outcome with
  | incomplete bytes incomplete =>
    rw [sseFraming.frames_none incomplete] at torn
    cases torn
  | frame bytes n found ih =>
    have pos := sseFraming.pos found
    have le := sseFraming.le found
    rw [sseFraming.frames_some found] at torn
    cases torn with
    | here goes crlf =>
      obtain ⟨front, ends⟩ := crlf
      have parts : bytes = (front ++ [cr]) ++ lf :: bytes.drop n := by
        conv_lhs => rw [← List.take_append_drop n bytes, ← ends]
        simp
      have frame : bytes.take n = (front ++ [cr]) ++ [lf] := by rw [← ends]; simp
      have size : n = (front ++ [cr]).length + 1 := by
        have := congrArg List.length frame
        rw [List.length_take, Nat.min_eq_left le] at this
        rw [this, List.length_append]
        rfl
      have short : sseFrameEnd (front ++ [cr]) = some (front ++ [cr]).length := by
        have whole : sseFrameEnd ((front ++ [cr]) ++ lf :: bytes.drop n) =
            some ((front ++ [cr]).length + 1) := by
          rw [← parts, ← size]
          exact found
        exact sseFrameEnd_torn whole (by simp [splitsCrlf])
      refine ⟨front ++ [cr], lf :: bytes.drop n, parts, by simp, rfl, ?_⟩
      intro buffer fuel next contents enough left
      obtain ⟨fuel, rfl⟩ : ∃ fuel', fuel = fuel' + 1 := ⟨fuel - 1, by simp at enough; omega⟩
      rw [← contents] at short
      obtain ⟨rest, remains, drained⟩ := drain_frame fromStr fuel short next
      rw [List.drop_length] at remains
      rw [drained, drain_incomplete fromStr (by rw [remains]; rfl), List.take_length, frame,
        readFrame_append_lf, contents]
      exact congrArg (consume _) (left rest remains)
    | later goes torn =>
      obtain ⟨first, second, parts, nonempty, isLf, drains⟩ := ih torn
      have whole : bytes = (bytes.take n ++ first) ++ second := by
        rw [List.append_assoc, ← parts, List.take_append_drop]
      have length : (bytes.take n).length = n := by rw [List.length_take, Nat.min_eq_left le]
      have here : sseFrameEnd (bytes.take n ++ first) = some n := by
        have within : n ≤ (bytes.take n ++ first).length := by
          rw [List.length_append]
          omega
        exact sseFrameEnd_of_append (whole ▸ found) within
      refine ⟨bytes.take n ++ first, second, whole, by simp [nonempty], isLf, ?_⟩
      intro buffer fuel next contents enough left
      rw [List.length_append] at enough
      obtain ⟨fuel, rfl⟩ : ∃ fuel', fuel = fuel' + 1 := ⟨fuel - 1, by omega⟩
      rw [← contents] at here
      obtain ⟨rest, remains, drained⟩ := drain_frame fromStr fuel here next
      rw [contents, List.drop_left' length] at remains
      rw [drained, drains remains (by omega) left, contents, List.take_left' length]

/-! ## All ways of cutting a stream -/

/-- Nothing but ignored events comes before a malformed one. -/
def failsAtOnce : List (List UInt8) → Bool
  | [] => false
  | frame :: frames =>
    match readFrame fromStr frame with
    | .error error => error == .malformedStreamEvent
    | .ok .ignored => failsAtOnce frames
    | _ => false

/-- No frame after which decoding goes on ends in a CRLF, unless what follows fails at
once. -/
def robust : List (List UInt8) → Bool
  | [] => true
  | frame :: frames =>
    !goesOn (readFrame fromStr frame) ||
      ((!([cr, lf].isSuffixOf frame) || failsAtOnce fromStr frames) && robust frames)

/-- `chunks` is a way of cutting the stream into chunks that are not empty. -/
def Splits (chunks : List (List UInt8)) (stream : List UInt8) : Prop :=
  chunks.flatten = stream ∧ ∀ chunk ∈ chunks, chunk ≠ []

/-- All ways of cutting the stream give the same events and the same outcome. -/
def ChunkInvariant (maxSseEventBytes : Nat) (stream : List UInt8) : Prop :=
  ∀ chunks chunks', Splits chunks stream → Splits chunks' stream →
    responseEvents fromStr maxSseEventBytes chunks =
      responseEvents fromStr maxSseEventBytes chunks'

theorem failsAtOnce_iff (frames : List (List UInt8)) :
    failsAtOnce fromStr frames = true ↔ decodeFrames fromStr frames = leftover := by
  induction frames with
  | nil => simp [failsAtOnce, decodeFrames, leftover]
  | cons frame frames ih =>
    rw [failsAtOnce, decodeFrames]
    match readFrame fromStr frame with
    | .error error => simp [consume, leftover]
    | .ok .done => simp [consume, leftover]
    | .ok .ignored => exact ih
    | .ok (.event event) =>
      dsimp only [consume]
      split_ifs <;> simp [leftover]

/-- Frames are robust exactly when every torn outcome is that of the whole stream. -/
theorem robust_iff (frames : List (List UInt8)) :
    robust fromStr frames = true ↔
      ∀ outcome, Torn fromStr frames outcome → outcome = decodeFrames fromStr frames := by
  induction frames with
  | nil =>
    refine iff_of_true rfl fun outcome torn => ?_
    cases torn
  | cons frame frames ih =>
    rw [robust, decodeFrames]
    cases goes : goesOn (readFrame fromStr frame) with
    | false =>
      refine iff_of_true rfl fun outcome torn => ?_
      cases torn with
      | here went _ => rw [goes] at went; cases went
      | later went _ => rw [goes] at went; cases went
    | true =>
      simp only [Bool.not_true, Bool.false_or, Bool.and_eq_true, Bool.or_eq_true,
        Bool.not_eq_true', ih, failsAtOnce_iff]
      constructor
      · rintro ⟨atCrlf, below⟩ outcome torn
        cases torn with
        | here _ crlf =>
          rcases atCrlf with other | fails
          · rw [List.isSuffixOf_iff_suffix.2 crlf] at other
            cases other
          · rw [fails]
        | later _ torn => rw [below _ torn]
      · intro every
        refine ⟨?_, fun outcome torn => ?_⟩
        · cases crlf : [cr, lf].isSuffixOf frame with
          | false => exact .inl rfl
          | true =>
            have torn : Torn fromStr (frame :: frames) _ :=
              .here goes (List.isSuffixOf_iff_suffix.1 crlf)
            exact .inr (consume_injective goes (every _ torn)).symm
        · exact consume_injective goes (every _ (.later goes torn))

/-- A buffer with all of the stream in it. -/
theorem drain_all {fuel : Nat} (enough : buffer.contents.length ≤ fuel) :
    continueWith (fun _ => ([], .error .streamTerminated)) (drain fromStr fuel buffer) =
      decodeFrames fromStr (sseFraming.frames buffer.contents) := by
  induction bytes : buffer.contents using sseFraming.induction generalizing buffer fuel with
  | incomplete bytes incomplete =>
    subst bytes
    rw [drain_incomplete fromStr incomplete, sseFraming.frames_none incomplete]
    rfl
  | frame bytes n found ih =>
    subst bytes
    obtain ⟨fuel, rfl, remaining⟩ := sseFraming.fuel_of_frame found enough
    obtain ⟨rest, contents, drained⟩ := drain_frame fromStr fuel found _
    rw [drained, sseFraming.frames_some found, decodeFrames, ih (contents ▸ remaining) contents]

theorem responseEvents_whole (fits : stream.length ≤ maxSseEventBytes) :
    responseEvents fromStr maxSseEventBytes [stream] =
      decodeFrames fromStr (sseFraming.frames stream) := by
  have room : SseFrameBuffer.empty.contents.length + stream.length ≤ maxSseEventBytes := by
    simpa using fits
  obtain ⟨buffer, contents, started⟩ := streamEvents_chunk fromStr room []
  rw [SseFrameBuffer.contents_empty, List.nil_append] at contents
  rw [responseEvents, List.map_singleton, started, ← contents]
  exact drain_all fromStr (Nat.le_refl _)

theorem responseEvents_reads (fits : stream.length ≤ maxSseEventBytes) (splits : Splits chunks stream) :
    Reads fromStr stream (responseEvents fromStr maxSseEventBytes chunks) := by
  obtain ⟨rfl, nonempty⟩ := splits
  exact streamEvents_reads fromStr rfl nonempty (by simpa using fits)

theorem responseEvents_cut {outcome : Outcome} (fits : stream.length ≤ maxSseEventBytes)
    (torn : Torn fromStr (sseFraming.frames stream) outcome) :
    ∃ chunks, Splits chunks stream ∧
      responseEvents fromStr maxSseEventBytes chunks = outcome := by
  obtain ⟨first, second, rfl, nonempty, isLf, drains⟩ := torn.cut
  have nonempty' : second ≠ [] := by
    rintro rfl
    cases isLf
  rw [List.length_append] at fits
  have room : SseFrameBuffer.empty.contents.length + first.length ≤ maxSseEventBytes := by
    rw [SseFrameBuffer.contents_empty, List.length_nil]
    omega
  obtain ⟨buffer, contents, started⟩ := streamEvents_chunk fromStr room ([second].map some)
  refine ⟨[first, second], ⟨by simp, by simp [nonempty, nonempty']⟩, ?_⟩
  rw [SseFrameBuffer.contents_empty, List.nil_append] at contents
  rw [responseEvents, List.map_cons, started]
  refine drains contents (Nat.le_of_eq (by rw [contents])) fun rest empty => ?_
  refine streamEvents_leftover fromStr empty (by simp [nonempty']) (by simpa using isLf) ?_
  rw [List.flatten_singleton]
  omega

/-- How a stream is cut does not show exactly when its frames are robust. -/
theorem chunk_invariance (fromStr : String → Option Json) {maxSseEventBytes : Nat}
    {stream : List UInt8} (fits : stream.length ≤ maxSseEventBytes) :
    ChunkInvariant fromStr maxSseEventBytes stream ↔
      robust fromStr (sseFraming.frames stream) = true := by
  rw [robust_iff]
  constructor
  · intro invariant outcome torn
    obtain ⟨chunks, splits, rfl⟩ := responseEvents_cut fromStr fits torn
    have nonempty : stream ≠ [] := by
      rintro rfl
      cases torn
    rw [← responseEvents_whole fromStr fits]
    exact invariant _ _ splits ⟨List.flatten_singleton, by simpa using nonempty⟩
  · intro every chunks chunks' splits splits'
    have whole : ∀ cut, Splits cut stream → responseEvents fromStr maxSseEventBytes cut =
        decodeFrames fromStr (sseFraming.frames stream) := by
      intro cut isSplit
      rcases responseEvents_reads fromStr fits isSplit with same | torn
      · exact same
      · exact every _ torn
    rw [whole chunks splits, whole chunks' splits']

end

/-! ## A delta and a completion -/

def deltaText : String := "\x7b\"type\":\"response.output_text.delta\",\"delta\":\"hi\"\x7d"

def completedText : String := "\x7b\"type\":\"response.completed\"\x7d"

/-- `serde_json` on these two texts. -/
def twoEvents (text : String) : Option Json :=
  if text = deltaText then
    some (.object [("delta", .string "hi"), ("type", .string "response.output_text.delta")])
  else if text = completedText then some (.object [("type", .string "response.completed")])
  else none

/-- An event of one data line, with this line break. -/
def eventFrame (lineBreak text : String) : List UInt8 :=
  Text.bytes ("data: ".toList ++ text.toList ++ lineBreak.toList ++ lineBreak.toList)

/-- With LF as line break a delta and a completion can be cut anywhere. -/
theorem chunk_invariance_lf :
    (eventFrame "\n" deltaText ++ eventFrame "\n" completedText).length ≤ 1024 ∧
      ChunkInvariant twoEvents 1024
        (eventFrame "\n" deltaText ++ eventFrame "\n" completedText) :=
  ⟨by decide +kernel, (chunk_invariance twoEvents (by decide +kernel)).2 (by decide +kernel)⟩

/-- With CRLF, the stream completes when it comes in one chunk, and fails when the blank line
after the delta is cut between its CR and its LF. -/
theorem crlf_cut :
    (eventFrame "\r\n" deltaText ++ eventFrame "\r\n" completedText).length ≤ 1024 ∧
      (responseEvents twoEvents 1024
        [eventFrame "\r\n" deltaText ++ eventFrame "\r\n" completedText]).2 = .ok () ∧
      (responseEvents twoEvents 1024
        [(eventFrame "\r\n" deltaText).dropLast, lf :: eventFrame "\r\n" completedText]).2 =
          .error .malformedStreamEvent ∧
      ¬ ChunkInvariant twoEvents 1024
        (eventFrame "\r\n" deltaText ++ eventFrame "\r\n" completedText) := by
  have whole : (responseEvents twoEvents 1024
      [eventFrame "\r\n" deltaText ++ eventFrame "\r\n" completedText]).2 = .ok () := by
    decide +kernel
  have cut : (responseEvents twoEvents 1024
      [(eventFrame "\r\n" deltaText).dropLast, lf :: eventFrame "\r\n" completedText]).2 =
        .error .malformedStreamEvent := by
    decide +kernel
  have splits : Splits [eventFrame "\r\n" deltaText ++ eventFrame "\r\n" completedText]
      (eventFrame "\r\n" deltaText ++ eventFrame "\r\n" completedText) := by
    constructor <;> decide +kernel
  have splits' : Splits [(eventFrame "\r\n" deltaText).dropLast, lf :: eventFrame "\r\n" completedText]
      (eventFrame "\r\n" deltaText ++ eventFrame "\r\n" completedText) := by
    constructor <;> decide +kernel
  refine ⟨by decide +kernel, whole, cut, fun invariant => ?_⟩
  rw [invariant _ _ splits splits', cut] at whole
  cases whole

end Rustee.OpenAi
