/-
# Rustee.OpenAi.FrameLimit -- what `max_sse_event_bytes` limits

The setting is documented as the size of one complete frame.  `append_sse_chunk` tests it on the
unread bytes together with the chunk, before any frame is cut off, so what it limits depends on the
chunks.

Taken for all ways of cutting a stream, the limit is one on frames in two cases only
(`limit_per_frame_iff`).  The whole stream is within it, or a frame that is longer than the limit is
certain to be met: decoding goes on after every frame before it and none of these ends in a CRLF, which
a cut could tear.
-/
import Rustee.OpenAi.ResponseStream

namespace Rustee.OpenAi

set_option autoImplicit false

open Rustee.Foundation Rustee.Ai

/-! ## Frames and their limit -/

/-- Some frame is longer than the limit, where what is left of the stream counts as a frame. -/
def HasLongFrame (maxSseEventBytes : Nat) (stream : List UInt8) : Prop :=
  (∃ frame ∈ sseFraming.frames stream, maxSseEventBytes < frame.length) ∨
    maxSseEventBytes < (sseFraming.rest stream).length

instance (maxSseEventBytes : Nat) (stream : List UInt8) :
    Decidable (HasLongFrame maxSseEventBytes stream) :=
  inferInstanceAs (Decidable (_ ∨ _))

section

variable (fromStr : String → Option Json)

/-- The stream ends with `StreamEventTooLarge`. -/
def ReportsTooLarge (maxSseEventBytes : Nat) (chunks : List (List UInt8)) : Prop :=
  (responseEvents fromStr maxSseEventBytes chunks).2 = .error .streamEventTooLarge

/-- A frame that is too long is met however the stream is cut; `rest` is what follows the frames. -/
def longFrameReached (maxSseEventBytes : Nat) (rest : List UInt8) : List (List UInt8) → Bool
  | [] => maxSseEventBytes < rest.length
  | frame :: frames =>
    if maxSseEventBytes < frame.length then
      -- without its LF such a frame could just be within the limit
      !(frame.length == maxSseEventBytes + 1 && [cr, lf].isSuffixOf frame)
    else
      goesOn (readFrame fromStr frame) && !([cr, lf].isSuffixOf frame) &&
        longFrameReached maxSseEventBytes rest frames

/-! ## Errors of frames -/

/-- The result is not the error of the limit. -/
def Unlimited {α : Type} (result : Except OpenAiError α) : Prop := result ≠ .error .streamEventTooLarge

theorem Unlimited.bind {α β : Type} {first : Except OpenAiError α} {next : α → Except OpenAiError β}
    (unlimited : Unlimited first) (each : ∀ value, Unlimited (next value)) :
    Unlimited (first >>= next) := by
  cases first with
  | error error => exact fun same => unlimited (by cases same; rfl)
  | ok value => exact each value

theorem unlimited_ok {α : Type} (value : α) : Unlimited (.ok value) := nofun

theorem unlimited_elim {α β : Type} {value : Option α} {error : OpenAiError}
    {next : α → Except OpenAiError β} (different : error ≠ .streamEventTooLarge)
    (each : ∀ value, Unlimited (next value)) : Unlimited (value.elim (.error error) next) := by
  cases value with
  | none => exact fun same => different (by cases same; rfl)
  | some value => exact each value

theorem unlimited_usage (value : Option Json) : Unlimited (usage value) := by
  have count (value : Json) (name : String) : Unlimited (usageCount value name) :=
    unlimited_elim (by decide) fun _ => unlimited_ok _
  cases value with
  | none => exact unlimited_ok _
  | some value => exact (count _ _).bind fun _ => (count _ _).bind fun _ => unlimited_ok _

theorem unlimited_decodeStreamEvent (payload : String) :
    Unlimited (decodeStreamEvent fromStr payload) := by
  have text (value : Json) (name : String) : Unlimited (requiredText value name) :=
    unlimited_elim (by decide) unlimited_ok
  have parsed (text : String) : Unlimited (parseOrMalformed fromStr text) :=
    unlimited_elim (by decide) unlimited_ok
  refine (parsed payload).bind fun value => ?_
  split
  · exact (text _ _).bind fun _ => unlimited_ok _
  · refine (text _ _).bind fun _ => (text _ _).bind fun _ => (text _ _).bind fun _ =>
      (parsed _).bind fun _ => .bind ?_ fun _ => unlimited_ok _
    cases ToolCall.new _ _ _ with
    | error _ => exact nofun
    | ok call => exact unlimited_ok call
  · exact (unlimited_usage _).bind fun _ => unlimited_ok _
  · exact nofun
  · exact nofun
  · exact unlimited_ok _

theorem unlimited_readFrame (frame : List UInt8) : Unlimited (readFrame fromStr frame) := by
  have payload : Unlimited (ssePayload frame) := by
    rw [ssePayload]
    split
    · exact fun same => by cases same
    · dsimp only
      split_ifs
      · exact fun same => by cases same
      · exact unlimited_ok _
  refine payload.bind fun payload => ?_
  split_ifs
  · exact unlimited_ok _
  · refine (unlimited_decodeStreamEvent fromStr payload).bind fun event => ?_
    cases event with
    | none => exact unlimited_ok _
    | some event => exact unlimited_ok _

variable {fromStr}

/-- A frame passes the error of the limit on exactly if decoding goes on. -/
theorem consume_tooLarge_iff {verdict : Except OpenAiError Verdict} (unlimited : Unlimited verdict)
    (rest : Outcome) :
    (consume verdict rest).2 = .error .streamEventTooLarge ↔
      goesOn verdict = true ∧ rest.2 = .error .streamEventTooLarge := by
  match verdict with
  | .error error =>
    simp only [consume, goesOn, Bool.false_eq_true, false_and, iff_false]
    exact fun same => unlimited (by cases same; rfl)
  | .ok .done => simp [consume, goesOn]
  | .ok .ignored => simp [consume, goesOn]
  | .ok (.event event) =>
    dsimp only [consume]
    split_ifs with completed <;> simp [goesOn, completed]

variable {maxSseEventBytes : Nat} {buffer : SseFrameBuffer} {chunk : List UInt8}

theorem streamEvents_tooLarge (exceeds : maxSseEventBytes < buffer.contents.length + chunk.length)
    (within : buffer.contents.length ≤ maxSseEventBytes) (chunks : List (Option (List UInt8))) :
    (streamEvents fromStr maxSseEventBytes (some chunk :: chunks) buffer).2 =
      .error .streamEventTooLarge := by
  rw [SseFrameBuffer.contents_length] at exceeds within
  rw [streamEvents, appendSseChunk, if_pos (by omega)]

/-! ## Frames that are met -/

/-- The first frame is torn, or is within the limit and decoding goes on after it. -/
theorem longFrameReached_cons {frame rest : List UInt8} {frames : List (List UInt8)}
    (reached : longFrameReached fromStr maxSseEventBytes rest (frame :: frames) = true)
    (short : frame.length ≤ maxSseEventBytes + 1)
    (within : [cr, lf].isSuffixOf frame = true ∨ frame.length ≤ maxSseEventBytes) :
    [cr, lf].isSuffixOf frame = false ∧ goesOn (readFrame fromStr frame) = true ∧
      longFrameReached fromStr maxSseEventBytes rest frames = true := by
  rw [longFrameReached] at reached
  split_ifs at reached with long
  · have size : frame.length = maxSseEventBytes + 1 := by omega
    rcases within with crlf | fits
    · simp [size, crlf] at reached
    · omega
  · simp only [Bool.and_eq_true, Bool.not_eq_true'] at reached
    exact ⟨reached.1.2, reached.1.1, reached.2⟩

/-- What the frames of a stream are to a limit. -/
def reachedIn (fromStr : String → Option Json) (maxSseEventBytes : Nat) (stream : List UInt8) : Bool :=
  longFrameReached fromStr maxSseEventBytes (sseFraming.rest stream) (sseFraming.frames stream)

variable {stream : List UInt8}

theorem reachedIn_none (incomplete : sseFrameEnd stream = none) :
    reachedIn fromStr maxSseEventBytes stream = decide (maxSseEventBytes < stream.length) := by
  rw [reachedIn, sseFraming.frames_none incomplete, sseFraming.rest_none incomplete, longFrameReached]

theorem reachedIn_some {n : Nat} (found : sseFrameEnd stream = some n) :
    reachedIn fromStr maxSseEventBytes stream =
      longFrameReached fromStr maxSseEventBytes (sseFraming.rest (stream.drop n))
        (stream.take n :: sseFraming.frames (stream.drop n)) := by
  rw [reachedIn, sseFraming.frames_some found, sseFraming.rest_some found]

/-- Draining a buffer within the limit comes to the long frame, or to what follows the buffer. -/
theorem drain_reports {fuel : Nat} (enough : buffer.contents.length ≤ fuel)
    (within : buffer.contents.length ≤ maxSseEventBytes) {later : List UInt8}
    {next : SseFrameBuffer → Outcome}
    (waits : ∀ rest : SseFrameBuffer, sseFrameEnd rest.contents = none →
      rest.contents.length ≤ maxSseEventBytes →
      reachedIn fromStr maxSseEventBytes (rest.contents ++ later) = true →
      (next rest).2 = .error .streamEventTooLarge)
    (reached : reachedIn fromStr maxSseEventBytes (buffer.contents ++ later) = true) :
    (continueWith next (drain fromStr fuel buffer)).2 = .error .streamEventTooLarge := by
  induction bytes : buffer.contents using sseFraming.induction generalizing buffer fuel with
  | incomplete bytes incomplete =>
    subst bytes
    rw [drain_incomplete fromStr incomplete]
    exact waits buffer incomplete within reached
  | frame bytes n found ih =>
    subst bytes
    have le := sseFraming.le found
    obtain ⟨fuel, rfl, remaining⟩ := sseFraming.fuel_of_frame found enough
    obtain ⟨rest, contents, drained⟩ := drain_frame fromStr fuel found next
    have joined := sseFrameEnd_append found later
    split_ifs at joined with torn
    · -- the frame ends in a CRLF, of which only the CR has come
      obtain ⟨whole, split⟩ := torn
      simp only [splitsCrlf, Bool.and_eq_true, beq_iff_eq] at split
      obtain ⟨others, rfl⟩ := List.head?_eq_some_iff.1 split.2
      obtain ⟨front, ends⟩ := List.getLast?_eq_some_iff.1 split.1
      have frame : (buffer.contents ++ lf :: others).take (n + 1) = buffer.contents ++ [lf] := by
        rw [whole, List.take_length_add_append]
        rfl
      have crlf : [cr, lf].isSuffixOf (buffer.contents ++ [lf]) = true := by
        rw [List.isSuffixOf_iff_suffix]
        exact ⟨front, by rw [ends]; simp⟩
      rw [reachedIn_some joined, frame] at reached
      have size : (buffer.contents ++ [lf]).length ≤ maxSseEventBytes + 1 := by
        rw [List.length_append, List.length_singleton]
        omega
      have plain := (longFrameReached_cons reached size (.inl crlf)).1
      rw [crlf] at plain
      cases plain
    · rw [reachedIn_some joined, List.take_append_of_le_length le, List.drop_append_of_le_length le] at reached
      have size : (buffer.contents.take n).length ≤ maxSseEventBytes :=
        (List.length_take_le' ..).trans within
      obtain ⟨-, goes, reached⟩ := longFrameReached_cons reached (by omega) (.inr size)
      have shorter : rest.contents.length ≤ buffer.contents.length :=
        contents ▸ (sseFraming.length_drop_lt found).le
      rw [drained, consume_tooLarge_iff (unlimited_readFrame fromStr _)]
      rw [← contents] at reached
      exact ⟨goes, ih (contents ▸ remaining) (shorter.trans within) reached contents⟩

/-- However the stream is cut, the frame that is too long is reported. -/
theorem streamEvents_reports {chunks : List (List UInt8)}
    (incomplete : sseFrameEnd buffer.contents = none)
    (within : buffer.contents.length ≤ maxSseEventBytes)
    (reached : reachedIn fromStr maxSseEventBytes (buffer.contents ++ chunks.flatten) = true) :
    (streamEvents fromStr maxSseEventBytes (chunks.map some) buffer).2 = .error .streamEventTooLarge := by
  induction chunks generalizing buffer with
  | nil =>
    rw [List.flatten_nil, List.append_nil, reachedIn_none incomplete, decide_eq_true_iff] at reached
    omega
  | cons chunk chunks ih =>
    rw [List.map_cons]
    by_cases fits : buffer.contents.length + chunk.length ≤ maxSseEventBytes
    · obtain ⟨buffer', contents, started⟩ := streamEvents_chunk fromStr fits (chunks.map some)
      rw [started]
      refine drain_reports (Nat.le_refl _) ?_ (fun rest none small met => ih none small met) ?_
      · rw [contents, List.length_append]
        exact fits
      · rw [contents, List.append_assoc, ← List.flatten_cons]
        exact reached
    · exact streamEvents_tooLarge (by omega) within _

/-! ## Streams within the limit -/

theorem drain_unlimited {fuel : Nat} {next : SseFrameBuffer → Outcome}
    (waits : ∀ rest : SseFrameBuffer, rest.contents.length ≤ buffer.contents.length →
      Unlimited (next rest).2) : Unlimited (continueWith next (drain fromStr fuel buffer)).2 := by
  induction fuel generalizing buffer with
  | zero => exact waits buffer (Nat.le_refl _)
  | succ fuel ih =>
    cases found : sseFrameEnd buffer.contents with
    | none =>
      rw [drain_incomplete fromStr found]
      exact waits buffer (Nat.le_refl _)
    | some n =>
      obtain ⟨rest, contents, drained⟩ := drain_frame fromStr fuel found next
      have shorter : rest.contents.length ≤ buffer.contents.length := by
        rw [contents, List.length_drop]
        exact Nat.sub_le ..
      rw [drained, Unlimited, Ne, consume_tooLarge_iff (unlimited_readFrame fromStr _)]
      exact fun reported => ih (fun other small => waits other (small.trans shorter)) reported.2

theorem streamEvents_unlimited {chunks : List (List UInt8)}
    (fits : buffer.contents.length + chunks.flatten.length ≤ maxSseEventBytes) :
    Unlimited (streamEvents fromStr maxSseEventBytes (chunks.map some) buffer).2 := by
  induction chunks generalizing buffer with
  | nil => exact nofun
  | cons chunk chunks ih =>
    rw [List.flatten_cons, List.length_append] at fits
    obtain ⟨buffer', contents, started⟩ := streamEvents_chunk fromStr
      (show buffer.contents.length + chunk.length ≤ maxSseEventBytes by omega) (chunks.map some)
    rw [List.map_cons, started]
    refine drain_unlimited fun rest small => ih ?_
    rw [contents, List.length_append] at small
    omega

/-! ## Frames that are missed -/

/-- A frame that comes alone, as one chunk. -/
theorem streamEvents_frame {frame : List UInt8} (empty : buffer.contents = [])
    (fits : frame.length ≤ maxSseEventBytes) (whole : sseFrameEnd frame = some frame.length)
    (chunks : List (Option (List UInt8))) :
    ∃ buffer' : SseFrameBuffer, buffer'.contents = [] ∧
      streamEvents fromStr maxSseEventBytes (some frame :: chunks) buffer =
        consume (readFrame fromStr frame) (streamEvents fromStr maxSseEventBytes chunks buffer') := by
  have room : buffer.contents.length + frame.length ≤ maxSseEventBytes := by
    rw [empty, List.length_nil]
    omega
  obtain ⟨buffer', contents, started⟩ := streamEvents_chunk fromStr room chunks
  rw [empty, List.nil_append] at contents
  have pos := sseFraming.pos whole
  obtain ⟨fuel, isFuel⟩ : ∃ fuel, frame.length = fuel + 1 := ⟨frame.length - 1, by omega⟩
  rw [← contents] at whole
  obtain ⟨rest, remains, drained⟩ := drain_frame fromStr fuel whole
    (streamEvents fromStr maxSseEventBytes chunks)
  rw [List.drop_length] at remains
  refine ⟨rest, remains, ?_⟩
  rw [started, contents, isFuel, drained, drain_incomplete fromStr (by rw [remains]; rfl), contents,
    List.take_length]
  rfl

/-- A frame that ends in a CRLF, cut between the CR and the LF. -/
theorem exists_torn {n : Nat} (found : sseFrameEnd stream = some n)
    (crlf : [cr, lf].isSuffixOf (stream.take n) = true) (size : n ≤ maxSseEventBytes + 1) :
    ∃ chunks : List (List UInt8), chunks.flatten = stream ∧
      ∀ buffer : SseFrameBuffer, buffer.contents = [] →
        Unlimited (streamEvents fromStr maxSseEventBytes (chunks.map some) buffer).2 := by
  obtain ⟨front, ends⟩ := List.isSuffixOf_iff_suffix.1 crlf
  have le := sseFraming.le found
  have parts : stream = (front ++ [cr]) ++ lf :: stream.drop n := by
    conv_lhs => rw [← List.take_append_drop n stream, ← ends]
    simp
  have length : n = (front ++ [cr]).length + 1 := by
    have same := congrArg List.length ends
    rw [List.length_take, Nat.min_eq_left le] at same
    rw [← same, List.length_append, List.length_append]
    rfl
  have short : sseFrameEnd (front ++ [cr]) = some (front ++ [cr]).length := by
    have whole : sseFrameEnd ((front ++ [cr]) ++ lf :: stream.drop n) =
        some ((front ++ [cr]).length + 1) := by
      rw [← parts, ← length]
      exact found
    exact sseFrameEnd_torn whole (by simp [splitsCrlf])
  have alone : sseFrameEnd [lf] = some [lf].length := by decide
  have room : [lf].length ≤ maxSseEventBytes := by
    have := sseFraming.pos short
    simp only [List.length_singleton]
    omega
  refine ⟨[front ++ [cr], [lf], stream.drop n], by rw [parts]; simp [← parts], fun buffer empty => ?_⟩
  obtain ⟨rest, emptied, first⟩ := @streamEvents_frame fromStr maxSseEventBytes buffer _ empty (by omega)
    short [some [lf], some (stream.drop n)]
  obtain ⟨_, -, second⟩ := @streamEvents_frame fromStr maxSseEventBytes rest _ emptied room alone
    [some (stream.drop n)]
  rw [List.map_cons, List.map_cons, List.map_singleton, first, second, readFrame_lf, Unlimited, Ne,
    consume_tooLarge_iff (unlimited_readFrame fromStr _)]
  exact fun reported => absurd reported.2 (by simp [consume])

/-- A stream in which no long frame is certain to be met can be cut so that none is reported. -/
theorem exists_unreported (missed : reachedIn fromStr maxSseEventBytes stream = false)
    (hasLong : HasLongFrame maxSseEventBytes stream) :
    ∃ chunks : List (List UInt8), chunks.flatten = stream ∧
      ∀ buffer : SseFrameBuffer, buffer.contents = [] →
        Unlimited (streamEvents fromStr maxSseEventBytes (chunks.map some) buffer).2 := by
  induction stream using sseFraming.induction with
  | incomplete stream incomplete =>
    rw [reachedIn_none incomplete, decide_eq_false_iff_not] at missed
    rw [HasLongFrame, sseFraming.frames_none incomplete, sseFraming.rest_none incomplete] at hasLong
    simp [missed] at hasLong
  | frame stream n found ih =>
    have le := sseFraming.le found
    have length : (stream.take n).length = n := by rw [List.length_take, Nat.min_eq_left le]
    rw [reachedIn_some found, longFrameReached, length] at missed
    by_cases torn : [cr, lf].isSuffixOf (stream.take n) = true ∧ n ≤ maxSseEventBytes + 1
    · exact exists_torn found torn.1 torn.2
    · split_ifs at missed with long
      · simp only [Bool.not_eq_false', Bool.and_eq_true, beq_iff_eq] at missed
        exact absurd ⟨missed.2, by omega⟩ torn
      · have whole : sseFrameEnd (stream.take n) = some (stream.take n).length := by
          rw [length]
          refine @sseFrameEnd_of_append (stream.take n) (stream.drop n) n ?_ (by omega)
          rw [List.take_append_drop]
          exact found
        have fits : (stream.take n).length ≤ maxSseEventBytes := by omega
        by_cases goes : goesOn (readFrame fromStr (stream.take n)) = true
        · have plain : [cr, lf].isSuffixOf (stream.take n) = false := by
            by_contra crlf
            exact torn ⟨by simpa using crlf, by omega⟩
          rw [goes, plain] at missed
          have later : HasLongFrame maxSseEventBytes (stream.drop n) := by
            rw [HasLongFrame, sseFraming.frames_some found, sseFraming.rest_some found] at hasLong
            simpa [HasLongFrame, length, long] using hasLong
          obtain ⟨chunks, joined, unreported⟩ := ih (by simpa [reachedIn] using missed) later
          refine ⟨stream.take n :: chunks, by rw [List.flatten_cons, joined, List.take_append_drop], ?_⟩
          intro buffer empty
          obtain ⟨rest, emptied, first⟩ := @streamEvents_frame fromStr maxSseEventBytes buffer _ empty fits
            whole (chunks.map some)
          rw [List.map_cons, first, Unlimited, Ne, consume_tooLarge_iff (unlimited_readFrame fromStr _)]
          exact fun reported => unreported rest emptied reported.2
        · refine ⟨[stream.take n, stream.drop n], by simp, fun buffer empty => ?_⟩
          obtain ⟨rest, -, first⟩ := @streamEvents_frame fromStr maxSseEventBytes buffer _ empty fits whole
            [some (stream.drop n)]
          rw [List.map_cons, List.map_singleton, first, Unlimited, Ne,
            consume_tooLarge_iff (unlimited_readFrame fromStr _)]
          exact fun reported => goes reported.1

end

theorem hasLongFrame_of_reachedIn {fromStr : String → Option Json} {maxSseEventBytes : Nat}
    {stream : List UInt8} (reached : reachedIn fromStr maxSseEventBytes stream = true) :
    HasLongFrame maxSseEventBytes stream := by
  induction stream using sseFraming.induction with
  | incomplete stream incomplete =>
    rw [reachedIn_none incomplete, decide_eq_true_iff] at reached
    rw [HasLongFrame, sseFraming.rest_none incomplete]
    exact .inr reached
  | frame stream n found ih =>
    rw [HasLongFrame, sseFraming.frames_some found, sseFraming.rest_some found, List.exists_mem_cons_iff]
    rw [reachedIn_some found, longFrameReached] at reached
    split_ifs at reached with long
    · exact .inl (.inl long)
    · simp only [Bool.and_eq_true] at reached
      rcases ih reached.2 with later | rest
      · exact .inl (.inr later)
      · exact .inr rest

/-- **When the limit is one on frames.**  For all ways of cutting a stream, its outcome is
`StreamEventTooLarge` exactly if one of its frames is longer than the limit: this holds if the whole
stream is within the limit, or a longer frame is certain to be met, and in no other case. -/
theorem limit_per_frame_iff (fromStr : String → Option Json) (maxSseEventBytes : Nat)
    (stream : List UInt8) :
    (∀ chunks : List (List UInt8), chunks.flatten = stream →
        (ReportsTooLarge fromStr maxSseEventBytes chunks ↔ HasLongFrame maxSseEventBytes stream)) ↔
      stream.length ≤ maxSseEventBytes ∨
        longFrameReached fromStr maxSseEventBytes (sseFraming.rest stream) (sseFraming.frames stream) =
          true := by
  constructor
  · intro perFrame
    by_cases small : stream.length ≤ maxSseEventBytes
    · exact .inl small
    · refine .inr (of_not_not fun missed => ?_)
      have reported : ReportsTooLarge fromStr maxSseEventBytes [stream] :=
        streamEvents_tooLarge (by simpa using small) (Nat.zero_le _) []
      have hasLong := (perFrame [stream] List.flatten_singleton).1 reported
      obtain ⟨chunks, joined, unreported⟩ := exists_unreported (Bool.eq_false_iff.2 missed) hasLong
      exact unreported .empty rfl ((perFrame chunks joined).2 hasLong)
  · rintro (small | reached) chunks rfl
    · refine iff_of_false (streamEvents_unlimited (by simpa using small)) ?_
      rintro (⟨frame, member, long⟩ | long)
      · have := sseFraming.length_le_of_mem_frames member
        omega
      · have := sseFraming.length_rest_le chunks.flatten
        omega
    · exact iff_of_true (streamEvents_reports rfl (Nat.zero_le _) reached) (hasLongFrame_of_reachedIn reached)

/-- Two frames within the limit in one chunk. -/
theorem small_frames_rejected :
    ¬ HasLongFrame 64 (eventFrame "\n" deltaText ++ eventFrame "\n" completedText) ∧
      ReportsTooLarge twoEvents 64 [eventFrame "\n" deltaText ++ eventFrame "\n" completedText] := by
  refine ⟨by decide +kernel, ?_⟩
  rw [ReportsTooLarge]
  decide +kernel

end Rustee.OpenAi
