/-
# Rustee.OpenAi.ByteQueue -- the frame buffer is a queue of bytes

`SseFrameBuffer` does not remove the frames it hands out.  It moves an offset behind them, and drops
what is before the offset once that is as long as what is still to be read.  Nothing of this shows:
whatever is appended and taken, the answers are those of a plain queue (`byteQueue`), which is read off
the buffer by `contents`.

The limit is on the unread bytes only.  What bounds the vector is that the bytes consumed and not yet
dropped are fewer than the unread ones (`Compacted`): an append leaves the offset where it is, and a
frame taken is followed by the test.
-/
import Rustee.Foundation.Machine
import Rustee.OpenAi.Sse
import Mathlib.Order.Nat

namespace Rustee.OpenAi

set_option autoImplicit false

open Rustee.Foundation

/-! ## Calls -/

inductive BufferCall where
  | append (chunk : List UInt8)
  | take
  deriving DecidableEq

inductive BufferAnswer where
  | accepted
  | rejected (error : OpenAiError)
  | taken (frame : Option (List UInt8))
  deriving DecidableEq

/-- Calls of `append_sse_chunk` and `take_sse_frame` on one buffer. -/
def sseBuffer (maxSseEventBytes : Nat) : Machine SseFrameBuffer BufferCall BufferAnswer where
  initial buffer := buffer = .empty
  step buffer
    | .append chunk =>
      match appendSseChunk buffer chunk maxSseEventBytes with
      | .ok buffer => some (buffer, .accepted)
      -- the test comes before any change
      | .error error => some (buffer, .rejected error)
    | .take =>
      match buffer.takeFrame with
      | some (frame, buffer) => some (buffer, .taken (some frame))
      | none => some (buffer, .taken none)

/-- What the buffer is for: chunks are added at one end while there is room, and frames leave at the
other. -/
def byteQueue (maxSseEventBytes : Nat) : Machine (List UInt8) BufferCall BufferAnswer where
  initial queue := queue = []
  step queue
    | .append chunk =>
      if queue.length + chunk.length ≤ maxSseEventBytes then some (queue ++ chunk, .accepted)
      else some (queue, .rejected .streamEventTooLarge)
    | .take =>
      match sseFrameEnd queue with
      | some n => some (queue.drop n, .taken (some (queue.take n)))
      | none => some (queue, .taken none)

def BufferAnswer.bytesIn : BufferCall × BufferAnswer → List UInt8
  | (.append chunk, .accepted) => chunk
  | _ => []

def BufferAnswer.bytesOut : BufferCall × BufferAnswer → List UInt8
  | (_, .taken (some frame)) => frame
  | _ => []

/-- The bytes of the chunks that were accepted. -/
def acceptedBytes (trace : List (BufferCall × BufferAnswer)) : List UInt8 :=
  trace.flatMap BufferAnswer.bytesIn

/-- The bytes of the frames that were handed out. -/
def handedOut (trace : List (BufferCall × BufferAnswer)) : List UInt8 :=
  trace.flatMap BufferAnswer.bytesOut

/-! ## The queue -/

theorem acceptedBytes_concat (trace : List (BufferCall × BufferAnswer))
    (entry : BufferCall × BufferAnswer) :
    acceptedBytes (trace ++ [entry]) = acceptedBytes trace ++ BufferAnswer.bytesIn entry := by
  simp [acceptedBytes]

theorem handedOut_concat (trace : List (BufferCall × BufferAnswer)) (entry : BufferCall × BufferAnswer) :
    handedOut (trace ++ [entry]) = handedOut trace ++ BufferAnswer.bytesOut entry := by
  simp [handedOut]

/-- A queue gives back what was put into it, in order. -/
theorem byteQueue_conserves {maxSseEventBytes : Nat} {queue : List UInt8}
    {trace : List (BufferCall × BufferAnswer)}
    (reached : (byteQueue maxSseEventBytes).Reaches queue trace) :
    handedOut trace ++ queue = acceptedBytes trace ∧ queue.length ≤ maxSseEventBytes := by
  refine reached.invariant (I := fun queue trace =>
    handedOut trace ++ queue = acceptedBytes trace ∧ queue.length ≤ maxSseEventBytes) ?_ ?_
  · rintro _ rfl
    exact ⟨rfl, Nat.zero_le _⟩
  intro before after trace call answer _ ⟨conserved, bounded⟩ _ stepped
  rw [handedOut_concat, acceptedBytes_concat, ← conserved]
  cases call with
  | append chunk =>
    simp only [byteQueue] at stepped
    split_ifs at stepped with fits
    · cases stepped
      exact ⟨by simp [BufferAnswer.bytesIn, BufferAnswer.bytesOut], by rwa [List.length_append]⟩
    · cases stepped
      exact ⟨by simp [BufferAnswer.bytesIn, BufferAnswer.bytesOut], bounded⟩
  | take =>
    simp only [byteQueue] at stepped
    split at stepped
    · cases stepped
      refine ⟨by simp [BufferAnswer.bytesIn, BufferAnswer.bytesOut], ?_⟩
      rw [List.length_drop]
      omega
    · cases stepped
      exact ⟨by simp [BufferAnswer.bytesIn, BufferAnswer.bytesOut], bounded⟩

/-! ## The buffer -/

namespace SseFrameBuffer

/-- Fewer bytes have been consumed than are still to be read. -/
def Compacted (buffer : SseFrameBuffer) : Prop := buffer.start = 0 ∨ buffer.start < buffer.len

theorem compacted_reclaimConsumedPrefix (buffer : SseFrameBuffer) :
    buffer.reclaimConsumedPrefix.Compacted := by
  unfold reclaimConsumedPrefix
  split_ifs with consumed half
  · exact .inl rfl
  · exact .inl rfl
  · exact .inr (not_le.1 half)

theorem length_bytes (buffer : SseFrameBuffer) : buffer.bytes.length = buffer.start + buffer.len :=
  (Nat.add_sub_of_le buffer.start_le).symm

end SseFrameBuffer

section

variable {maxSseEventBytes : Nat} {before after : SseFrameBuffer}

theorem appendSseChunk_eq_ok {chunk : List UInt8}
    (ok : appendSseChunk before chunk maxSseEventBytes = .ok after) :
    chunk.length ≤ maxSseEventBytes - before.len ∧ after.contents = before.contents ++ chunk ∧
      after.Compacted := by
  unfold appendSseChunk at ok
  split_ifs at ok with large
  cases ok
  have within := before.reclaimConsumedPrefix.start_le
  refine ⟨not_lt.1 large, ?_, ?_⟩
  · rw [SseFrameBuffer.contents, List.drop_append_of_le_length within,
      ← before.contents_reclaimConsumedPrefix]
    rfl
  · -- the offset is that of the buffer before, and the unread bytes are more
    rcases before.compacted_reclaimConsumedPrefix with zero | fewer
    · exact .inl zero
    · refine .inr (fewer.trans_le ?_)
      simp only [SseFrameBuffer.len, List.length_append]
      omega

theorem takeFrame_compacted {frame : List UInt8} (taken : before.takeFrame = some (frame, after)) :
    after.Compacted := by
  unfold SseFrameBuffer.takeFrame at taken
  split at taken
  · cases taken
  · cases taken
    exact SseFrameBuffer.compacted_reclaimConsumedPrefix _

/-- What a call does to the buffer: it stays, or it becomes another one that is compacted and stands for
what the queue has become. -/
theorem step_cases {call : BufferCall} {answer : BufferAnswer}
    (within : before.len ≤ maxSseEventBytes)
    (stepped : (sseBuffer maxSseEventBytes).step before call = some (after, answer)) :
    (after = before ∨ after.Compacted) ∧
      (byteQueue maxSseEventBytes).step before.contents call = some (after.contents, answer) := by
  cases call with
  | append chunk =>
    simp only [sseBuffer] at stepped
    simp only [byteQueue, SseFrameBuffer.contents_length]
    split at stepped
    · rename_i appended
      cases stepped
      obtain ⟨fits, contents, compacted⟩ := appendSseChunk_eq_ok appended
      exact ⟨.inr compacted, by rw [if_pos (by omega), contents]⟩
    · rename_i error failed
      cases stepped
      unfold appendSseChunk at failed
      split_ifs at failed with large
      cases failed
      exact ⟨.inl rfl, by rw [if_neg (by omega)]⟩
  | take =>
    simp only [sseBuffer] at stepped
    simp only [byteQueue]
    cases found : sseFrameEnd before.contents with
    | none =>
      rw [SseFrameBuffer.takeFrame_none found] at stepped
      cases stepped
      exact ⟨.inl rfl, rfl⟩
    | some n =>
      obtain ⟨rest, taken, contents⟩ := SseFrameBuffer.takeFrame_some found
      rw [taken] at stepped
      cases stepped
      exact ⟨.inr (takeFrame_compacted taken), by rw [contents]⟩

/-- A reached buffer stands for a reached queue. -/
theorem queue_of_reaches {buffer : SseFrameBuffer} {trace : List (BufferCall × BufferAnswer)}
    (reached : (sseBuffer maxSseEventBytes).Reaches buffer trace) :
    (byteQueue maxSseEventBytes).Reaches buffer.contents trace ∧ buffer.Compacted := by
  refine reached.invariant (I := fun buffer trace =>
    (byteQueue maxSseEventBytes).Reaches buffer.contents trace ∧ buffer.Compacted) ?_ ?_
  · rintro _ rfl
    exact ⟨.start rfl, .inl rfl⟩
  intro before after trace call answer _ ⟨queue, compacted⟩ _ stepped
  have within := (byteQueue_conserves queue).2
  rw [SseFrameBuffer.contents_length] at within
  obtain ⟨changed, queued⟩ := step_cases within stepped
  refine ⟨queue.next trivial queued, ?_⟩
  rcases changed with rfl | again
  · exact compacted
  · exact again

end

/-- **The buffer is a queue of bytes.**  Its answers are those of the queue it stands for, so the frames
handed out and the unread bytes are together the chunks that were accepted; compaction leaves the unread
bytes as they are, a rejected append leaves the buffer as it is, and the vector stays below twice the
limit. -/
theorem buffer_is_queue {maxSseEventBytes : Nat} (positive : 0 < maxSseEventBytes)
    {buffer : SseFrameBuffer} {trace : List (BufferCall × BufferAnswer)}
    (reached : (sseBuffer maxSseEventBytes).Reaches buffer trace) :
    (byteQueue maxSseEventBytes).Reaches buffer.contents trace ∧
      handedOut trace ++ buffer.contents = acceptedBytes trace ∧
      buffer.reclaimConsumedPrefix.contents = buffer.contents ∧
      (∀ chunk after error,
        (sseBuffer maxSseEventBytes).step buffer (.append chunk) = some (after, .rejected error) →
          after = buffer) ∧
      buffer.bytes.length < 2 * maxSseEventBytes := by
  obtain ⟨queue, compacted⟩ := queue_of_reaches reached
  obtain ⟨conserved, within⟩ := byteQueue_conserves queue
  refine ⟨queue, conserved, buffer.contents_reclaimConsumedPrefix, ?_, ?_⟩
  · intro chunk after error stepped
    simp only [sseBuffer] at stepped
    split at stepped
    · cases stepped
    · cases stepped
      rfl
  · rw [SseFrameBuffer.contents_length] at within
    rw [buffer.length_bytes]
    rcases compacted with zero | fewer <;> omega

/-- A frame of two bytes is taken, and the byte behind it stays. -/
theorem buffer_is_queue_two :
    ∃ buffer trace, (sseBuffer 4).Reaches buffer trace ∧
      handedOut trace ++ buffer.contents = [10, 13, 65] ∧ buffer.bytes.length < 8 := by
  obtain ⟨buffer, trace, reached, accepted⟩ := Machine.exists_run_exec (sseBuffer 4) (fun _ _ _ => True)
    rfl [.append [10, 13, 65], .take, .append [66, 67, 68]]
    (fun _ trace => acceptedBytes trace = [10, 13, 65]) (by decide)
  obtain ⟨-, conserved, -, -, bounded⟩ := buffer_is_queue (by decide) reached
  exact ⟨buffer, trace, reached, conserved.trans accepted, bounded⟩

end Rustee.OpenAi
