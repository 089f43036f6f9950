/-
# Rustee.Foundation.Framing -- frames cut off the front of a buffer

A framing tells where the first frame of a buffer ends, once the buffer holds all of it.
The frames of a buffer are cut off one after the other until no more is complete.

Where a framing is stable, a frame that was found stays where it is whatever follows, and it does
not matter when the frames are cut off (`frames_append`).
-/
import Mathlib.Data.List.Basic

namespace Rustee.Foundation

set_option autoImplicit false

universe u

variable {α : Type u}

structure Framing (α : Type u) where
  frameEnd : List α → Option Nat
  pos : ∀ {buffer n}, frameEnd buffer = some n → 0 < n
  le : ∀ {buffer n}, frameEnd buffer = some n → n ≤ buffer.length

namespace Framing

variable (F : Framing α)

/-- At most `fuel` frames. -/
def framesWithin : Nat → List α → List (List α)
  | 0, _ => []
  | fuel + 1, buffer =>
    match F.frameEnd buffer with
    | none => []
    | some n => buffer.take n :: framesWithin fuel (buffer.drop n)

/-- The complete frames of a buffer; there are no more of them than it has elements. -/
def frames (buffer : List α) : List (List α) := F.framesWithin buffer.length buffer

theorem length_drop_lt {buffer : List α} {n : Nat} (found : F.frameEnd buffer = some n) :
    (buffer.drop n).length < buffer.length := by
  have pos := F.pos found
  have le := F.le found
  rw [List.length_drop]
  omega

/-- A loop with fuel for each element can take a frame, and has enough for what follows it. -/
theorem fuel_of_frame {buffer : List α} {n fuel : Nat} (found : F.frameEnd buffer = some n)
    (enough : buffer.length ≤ fuel) : ∃ less, fuel = less + 1 ∧ (buffer.drop n).length ≤ less := by
  have shorter := F.length_drop_lt found
  exact ⟨fuel - 1, by omega, by omega⟩

/-- Induction on the frames of a buffer. -/
@[elab_as_elim]
theorem induction {P : List α → Prop} (buffer : List α)
    (incomplete : ∀ buffer, F.frameEnd buffer = none → P buffer)
    (frame : ∀ buffer n, F.frameEnd buffer = some n → P (buffer.drop n) → P buffer) :
    P buffer := by
  induction length : buffer.length using Nat.strongRecOn generalizing buffer with
  | ind size ih =>
    cases found : F.frameEnd buffer with
    | none => exact incomplete buffer found
    | some n =>
      have shorter : (buffer.drop n).length < size := length ▸ F.length_drop_lt found
      exact frame buffer n found (ih _ shorter _ rfl)

variable {buffer : List α}

theorem framesWithin_none (incomplete : F.frameEnd buffer = none) (fuel : Nat) :
    F.framesWithin fuel buffer = [] := by
  cases fuel with
  | zero => rfl
  | succ fuel => rw [framesWithin, incomplete]

theorem framesWithin_of_le {fuel : Nat} (enough : buffer.length ≤ fuel) :
    F.framesWithin fuel buffer = F.frames buffer := by
  induction buffer using F.induction generalizing fuel with
  | incomplete buffer none => rw [frames, F.framesWithin_none none, F.framesWithin_none none]
  | frame buffer n found ih =>
    obtain ⟨fuel, rfl, shorter⟩ := F.fuel_of_frame found enough
    obtain ⟨size, isSize, inside⟩ := F.fuel_of_frame found (Nat.le_refl _)
    rw [frames, isSize, framesWithin, framesWithin, found]
    simp only
    rw [ih shorter, ih inside]

theorem frames_none (incomplete : F.frameEnd buffer = none) :
    F.frames buffer = [] :=
  F.framesWithin_none incomplete _

theorem frames_some {n : Nat} (found : F.frameEnd buffer = some n) :
    F.frames buffer = buffer.take n :: F.frames (buffer.drop n) := by
  obtain ⟨size, isSize, inside⟩ := F.fuel_of_frame found (Nat.le_refl _)
  rw [frames, isSize, framesWithin, found]
  simp only
  rw [F.framesWithin_of_le inside]

/-- What the complete frames leave over. -/
def rest (buffer : List α) : List α := buffer.drop (F.frames buffer).flatten.length

theorem rest_none (incomplete : F.frameEnd buffer = none) :
    F.rest buffer = buffer := by
  rw [rest, F.frames_none incomplete, List.flatten_nil, List.length_nil, List.drop_zero]

theorem rest_some {n : Nat} (found : F.frameEnd buffer = some n) :
    F.rest buffer = F.rest (buffer.drop n) := by
  rw [rest, F.frames_some found, List.flatten_cons, List.length_append, List.length_take,
    Nat.min_eq_left (F.le found), ← List.drop_drop, rest]

theorem frameEnd_rest (buffer : List α) : F.frameEnd (F.rest buffer) = none := by
  induction buffer using F.induction with
  | incomplete buffer incomplete => rw [F.rest_none incomplete, incomplete]
  | frame buffer n found ih => rw [F.rest_some found, ih]

theorem length_rest_le (buffer : List α) : (F.rest buffer).length ≤ buffer.length := by
  rw [rest, List.length_drop]
  exact Nat.sub_le ..

theorem length_le_of_mem_frames {frame : List α} (member : frame ∈ F.frames buffer) :
    frame.length ≤ buffer.length := by
  induction buffer using F.induction with
  | incomplete buffer incomplete =>
    rw [F.frames_none incomplete] at member
    cases member
  | frame buffer n found ih =>
    rw [F.frames_some found] at member
    rcases List.mem_cons.1 member with rfl | member
    · exact List.length_take_le' ..
    · have below := ih member
      rw [List.length_drop] at below
      omega

/-- What follows does not move the end of a frame that was found. -/
def Stable : Prop :=
  ∀ {buffer : List α} {n : Nat}, F.frameEnd buffer = some n → ∀ more,
    F.frameEnd (buffer ++ more) = some n

theorem frames_append (stable : F.Stable) (buffer more : List α) :
    F.frames (buffer ++ more) = F.frames buffer ++ F.frames (F.rest buffer ++ more) := by
  induction buffer using F.induction with
  | incomplete buffer incomplete =>
    rw [F.frames_none incomplete, F.rest_none incomplete, List.nil_append]
  | frame buffer n found ih =>
    have within := F.le found
    rw [F.frames_some (stable found more), F.frames_some found, F.rest_some found,
      List.take_append_of_le_length within, List.drop_append_of_le_length within, ih, List.cons_append]

end Framing

end Rustee.Foundation
