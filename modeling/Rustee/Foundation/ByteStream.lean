/-
# Rustee.Foundation.ByteStream -- a file read in pieces, and what of it goes out

A body is a list of items, each some bytes or an error.  Whoever sends it stops at the first
error, so that what goes out is the bytes before it (`emitted`).  `Delivers` says that this is the
beginning of an expected text, and all of it unless there was an error; bodies that deliver their
parts deliver them one after another (`Delivers.append`).

Every operation on a file may fail, and a read gives any number of bytes from one up to what there
is room for.  Whatever the pieces are, reading up to a limit delivers the bytes up to it
(`delivers_readChunks`).
-/
import Mathlib.Data.List.Infix

namespace Rustee.Foundation

set_option autoImplicit false

variable {Error : Type}

/-! ## Bodies -/

abbrev Body (Error : Type) := List (Except Error (List UInt8))

namespace Body

/-- The bytes before the first error. -/
def emitted : Body Error → List UInt8
  | [] => []
  | .ok bytes :: rest => bytes ++ emitted rest
  | .error _ :: _ => []

def Clean (body : Body Error) : Prop := ∀ item ∈ body, item.isOk = true

variable {first : Body Error}

theorem Clean.append {second : Body Error} (clean : first.Clean) (also : second.Clean) :
    Clean (first ++ second) := fun item member => by
  rcases List.mem_append.1 member with isFirst | isSecond
  · exact clean item isFirst
  · exact also item isSecond

theorem emitted_append_of_clean (clean : first.Clean) (second : Body Error) :
    emitted (first ++ second) = emitted first ++ emitted second := by
  induction first with
  | nil => rfl
  | cons item rest ih =>
    obtain ⟨fine, others⟩ := List.forall_mem_cons.1 clean
    cases item with
    | error error => cases fine
    | ok bytes => simp only [List.cons_append, emitted, ih others, List.append_assoc]

theorem emitted_append_of_error (failed : ¬first.Clean) (second : Body Error) :
    emitted (first ++ second) = emitted first := by
  induction first with
  | nil => exact absurd (by simp [Clean]) failed
  | cons item rest ih =>
    cases item with
    | error error => rfl
    | ok bytes =>
      have later : ¬Clean rest := fun clean => failed (List.forall_mem_cons.2 ⟨rfl, clean⟩)
      simp only [List.cons_append, emitted, ih later]

/-- What goes out is the beginning of the text, and all of it without an error. -/
structure Delivers (body : Body Error) (text : List UInt8) : Prop where
  begins : emitted body <+: text
  whole : body.Clean → emitted body = text

theorem delivers_nil : Delivers ([] : Body Error) [] := ⟨List.prefix_rfl, fun _ => rfl⟩

theorem delivers_ok (bytes : List UInt8) : Delivers ([.ok bytes] : Body Error) bytes :=
  ⟨by simp [emitted], fun _ => by simp [emitted]⟩

theorem delivers_error (error : Error) (text : List UInt8) :
    Delivers ([.error error] : Body Error) text :=
  ⟨List.nil_prefix, fun clean => absurd (clean _ List.mem_cons_self) Bool.false_ne_true⟩

theorem Delivers.append {second : Body Error} {front back : List UInt8} (delivers : Delivers first front)
    (then_ : Delivers second back) :
    Delivers (first ++ second) (front ++ back) := by
  by_cases clean : first.Clean
  · rw [← delivers.whole clean]
    constructor
    · rw [emitted_append_of_clean clean]
      exact (List.prefix_append_right_inj _).2 then_.begins
    · intro both
      rw [emitted_append_of_clean clean,
        then_.whole fun item member => both item (List.mem_append_right _ member)]
  · constructor
    · rw [emitted_append_of_error clean]
      exact delivers.begins.trans (List.prefix_append front back)
    · intro both
      exact absurd (fun item member => both item (List.mem_append_left _ member)) clean

end Body

/-! ## Reading -/

/-- How the next operation on the file turns out; a read gives up to that many bytes. -/
inductive IoStep (Error : Type) where
  | fails (error : Error)
  | succeeds (size : Nat)

/-- The outcome of the next operation, and of those after it; when nothing is said about them they
succeed. -/
def nextStep : List (IoStep Error) → IoStep Error × List (IoStep Error)
  | [] => (.succeeds 0, [])
  | step :: steps => (step, steps)

/-- An operation whose error decides the result, and what comes after it. -/
def perform {α : Type} (steps : List (IoStep Error)) (failed : Error → α)
    (next : List (IoStep Error) → α) : α :=
  match nextStep steps with
  | (.fails error, _) => failed error
  | (.succeeds _, later) => next later

variable {steps : List (IoStep Error)}

/-- What holds after an error and after the operation holds of the result. -/
theorem perform_cases {α : Type} (P : α → Prop) {failed : Error → α} {next : List (IoStep Error) → α}
    (onError : ∀ error, P (failed error)) (onSuccess : ∀ later, P (next later)) :
    P (perform steps failed next) := by
  unfold perform
  split
  · exact onError _
  · exact onSuccess _

/-- A read of up to `room` bytes that has something to read gives at least one. -/
def readSize (wanted room : Nat) (rest : List UInt8) : Nat := max 1 (min wanted (min room rest.length))

/-- The items of a reader with a buffer of `capacity` bytes, from a file that goes on with `rest`,
up to a limit.  It ends at the limit, at the end of the file and after an error.  Every read but
the last takes from the limit, which bounds their number. -/
def readChunks (capacity : Nat) : Nat → List UInt8 → Nat → List (IoStep Error) →
    Body Error × List (IoStep Error)
  | 0, _, _, steps => ([], steps)
  | fuel + 1, rest, limit, steps =>
    if limit = 0 then ([], steps)
    else
      match nextStep steps with
      | (.fails error, later) => ([.error error], later)
      | (.succeeds wanted, later) =>
        if rest = [] then ([], later)
        else
          let size := readSize wanted (min capacity limit) rest
          let more := readChunks capacity fuel (rest.drop size) (limit - size) later
          (.ok (rest.take size) :: more.1, more.2)

theorem readSize_pos (wanted room : Nat) (rest : List UInt8) : 1 ≤ readSize wanted room rest :=
  le_max_left _ _

theorem readSize_le {wanted room : Nat} {rest : List UInt8} (positive : 0 < room)
    (nonempty : rest ≠ []) : readSize wanted room rest ≤ room := by
  have := List.length_pos_iff.2 nonempty
  rw [readSize]
  omega

/-- **Pieces of any size** make up the text up to the limit. -/
theorem delivers_readChunks {capacity fuel limit : Nat} (positive : 0 < capacity)
    (enough : limit ≤ fuel) (rest : List UInt8) (steps : List (IoStep Error)) :
    (readChunks capacity fuel rest limit steps).1.Delivers (rest.take limit) := by
  induction fuel generalizing rest limit steps with
  | zero =>
    rw [Nat.le_zero.1 enough]
    exact Body.delivers_nil
  | succ fuel ih =>
    rw [readChunks]
    by_cases done : limit = 0
    · rw [if_pos done, done]
      exact Body.delivers_nil
    · rw [if_neg done]
      match nextStep steps with
      | (.fails error, later) => exact Body.delivers_error error _
      | (.succeeds wanted, later) =>
        by_cases ended : rest = []
        · simp only [if_pos ended]
          rw [ended, List.take_nil]
          exact Body.delivers_nil
        · simp only [if_neg ended]
          have atLeast := readSize_pos wanted (min capacity limit) rest
          have atMost : readSize wanted (min capacity limit) rest ≤ min capacity limit :=
            readSize_le (by omega) ended
          generalize readSize wanted (min capacity limit) rest = size at *
          have split : rest.take limit = rest.take size ++ (rest.drop size).take (limit - size) := by
            rw [← List.take_add, Nat.add_sub_cancel' (by omega)]
          rw [split]
          exact (Body.delivers_ok _).append (ih (by omega) _ _)

/-- Without failures there is no error. -/
def Smooth (steps : List (IoStep Error)) : Prop := ∀ error, .fails error ∉ steps

theorem Smooth.next {steps : List (IoStep Error)} (smooth : Smooth steps) :
    (∃ size, (nextStep steps).1 = .succeeds size) ∧ Smooth (nextStep steps).2 := by
  cases steps with
  | nil => exact ⟨⟨0, rfl⟩, smooth⟩
  | cons step steps =>
    refine ⟨?_, fun error member => smooth error (List.mem_cons_of_mem _ member)⟩
    cases step with
    | fails error => exact absurd List.mem_cons_self (smooth error)
    | succeeds size => exact ⟨size, rfl⟩

theorem Smooth.perform {α : Type} (P : α → Prop) (smooth : Smooth steps) {failed : Error → α}
    {next : List (IoStep Error) → α} (onSuccess : ∀ later, Smooth later → P (next later)) :
    P (perform steps failed next) := by
  obtain ⟨⟨size, succeeded⟩, smoothLater⟩ := smooth.next
  unfold Foundation.perform
  split
  · rename_i isNext
    rw [isNext] at succeeded
    cases succeeded
  · rename_i isNext
    rw [isNext] at smoothLater
    exact onSuccess _ smoothLater

theorem Smooth.readChunks {capacity fuel limit : Nat} {rest : List UInt8} (smooth : Smooth steps) :
    (readChunks capacity fuel rest limit steps).1.Clean ∧
      Smooth (readChunks capacity fuel rest limit steps).2 := by
  induction fuel generalizing rest limit steps with
  | zero => exact ⟨by simp [Body.Clean, Foundation.readChunks], smooth⟩
  | succ fuel ih =>
    rw [Foundation.readChunks]
    by_cases done : limit = 0
    · rw [if_pos done]
      exact ⟨by simp [Body.Clean], smooth⟩
    · rw [if_neg done]
      obtain ⟨⟨wanted, succeeded⟩, later⟩ := smooth.next
      match isNext : nextStep steps with
      | (.fails error, rest) =>
        rw [isNext] at succeeded
        cases succeeded
      | (.succeeds wanted, more) =>
        rw [isNext] at later
        by_cases ended : rest = []
        · simp only [if_pos ended]
          exact ⟨by simp [Body.Clean], later⟩
        · simp only [if_neg ended]
          obtain ⟨clean, smooth⟩ := ih later
          exact ⟨List.forall_mem_cons.2 ⟨rfl, clean⟩, smooth⟩

end Rustee.Foundation
