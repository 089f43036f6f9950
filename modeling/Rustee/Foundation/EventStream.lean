/-
# Rustee.Foundation.EventStream -- the blocks of an event stream

The grammar of `text/event-stream`: a line ends with CRLF, LF or CR, where a CR before an LF is the
first half of a CRLF, and an event is any number of lines and a blank one.
-/
import Mathlib.Data.List.Basic

namespace Rustee.Foundation.EventStream

set_option autoImplicit false

/-- An end of line, and what follows it. -/
inductive EndOfLine : List UInt8 → List UInt8 → Prop
  | crlf (rest : List UInt8) : EndOfLine [13, 10] rest
  | lf (rest : List UInt8) : EndOfLine [10] rest
  | cr {rest : List UInt8} (alone : rest.head? ≠ some 10) : EndOfLine [13] rest

/-- No byte ends a line. -/
def Unbroken (text : List UInt8) : Prop := ∀ byte ∈ text, byte ≠ 13 ∧ byte ≠ 10

/-- An event, and what follows it. -/
inductive Event : List UInt8 → List UInt8 → Prop
  | blank {eol rest : List UInt8} (ends : EndOfLine eol rest) : Event eol rest
  | line {text eol event rest : List UInt8} (nonempty : text ≠ []) (unbroken : Unbroken text)
      (ends : EndOfLine eol (event ++ rest)) (more : Event event rest) :
      Event (text ++ (eol ++ event)) rest

/-- The events at the front of a stream; what follows the last of them is not complete. -/
inductive Events : List UInt8 → List (List UInt8) → Prop
  | incomplete {stream : List UInt8}
      (none : ∀ event rest, stream = event ++ rest → ¬ Event event rest) : Events stream []
  | more {event rest : List UInt8} {events : List (List UInt8)} (first : Event event rest)
      (others : Events rest events) : Events (event ++ rest) (event :: events)

end Rustee.Foundation.EventStream
