/-
# Rustee.Foundation.Uuid -- reading an identifier from its text

The reader takes the four forms of an identifier: its thirty-two digits, the hyphenated form,
and the hyphenated form in braces or behind `urn:uuid:`.  Digits may be of either case.
-/
import Rustee.Foundation.Text

namespace Rustee.Foundation

set_option autoImplicit false

/-- The value of a hexadecimal digit. -/
def hexDigit (c : Char) : Option (BitVec 4) :=
  if '0' ≤ c ∧ c ≤ '9' then some (BitVec.ofNat 4 (c.toNat - 48))
  else if 'a' ≤ c ∧ c ≤ 'f' then some (BitVec.ofNat 4 (c.toNat - 87))
  else if 'A' ≤ c ∧ c ≤ 'F' then some (BitVec.ofNat 4 (c.toNat - 55))
  else none

/-- One more digit on the right. -/
def appendDigit (value : BitVec 128) (digit : BitVec 4) : BitVec 128 :=
  value <<< 4 ||| digit.setWidth 128

/-- Reads a layout of hyphens and digits place by place. -/
def readPlaces : List (Option Nat) → List Char → BitVec 128 → Option (BitVec 128)
  | [], [], value => some value
  | none :: places, c :: chars, value => if c = '-' then readPlaces places chars value else none
  | some _ :: places, c :: chars, value =>
    (hexDigit c).bind fun digit => readPlaces places chars (appendDigit value digit)
  | _, _, _ => none

def parseHyphenated (chars : List Char) : Option (BitVec 128) := readPlaces uuidLayout chars 0

def parseSimple (chars : List Char) : Option (BitVec 128) :=
  readPlaces ((List.range 32).map some) chars 0

/-- `Uuid::parse_str`. -/
def parseUuid (text : String) : Option (BitVec 128) :=
  let chars := text.toList
  if chars.length = 32 then parseSimple chars
  else if chars.length = 36 then parseHyphenated chars
  else if chars.length = 38 ∧ chars.head? = some '\x7b' ∧ chars.getLast? = some '\x7d' then
    parseHyphenated (chars.tail.dropLast)
  else if chars.length = 45 ∧ chars.take 9 = "urn:uuid:".toList then
    parseHyphenated (chars.drop 9)
  else none

example : parseUuid "\x7b01234567-89AB-cdef-0123-456789abcdef\x7d" =
    some 0x0123456789abcdef0123456789abcdef#128 := by decide

end Rustee.Foundation
