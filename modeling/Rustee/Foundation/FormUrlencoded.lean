/-
# Rustee.Foundation.FormUrlencoded -- names and values as the text of a form

`application/x-www-form-urlencoded`.  Each byte of a name or a value stays if it is a letter, a digit
or one of four signs; a blank becomes a plus sign, and anything else an escape.  So an ampersand or
an equals sign in the text is never one of a name or a value, and `parse_serialize` holds for every
list of pairs.
-/
import Rustee.Foundation.FieldSyntax
import Rustee.Foundation.Utf8

namespace Rustee.Foundation

set_option autoImplicit false

namespace Form

def upperHexDigit (value : Nat) : Char := "0123456789ABCDEF".toList.getD value '0'

def encodeByte (byte : UInt8) : Text :=
  let c := Char.ofNat byte.toNat
  if c.isAlphanum || "*-._".toList.contains c then [c]
  else if c = ' ' then ['+']
  else ['%', upperHexDigit (byte.toNat / 16), upperHexDigit (byte.toNat % 16)]

def encode (text : Text) : Text := text.bytes.flatMap encodeByte

def blankOfPlus (c : Char) : Char := if c = '+' then ' ' else c

/-- Bytes that are no UTF-8 are not replaced one by one here: nothing that is encoded has them. -/
def decode (text : Text) : Text :=
  ((percentDecode (Text.bytes (text.map blankOfPlus))).bind Text.fromUtf8).getD []

def serialize (pairs : List (Text × Text)) : Text :=
  ['&'].intercalate (pairs.map fun pair => encode pair.1 ++ '=' :: encode pair.2)

def parsePair (piece : Text) : Text × Text :=
  match Text.splitOnce '=' piece with
  | some (name, value) => (decode name, decode value)
  | none => (decode piece, [])

def parse (text : Text) : List (Text × Text) :=
  ((text.splitOn '&').filter fun piece => !piece.isEmpty).map parsePair

theorem encodeByte_table : ∀ byte : Fin 256,
    percentDecode (Text.bytes ((encodeByte (UInt8.ofNat byte)).map blankOfPlus)) =
        some [UInt8.ofNat byte] ∧
      '&' ∉ encodeByte (UInt8.ofNat byte) ∧ '=' ∉ encodeByte (UInt8.ofNat byte) := by
  decide +kernel

theorem encodeByte_spec (byte : UInt8) :
    PercentEncodes (Text.bytes ((encodeByte byte).map blankOfPlus)) [byte] ∧
      '&' ∉ encodeByte byte ∧ '=' ∉ encodeByte byte := by
  have table := encodeByte_table ⟨byte.toNat, byte.toNat_lt⟩
  rw [UInt8.ofNat_toNat, percentDecode_eq_some] at table
  exact table

theorem percentEncodes_flatMap (bytes : List UInt8) :
    PercentEncodes (Text.bytes ((bytes.flatMap encodeByte).map blankOfPlus)) bytes := by
  induction bytes with
  | nil => exact .nil
  | cons byte rest ih =>
    rw [List.flatMap_cons, List.map_append, Text.bytes_append]
    exact (encodeByte_spec byte).1.append ih

theorem decode_encode (text : Text) : decode (encode text) = text := by
  rw [decode, encode, percentDecode_eq_some.2 (percentEncodes_flatMap text.bytes), Option.bind_some,
    Text.fromUtf8_eq_some.2 rfl, Option.getD_some]

theorem parsePair_encode (name value : Text) :
    parsePair (encode name ++ '=' :: encode value) = (name, value) := by
  have absent : '=' ∉ encode name := by
    intro isChar
    obtain ⟨byte, -, inByte⟩ := List.mem_flatMap.1 isChar
    exact (encodeByte_spec byte).2.2 inByte
  simp only [parsePair, Text.splitOnce_append absent, decode_encode]

theorem parse_serialize (pairs : List (Text × Text)) : parse (serialize pairs) = pairs := by
  have absent (text : Text) : '&' ∉ encode text := by
    intro isChar
    obtain ⟨byte, -, inByte⟩ := List.mem_flatMap.1 isChar
    exact (encodeByte_spec byte).2.1 inByte
  cases pairs with
  | nil => rfl
  | cons pair rest =>
    have pieces : (serialize (pair :: rest)).splitOn '&' =
        (pair :: rest).map fun pair => encode pair.1 ++ '=' :: encode pair.2 := by
      refine List.splitOn_intercalate '&' ?_ (by simp)
      intro piece isPiece
      obtain ⟨other, -, rfl⟩ := List.mem_map.1 isPiece
      simp [absent]
    have nonempty : ∀ piece ∈ (pair :: rest).map (fun pair => encode pair.1 ++ '=' :: encode pair.2),
        (!piece.isEmpty) = true := by
      intro piece isPiece
      obtain ⟨other, -, rfl⟩ := List.mem_map.1 isPiece
      simp
    rw [parse, pieces, List.filter_eq_self.2 nonempty, List.map_map]
    exact (List.map_congr_left fun other _ => parsePair_encode other.1 other.2).trans (List.map_id _)

example : serialize [("name".toList, "a/b+ é".toList), ([], [])] = "name=a%2Fb%2B+%C3%A9&=".toList := by
  decide +kernel

end Form

end Rustee.Foundation
