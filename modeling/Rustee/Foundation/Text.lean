/-
# Rustee.Foundation.Text -- how values are written as text

The hyphenated form of a 128-bit identifier, the quoting of JSON strings, and the bytes of
a text.  The form of an identifier is a fixed row of thirty-six places, each a hyphen or the
place of one hexadecimal digit, so its length does not depend on the identifier and no two
identifiers share it.
-/
import Rustee.Foundation.RustStd
import Mathlib.Algebra.BigOperators.Group.List.Basic
import Mathlib.Algebra.Ring.Nat

namespace Rustee.Foundation

set_option autoImplicit false

/-! ## Bytes -/

/-- The UTF-8 bytes of a text. -/
def utf8 (text : String) : List UInt8 := text.toUTF8.data.toList

@[simp] theorem length_utf8 (text : String) : (utf8 text).length = byteLen text := rfl

theorem utf8_injective : Function.Injective utf8 := fun _ _ same =>
  String.toByteArray_inj.1 (ByteArray.ext (Array.toList_inj.1 same))

@[simp] theorem byteLen_append (first second : String) :
    byteLen (first ++ second) = byteLen first + byteLen second :=
  String.utf8ByteSize_append

/-- A text of one-byte characters has as many bytes as characters. -/
theorem byteLen_ofList {chars : List Char} (ascii : ∀ c ∈ chars, c.utf8Size = 1) :
    byteLen (String.ofList chars) = chars.length := by
  induction chars with
  | nil => rfl
  | cons c rest ih =>
    have tail := ih fun d member => ascii d (List.mem_cons_of_mem c member)
    rw [String.ofList_cons, byteLen_append, tail, List.length_cons]
    simp [byteLen, ascii c List.mem_cons_self, Nat.add_comm]

theorem byteLen_eq_sum (text : String) : byteLen text = (text.toList.map Char.utf8Size).sum := by
  have ofList (chars : List Char) : byteLen (String.ofList chars) = (chars.map Char.utf8Size).sum := by
    induction chars with
    | nil => rfl
    | cons c rest ih =>
      rw [String.ofList_cons, byteLen_append, ih]
      simp [byteLen]
  rw [← ofList, String.ofList_toList]

/-! ## Identifiers -/

/-- The places of the hyphenated form: `none` is a hyphen, `some i` the `i`-th digit. -/
def uuidLayout : List (Option Nat) :=
  (List.range' 0 8).map some ++ none :: (List.range' 8 4).map some ++
    none :: (List.range' 12 4).map some ++ none :: (List.range' 16 4).map some ++
    none :: (List.range' 20 12).map some

def uuidDigit (id : BitVec 128) (i : Nat) : BitVec 4 := id.extractLsb' (4 * (31 - i)) 4

def uuidChar (id : BitVec 128) : Option Nat → Char
  | none => '-'
  | some i => Nat.digitChar (uuidDigit id i).toNat

/-- `Uuid`'s `Display`. -/
def uuidText (id : BitVec 128) : String := String.ofList (uuidLayout.map (uuidChar id))

example : uuidText 0x0123456789abcdef0123456789abcdef#128 =
    "01234567-89ab-cdef-0123-456789abcdef" := by decide

/-- A place holds a hyphen or a digit, so any test both pass is passed by every character. -/
theorem uuidText_chars (test : Char → Prop) (hyphen : test '-')
    (digits : ∀ n < 16, test (Nat.digitChar n)) (id : BitVec 128) :
    ∀ c ∈ uuidLayout.map (uuidChar id), test c := by
  intro c member
  obtain ⟨place, -, rfl⟩ := List.mem_map.1 member
  cases place with
  | none => exact hyphen
  | some i => exact digits _ (uuidDigit id i).isLt

@[simp] theorem byteLen_uuidText (id : BitVec 128) : byteLen (uuidText id) = 36 := by
  have ascii := uuidText_chars (fun c => c.utf8Size = 1) (by decide) (by decide) id
  rw [uuidText, byteLen_ofList ascii, List.length_map]
  decide

/-- An identifier's text passes the admission test of every column that has room for it. -/
theorem isBoundedText_uuidText {maxBytes : Nat} (room : 36 ≤ maxBytes) (id : BitVec 128) :
    isBoundedText maxBytes (uuidText id) = true := by
  have dark := uuidText_chars (fun c => isWhitespace c = false) (by decide) (by decide) id
  have noNul := uuidText_chars (fun c => (c.toNat == 0) = false) (by decide) (by decide) id
  have first : uuidChar id (some 0) ∈ uuidLayout.map (uuidChar id) :=
    List.mem_map_of_mem (by decide)
  have notBlank : isBlank (uuidText id) = false := by
    simp only [isBlank, uuidText, String.toList_ofList, List.all_eq_false]
    exact ⟨_, first, by simp [dark _ first]⟩
  have nulFree : containsNul (uuidText id) = false := by
    simp only [containsNul, uuidText, String.toList_ofList, List.any_eq_false]
    intro c member
    simp [noNul c member]
  simp [isBoundedText, notBlank, nulFree, room]

/-! ## JSON strings -/

/-- The escapes of `serde_json`. -/
def jsonEscape (c : Char) : List Char :=
  match c.toNat with
  | 8 => "\\b".toList
  | 9 => "\\t".toList
  | 10 => "\\n".toList
  | 12 => "\\f".toList
  | 13 => "\\r".toList
  | 34 => "\\\"".toList
  | 92 => "\\\\".toList
  | n =>
    if n < 32 then "\\u00".toList ++ [Nat.digitChar (n / 16), Nat.digitChar (n % 16)]
    else [c]

/-- A text as a JSON string. -/
def jsonString (text : String) : String :=
  "\"" ++ String.ofList (text.toList.flatMap jsonEscape) ++ "\""

theorem size_jsonEscape_le (c : Char) : ((jsonEscape c).map Char.utf8Size).sum ≤ 6 * c.utf8Size := by
  have positive := c.utf8Size_pos
  have digit : ∀ n < 16, (Nat.digitChar n).utf8Size = 1 := by decide
  unfold jsonEscape
  split
  iterate 7 exact Nat.le_trans (by decide) (Nat.le_mul_of_pos_right 6 positive)
  split_ifs with control
  · have sizes : ("\\u00".toList.map Char.utf8Size).sum = 4 := by decide
    rw [List.map_append, List.sum_append, sizes]
    simp only [List.map_cons, List.map_nil, List.sum_cons, List.sum_nil, digit _ (Nat.mod_lt _ (by decide)),
      digit (c.toNat / 16) (by omega)]
    omega
  · simp only [List.map_cons, List.map_nil, List.sum_cons, List.sum_nil]
    omega

/-- At worst every byte is written in six. -/
theorem byteLen_jsonString_le (text : String) : byteLen (jsonString text) ≤ 6 * byteLen text + 2 := by
  have escaped : byteLen (String.ofList (text.toList.flatMap jsonEscape)) ≤ 6 * byteLen text := by
    rw [byteLen_eq_sum, byteLen_eq_sum, String.toList_ofList]
    induction text.toList with
    | nil => exact Nat.le_refl 0
    | cons c rest ih =>
      have first := size_jsonEscape_le c
      simp only [List.flatMap_cons, List.map_append, List.sum_append, List.map_cons, List.sum_cons]
      omega
  have quote : byteLen "\"" = 1 := rfl
  rw [jsonString, byteLen_append, byteLen_append, quote]
  omega

/-- Quoting adds the two quotes to an identifier and nothing else. -/
@[simp] theorem byteLen_jsonString_uuidText (id : BitVec 128) :
    byteLen (jsonString (uuidText id)) = 38 := by
  have plain := uuidText_chars (fun c => jsonEscape c = [c]) (by decide) (by decide) id
  have kept : (uuidText id).toList.flatMap jsonEscape = (uuidText id).toList := by
    rw [uuidText, String.toList_ofList, List.flatMap_congr plain, List.flatMap_singleton']
  rw [jsonString, kept, String.ofList_toList, byteLen_append, byteLen_append, byteLen_uuidText]
  rfl

end Rustee.Foundation
