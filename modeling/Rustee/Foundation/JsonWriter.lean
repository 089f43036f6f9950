/-
# Rustee.Foundation.JsonWriter -- a value as its compact JSON text

What `serde_json` writes of a value, one write after the other: `writes`.  A string goes out in
pieces, between which stand the escapes of the characters that need one, so that no control
character is left; between the other tokens nothing is written at all.

`line_text` says that the writes together are a JSON text and stand on one line.  How a float prints
is a parameter, of which no more is known than that it is a number of the grammar.
-/
import Rustee.Foundation.Json
import Rustee.Foundation.JsonText
import Rustee.Foundation.Utf8
import Rustee.Foundation.Decimal
import Mathlib.Tactic.IntervalCases

namespace Rustee.Foundation.JsonWriter

set_option autoImplicit false

/-! ## Strings -/

def hexDigit (n : UInt8) : UInt8 := if n < 10 then 48 + n else 87 + n

/-- The escape for a byte, if it needs one. -/
def escape (c : UInt8) : Option Bytes :=
  if c = 34 then some [92, 34]
  else if c = 92 then some [92, 92]
  else if c = 8 then some [92, 98]
  else if c = 9 then some [92, 116]
  else if c = 10 then some [92, 110]
  else if c = 12 then some [92, 102]
  else if c = 13 then some [92, 114]
  else if c < 32 then some [92, 117, 48, 48, hexDigit (c / 16), hexDigit (c % 16)]
  else none

/-- A piece, unless it is empty. -/
def piece (bytes : Bytes) : List Bytes := if bytes = [] then [] else [bytes]

/-- `format_escaped_str_contents`, with the bytes since the last escape. -/
def contentWrites (since : Bytes) : Bytes → List Bytes
  | [] => piece since
  | c :: rest =>
    match escape c with
    | none => contentWrites (since ++ [c]) rest
    | some escaped => piece since ++ escaped :: contentWrites [] rest

def stringWrites (value : String) : List Bytes :=
  [34] :: (contentWrites [] (Text.bytes value.toList) ++ [[34]])

/-! ## Values -/

/-- `f64::is_finite`: not all bits of the exponent are set. -/
def isFinite (bits : UInt64) : Bool := (bits.toNat / 2 ^ 52) % 2 ^ 11 ≠ 2047

/-- How floats print. -/
structure FloatPrinter where
  text : UInt64 → Bytes
  numeral : ∀ bits, isFinite bits = true → JsonNumeral (text bits)

section

variable (floats : FloatPrinter)

/-- A float that is none of the numbers is written as `null`. -/
def numberText : JsonNumber → Bytes
  | .posInt n => ascii (Nat.repr n.toNat)
  | .negInt n => ascii (Int.repr n.toInt)
  | .float bits => if isFinite bits then floats.text bits else ascii "null"

/-- The comma before all but the first. -/
def separator (first : Bool) : List Bytes := if first then [] else [[44]]

mutual

def writes : Json → List Bytes
  | .null => [ascii "null"]
  | .bool true => [ascii "true"]
  | .bool false => [ascii "false"]
  | .number value => [numberText floats value]
  | .string value => stringWrites value
  | .array items => [91] :: (itemsWrites true items ++ [[93]])
  | .object fields => [123] :: (fieldsWrites true fields ++ [[125]])

def itemsWrites (first : Bool) : List Json → List Bytes
  | [] => []
  | item :: rest => separator first ++ (writes item ++ itemsWrites false rest)

def fieldsWrites (first : Bool) : List (String × Json) → List Bytes
  | [] => []
  | (name, value) :: rest =>
    separator first ++ (stringWrites name ++ [58] :: (writes value ++ fieldsWrites false rest))

end

/-- The whole text. -/
def text (value : Json) : Bytes := (writes floats value).flatten

end

/-! ## One line -/

theorem flatten_piece (bytes : Bytes) : (piece bytes).flatten = bytes := by
  unfold piece
  split_ifs with empty
  · rw [empty, List.flatten_nil]
  · rw [List.flatten_cons, List.flatten_nil, List.append_nil]

theorem flatten_contentWrites (since bytes : Bytes) :
    (contentWrites since bytes).flatten = since ++ bytes.flatMap fun c => (escape c).getD [c] := by
  induction bytes generalizing since with
  | nil => rw [contentWrites, flatten_piece, List.flatMap_nil, List.append_nil]
  | cons c rest ih =>
    rw [contentWrites, List.flatMap_cons]
    cases escape c with
    | none => rw [ih, Option.getD_none, List.append_assoc]
    | some escaped =>
      rw [List.flatten_append, flatten_piece, List.flatten_cons, ih, List.nil_append,
        Option.getD_some]

theorem isHex_hexDigit {n : UInt8} (small : n < 16) : isHex (hexDigit n) = true := by
  have all : ∀ n : Fin 16, isHex (hexDigit (UInt8.ofNat n)) = true := by decide
  have same : UInt8.ofNat n.toNat = n := UInt8.ofNat_toNat
  simpa [same] using all ⟨n.toNat, UInt8.lt_iff_toNat_lt.1 small⟩

/-- A byte that stands for itself, a short escape or a numeric one. -/
theorem escape_cases (c : UInt8) :
    (escape c = none ∧ 32 ≤ c ∧ c ≠ 34 ∧ c ≠ 92) ∨
      (∃ e, escape c = some [92, e] ∧ isJsonEscape e = true ∧ e ≠ 117) ∨
      ∃ high low, escape c = some [92, 117, 48, 48, high, low] ∧ isHex high = true ∧
        isHex low = true := by
  unfold escape
  split_ifs with quote backslash
  iterate 7 exact .inr (.inl ⟨_, rfl, by decide, by decide⟩)
  · rename_i control
    refine .inr (.inr ⟨_, _, rfl, isHex_hexDigit ?_, isHex_hexDigit ?_⟩)
    · rw [UInt8.lt_iff_toNat_lt, UInt8.toNat_div]
      exact Nat.div_lt_of_lt_mul c.toNat_lt
    · rw [UInt8.lt_iff_toNat_lt, UInt8.toNat_mod]
      exact Nat.mod_lt _ (by decide)
  · rename_i plain
    exact .inl ⟨rfl, by simpa using plain, quote, backslash⟩

theorem stringBody_escaped (bytes : Bytes) :
    StringBody (bytes.flatMap fun c => (escape c).getD [c]) := by
  induction bytes with
  | nil => exact .nil
  | cons c rest ih =>
    rw [List.flatMap_cons]
    rcases escape_cases c with ⟨none_, plain⟩ | ⟨e, short, isEscape, notU⟩ |
      ⟨high, low, numeric, isHigh, isLow⟩
    · rw [none_]
      exact .char plain ih
    · rw [short]
      exact .escape isEscape notU ih
    · rw [numeric]
      have zero : isHex 48 = true := by decide
      exact @StringBody.unicode [48, 48, high, low] _ rfl (by simp [zero, isHigh, isLow]) ih

/-- No control character, so no newline. -/
def Printable (bytes : Bytes) : Prop := ∀ c ∈ bytes, 32 ≤ c

theorem Printable.append {left right : Bytes} (one : Printable left) (other : Printable right) :
    Printable (left ++ right) :=
  List.forall_mem_append.2 ⟨one, other⟩

variable {bytes : Bytes} {c : UInt8}

theorem printable_of_all (all : bytes.all (32 ≤ ·) = true) : Printable bytes := by
  simpa [Printable] using all

theorem printable_isJsonEscape (isEscape : isJsonEscape c = true) : 32 ≤ c := by
  simp only [isJsonEscape, Bool.or_eq_true, decide_eq_true_eq] at isEscape
  rcases isEscape with ((((((((rfl | rfl) | rfl) | rfl) | rfl) | rfl) | rfl) | rfl) | rfl) <;> decide

theorem printable_isHex (hex : isHex c = true) : 32 ≤ c := by
  simp only [isHex, isJsonDigit, Bool.or_eq_true, Bool.and_eq_true, decide_eq_true_eq] at hex
  rcases hex with (⟨above, -⟩ | ⟨above, -⟩) | ⟨above, -⟩
  · exact UInt8.le_trans (by decide : (32 : UInt8) ≤ 48) above
  · exact UInt8.le_trans (by decide : (32 : UInt8) ≤ 65) above
  · exact UInt8.le_trans (by decide : (32 : UInt8) ≤ 97) above

theorem printable_isNumeric (numeric : Lexer.isNumeric c = true) : 32 ≤ c := by
  simp only [Lexer.isNumeric, Bool.or_eq_true, decide_eq_true_eq] at numeric
  rcases numeric with ((((digit | rfl) | rfl) | rfl) | rfl) | rfl
  · exact printable_isHex (by simp [isHex, digit])
  all_goals decide

/-- Nor does the grammar allow one in a string. -/
theorem printable_stringBody {body : Bytes} (isBody : StringBody body) : Printable body := by
  induction isBody with
  | nil => simp [Printable]
  | char plain _ ih => exact List.forall_mem_cons.2 ⟨plain.1, ih⟩
  | escape isEscape _ _ ih =>
    exact List.forall_mem_cons.2 ⟨by decide,
      List.forall_mem_cons.2 ⟨printable_isJsonEscape isEscape, ih⟩⟩
  | @unicode digits rest _ hex _ ih =>
    have printable : Printable digits := fun c member =>
      printable_isHex (List.all_eq_true.1 hex c member)
    exact List.forall_mem_cons.2 ⟨by decide, List.forall_mem_cons.2 ⟨by decide, printable.append ih⟩⟩

/-! ## The text of a value -/

theorem flatten_stringWrites (value : String) :
    ∃ body, StringBody body ∧ (stringWrites value).flatten = 34 :: (body ++ [34]) := by
  refine ⟨_, stringBody_escaped (Text.bytes value.toList), ?_⟩
  simp [stringWrites, flatten_contentWrites]

theorem jsonString_stringWrites (value : String) : JsonString (stringWrites value).flatten := by
  obtain ⟨body, isBody, isText⟩ := flatten_stringWrites value
  rw [isText]
  exact .quoted isBody

theorem printable_stringWrites (value : String) : Printable (stringWrites value).flatten := by
  obtain ⟨body, isBody, isText⟩ := flatten_stringWrites value
  rw [isText]
  exact List.forall_mem_cons.2 ⟨by decide, (printable_stringBody isBody).append (by simp [Printable])⟩

/-! ## The size of a string -/

theorem utf8_eq_bytes (value : String) : utf8 value = Text.bytes value.toList := by
  have whole : (Text.bytes value.toList).toByteArray = value.toByteArray := by
    rw [Text.toByteArray_bytes, String.utf8Encode_toList]
  rw [utf8, String.toUTF8, ← whole, List.data_toByteArray]

theorem length_stringWrites (value : String) : (stringWrites value).flatten.length =
    ((utf8 value).map fun byte => ((escape byte).getD [byte]).length).sum + 2 := by
  simp [stringWrites, flatten_contentWrites, utf8_eq_bytes, List.length_flatMap]

/-- A string that needs no escape. -/
theorem length_stringWrites_of_plain {value : String} (plain : ∀ byte ∈ utf8 value, escape byte = none) :
    (stringWrites value).flatten.length = byteLen value + 2 := by
  have ones : (utf8 value).map (fun byte => ((escape byte).getD [byte]).length) =
      (utf8 value).map fun _ => 1 :=
    List.map_congr_left fun byte member => by rw [plain byte member, Option.getD_none, List.length_singleton]
  rw [length_stringWrites, ones, List.map_const', List.sum_replicate_nat, length_utf8, Nat.mul_one]

/-- The digits of a number do not begin with a zero. -/
theorem head?_toDigits {n : Nat} (positive : 0 < n) : (Nat.toDigits 10 n).head? ≠ some '0' := by
  induction n using Nat.strong_induction_on with
  | _ n ih =>
    by_cases small : n < 10
    · rw [Nat.toDigits_of_lt_base small]
      interval_cases n <;> decide
    · rw [Nat.toDigits_of_base_le (by decide) (by omega),
        List.head?_append_of_ne_nil _ Nat.toDigits_ne_nil]
      exact ih (n / 10) (by omega) (by omega)

theorem isJsonDigit_ofNat {c : Char} (digit : c.isDigit = true) :
    isJsonDigit (UInt8.ofNat c.toNat) = true ∧ (UInt8.ofNat c.toNat = 48 → c = '0') := by
  have range : 48 ≤ c.toNat ∧ c.toNat ≤ 57 := by
    simpa [Char.isDigit, UInt32.le_iff_toNat_le] using digit
  have value : (UInt8.ofNat c.toNat).toNat = c.toNat := by
    rw [UInt8.toNat_ofNat', Nat.mod_eq_of_lt (by omega)]
  constructor
  · simpa [isJsonDigit, UInt8.le_iff_toNat_le, value] using range
  · intro zero
    rw [zero] at value
    exact Char.ext (UInt32.toNat_inj.1 value.symm)

/-- What is written of an unsigned number. -/
theorem isJsonInt_repr (n : Nat) : isJsonInt (ascii (Nat.repr n)) = true := by
  have digits : ∀ c ∈ Nat.toDigits 10 n, c.isDigit = true := fun c member =>
    Nat.isDigit_of_mem_toDigits (by decide) (by decide) member
  have all : isDigits (ascii (Nat.repr n)) = true := by
    simp only [isDigits, ascii, Nat.toList_repr, ne_eq, List.map_eq_nil_iff, Nat.toDigits_ne_nil,
      not_false_eq_true, decide_true, Bool.true_and, List.all_map, List.all_eq_true]
    exact fun c member => (isJsonDigit_ofNat (digits c member)).1
  rw [isJsonInt, all, Bool.true_and]
  rcases Nat.eq_zero_or_pos n with rfl | positive
  · decide
  · have first := head?_toDigits positive
    simp only [ascii, Nat.toList_repr, List.head?_map, Bool.or_eq_true, decide_eq_true_eq]
    refine .inl fun zero => first ?_
    obtain ⟨c, isFirst, isZero⟩ := Option.map_eq_some_iff.1 zero
    rw [isFirst, (isJsonDigit_ofNat (digits c (List.mem_of_head? isFirst))).2 isZero]

theorem jsonNumeral_repr (n : Nat) : JsonNumeral (ascii (Nat.repr n)) := by
  have parts := JsonNumeral.parts (.inl rfl) (isJsonInt_repr n) .none .none
  rwa [List.nil_append, List.append_nil, List.append_nil] at parts

theorem jsonNumeral_intRepr (n : Int) : JsonNumeral (ascii (Int.repr n)) := by
  rw [Int.repr_eq_if]
  split_ifs with unsigned
  · exact jsonNumeral_repr _
  · have parts := JsonNumeral.parts (.inr rfl) (isJsonInt_repr (-n).toNat) .none .none
    rw [List.append_nil, List.append_nil] at parts
    simpa [ascii] using parts

/-- A part of a JSON text that stands on one line. -/
structure Line (sort : JsonSort) (bytes : Bytes) : Prop where
  derives : Derives sort bytes
  printable : Printable bytes

theorem line_null : Line .value (ascii "null") := ⟨.null, printable_of_all (by decide)⟩

theorem line_number (isNumeral : JsonNumeral bytes) : Line .value bytes where
  derives := .number isNumeral
  printable c member :=
    printable_isNumeric (List.all_eq_true.1 (Lexer.isNumeric_numeral isNumeral) c member)

theorem line_string (value : String) : Line .value (stringWrites value).flatten :=
  ⟨.string (jsonString_stringWrites value), printable_stringWrites value⟩

theorem Line.brackets {sort : JsonSort} {inside : Bytes} (line : Line sort inside)
    {opening closing : UInt8} (visible : 32 ≤ opening ∧ 32 ≤ closing)
    (derives : Derives .value (opening :: (inside ++ [closing]))) :
    Line .value (opening :: (inside ++ [closing])) where
  derives := derives
  printable := List.forall_mem_cons.2
    ⟨visible.1, line.printable.append (List.forall_mem_singleton.2 visible.2)⟩

theorem Line.alone (line : Line .value bytes) : Line .element bytes :=
  ⟨line.derives.alone, line.printable⟩

theorem Printable.comma {first second : Bytes} (one : Printable first) (other : Printable second) :
    Printable (first ++ 44 :: second) :=
  one.append (List.forall_mem_cons.2 ⟨by decide, other⟩)

theorem line_member (name : String) {value : Bytes} (line : Line .value value) :
    Line .member ((stringWrites name).flatten ++ 58 :: value) where
  derives := @Derives.member [] _ [] _ rfl (jsonString_stringWrites name) rfl line.derives.alone
  printable := (printable_stringWrites name).append (List.forall_mem_cons.2 ⟨by decide, line.printable⟩)

section

variable (floats : FloatPrinter)

theorem line_numberText (number : JsonNumber) : Line .value (numberText floats number) := by
  cases number with
  | posInt n => exact line_number (jsonNumeral_repr n.toNat)
  | negInt n => exact line_number (jsonNumeral_intRepr n.toInt)
  | float bits =>
    rw [numberText]
    split_ifs with finite
    · exact line_number (floats.numeral bits finite)
    · exact line_null

mutual

theorem line_text : (value : Json) → Line .value (text floats value)
  | .null => line_null
  | .bool true => ⟨.true, printable_of_all rfl⟩
  | .bool false => ⟨.false, printable_of_all rfl⟩
  | .number value => by
    simpa [text, writes] using line_numberText floats value
  | .string value => by
    rw [text, writes]
    exact line_string value
  | .array [] => ⟨@Derives.emptyArray [] rfl, printable_of_all rfl⟩
  | .array (item :: rest) => by
    have items := line_items rest (line_text item).alone
    have whole := items.brackets (by decide) (.array items.derives)
    simpa [text, writes, itemsWrites, separator] using whole
  | .object [] => ⟨@Derives.emptyObject [] rfl, printable_of_all rfl⟩
  | .object ((name, value) :: rest) => by
    have fields := line_fields rest (line_member name (line_text value))
    have whole := fields.brackets (by decide) (.object fields.derives)
    simpa [text, writes, fieldsWrites, separator] using whole

/-- What stands behind the first item, with a comma before each. -/
theorem line_items : (items : List Json) → {first : Bytes} → Line .element first →
    Line .elements (first ++ (itemsWrites floats false items).flatten)
  | [], first, line => by
    rw [itemsWrites, List.flatten_nil, List.append_nil]
    exact ⟨.lastElement line.derives, line.printable⟩
  | item :: rest, first, line => by
    have more := line_items rest (line_text item).alone
    have whole : Line .elements (first ++ 44 :: _) :=
      ⟨.moreElements line.derives more.derives, line.printable.comma more.printable⟩
    simpa [text, itemsWrites, separator] using whole

theorem line_fields : (fields : List (String × Json)) → {first : Bytes} → Line .member first →
    Line .members (first ++ (fieldsWrites floats false fields).flatten)
  | [], first, line => by
    rw [fieldsWrites, List.flatten_nil, List.append_nil]
    exact ⟨.lastMember line.derives, line.printable⟩
  | (name, value) :: rest, first, line => by
    have more := line_fields rest (line_member name (line_text value))
    have whole : Line .members (first ++ 44 :: _) :=
      ⟨.moreMembers line.derives more.derives, line.printable.comma more.printable⟩
    simpa [text, fieldsWrites, separator] using whole

end

/-- An object prints as a JSON object on one line. -/
theorem objectText_text (fields : List (String × Json)) : ObjectText (text floats (.object fields)) := by
  have shape : text floats (.object fields) =
      123 :: ((fieldsWrites floats true fields).flatten ++ [125]) := by
    simp [text, writes]
  refine ⟨[], (fieldsWrites floats true fields).flatten, [], rfl, rfl, ?_, ?_⟩
  · rw [← shape]
    exact (line_text floats _).derives
  · rw [shape, List.nil_append, List.append_nil]

theorem newline_not_mem_text (value : Json) : 10 ∉ text floats value := fun member =>
  absurd ((line_text floats value).printable 10 member) (by decide)

end

end Rustee.Foundation.JsonWriter
