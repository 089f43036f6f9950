/-
# Rustee.Foundation.JsonText -- JSON texts

The grammar of JSON over bytes.  Bytes of characters beyond ASCII occur in strings only and
mean nothing to the grammar, so that they form characters is not part of it.
-/
import Mathlib.Data.List.Infix

namespace Rustee.Foundation

set_option autoImplicit false

/-! ## The grammar -/

abbrev Bytes := List UInt8

/-- The bytes of a text in ASCII. -/
def ascii (text : String) : Bytes := text.toList.map fun c => UInt8.ofNat c.toNat

def isJsonWs (c : UInt8) : Bool := c = 32 || c = 9 || c = 10 || c = 13

def isJsonDigit (c : UInt8) : Bool := 48 ≤ c && c ≤ 57

/-- The characters that may follow a backslash. -/
def isJsonEscape (c : UInt8) : Bool :=
  c = 34 || c = 92 || c = 47 || c = 98 || c = 102 || c = 110 || c = 114 || c = 116 || c = 117

def isHex (c : UInt8) : Bool := isJsonDigit c || (65 ≤ c && c ≤ 70) || (97 ≤ c && c ≤ 102)

/-- What stands between the quotes of a string. -/
inductive StringBody : Bytes → Prop
  | nil : StringBody []
  | char {c : UInt8} {rest : Bytes} (plain : 32 ≤ c ∧ c ≠ 34 ∧ c ≠ 92) (more : StringBody rest) :
      StringBody (c :: rest)
  | escape {c : UInt8} {rest : Bytes} (isEscape : isJsonEscape c = true) (short : c ≠ 117)
      (more : StringBody rest) : StringBody (92 :: c :: rest)
  | unicode {digits rest : Bytes} (four : digits.length = 4) (hex : digits.all isHex = true)
      (more : StringBody rest) : StringBody (92 :: 117 :: (digits ++ rest))

inductive JsonString : Bytes → Prop
  | quoted {body : Bytes} (isBody : StringBody body) : JsonString (34 :: (body ++ [34]))

def isDigits (text : Bytes) : Bool := text ≠ [] && text.all isJsonDigit

def isJsonInt (text : Bytes) : Bool := isDigits text && (text.head? ≠ some 48 || text.length = 1)

inductive JsonFraction : Bytes → Prop
  | none : JsonFraction []
  | digits {text : Bytes} (isText : isDigits text = true) : JsonFraction (46 :: text)

inductive JsonExponent : Bytes → Prop
  | none : JsonExponent []
  | digits {e : UInt8} {sign text : Bytes} (isE : e = 101 ∨ e = 69)
      (isSign : sign = [] ∨ sign = [43] ∨ sign = [45]) (isText : isDigits text = true) :
      JsonExponent (e :: (sign ++ text))

inductive JsonNumeral : Bytes → Prop
  | parts {minus int fraction exponent : Bytes} (isMinus : minus = [] ∨ minus = [45])
      (isInt : isJsonInt int = true) (isFraction : JsonFraction fraction)
      (isExponent : JsonExponent exponent) : JsonNumeral (minus ++ (int ++ (fraction ++ exponent)))

def JsonWs (text : Bytes) : Prop := text.all isJsonWs = true

inductive JsonSort where
  | value
  /-- A value with whitespace around it, which is what a JSON text is. -/
  | element
  | elements
  | member
  | members

inductive Derives : JsonSort → Bytes → Prop
  | null : Derives .value (ascii "null")
  | true : Derives .value (ascii "true")
  | false : Derives .value (ascii "false")
  | number {text : Bytes} (isNumeral : JsonNumeral text) : Derives .value text
  | string {text : Bytes} (isString : JsonString text) : Derives .value text
  | emptyArray {ws : Bytes} (isWs : JsonWs ws) : Derives .value (91 :: (ws ++ [93]))
  | array {inside : Bytes} (isInside : Derives .elements inside) : Derives .value (91 :: (inside ++ [93]))
  | emptyObject {ws : Bytes} (isWs : JsonWs ws) : Derives .value (123 :: (ws ++ [125]))
  | object {inside : Bytes} (isInside : Derives .members inside) :
      Derives .value (123 :: (inside ++ [125]))
  | element {before value after : Bytes} (isBefore : JsonWs before) (isValue : Derives .value value)
      (isAfter : JsonWs after) : Derives .element (before ++ (value ++ after))
  | lastElement {last : Bytes} (isLast : Derives .element last) : Derives .elements last
  | moreElements {first rest : Bytes} (isFirst : Derives .element first)
      (isRest : Derives .elements rest) : Derives .elements (first ++ 44 :: rest)
  | member {before name between value : Bytes} (isBefore : JsonWs before) (isName : JsonString name)
      (isBetween : JsonWs between) (isValue : Derives .element value) :
      Derives .member (before ++ (name ++ (between ++ 58 :: value)))
  | lastMember {last : Bytes} (isLast : Derives .member last) : Derives .members last
  | moreMembers {first rest : Bytes} (isFirst : Derives .member first)
      (isRest : Derives .members rest) : Derives .members (first ++ 44 :: rest)

theorem Derives.alone {value : Bytes} (isValue : Derives .value value) : Derives .element value := by
  have isElement : Derives .element ([] ++ (value ++ [])) := .element rfl isValue rfl
  rwa [List.nil_append, List.append_nil] at isElement

/-- The text of an object. -/
def ObjectText (text : Bytes) : Prop :=
  ∃ before inside after, JsonWs before ∧ JsonWs after ∧ Derives .value (123 :: (inside ++ [125])) ∧
    text = before ++ (123 :: (inside ++ [125]) ++ after)

/-! ## Numerals -/

namespace Lexer

/-- The characters of numbers. -/
def isNumeric (c : UInt8) : Bool := isJsonDigit c || c = 43 || c = 45 || c = 46 || c = 69 || c = 101

theorem isNumeric_of_isDigits {text : Bytes} (isText : isDigits text = true) :
    text.all isNumeric = true := by
  simp only [isDigits, Bool.and_eq_true] at isText
  refine List.all_eq_true.2 fun c isChar => ?_
  simp [isNumeric, List.all_eq_true.1 isText.2 c isChar]

theorem isNumeric_numeral {text : Bytes} (isNumeral : JsonNumeral text) : text.all isNumeric = true := by
  cases isNumeral with
  | @parts minus int fraction exponent isMinus isInt isFraction isExponent =>
    have numericMinus : minus.all isNumeric = true := by
      rcases isMinus with rfl | rfl <;> rfl
    have numericInt : int.all isNumeric = true := by
      rw [isJsonInt, Bool.and_eq_true] at isInt
      exact isNumeric_of_isDigits isInt.1
    have numericFraction : fraction.all isNumeric = true := by
      cases isFraction with
      | none => rfl
      | digits isText => simpa [isNumeric] using isNumeric_of_isDigits isText
    have numericExponent : exponent.all isNumeric = true := by
      cases isExponent with
      | none => rfl
      | @digits e sign text isE isSign isText =>
        have numericE : isNumeric e = true := by rcases isE with rfl | rfl <;> rfl
        have numericSign : sign.all isNumeric = true := by
          rcases isSign with rfl | rfl | rfl <;> rfl
        rw [List.all_cons, List.all_append, numericE, numericSign, isNumeric_of_isDigits isText]
        rfl
    simp only [List.all_append, numericMinus, numericInt, numericFraction, numericExponent,
      Bool.and_self]

end Lexer

end Rustee.Foundation
