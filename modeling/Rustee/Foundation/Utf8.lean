/-
# Rustee.Foundation.Utf8 -- the bytes of a text, and percent encodings

A text goes to bytes and back as core's UTF-8 does it.  A percent encoding writes some bytes as
an escape of two hexadecimal digits and leaves the others as they are; `percentDecode` reads one
escape at a time and takes nothing it has written for another.
-/
import Rustee.Foundation.Chars

namespace Rustee.Foundation

set_option autoImplicit false

/-! ## UTF-8 -/

/-- `str::as_bytes`. -/
def Text.bytes (text : Text) : List UInt8 := text.flatMap String.utf8EncodeChar

theorem Text.bytes_append (text other : Text) : Text.bytes (text ++ other) = text.bytes ++ other.bytes :=
  List.flatMap_append

/-- `String::from_utf8`. -/
def Text.fromUtf8 (bytes : List UInt8) : Option Text :=
  bytes.toByteArray.utf8Decode?.map Array.toList

theorem Text.toByteArray_bytes (text : Text) : text.bytes.toByteArray = text.utf8Encode := rfl

theorem toByteArray_injective {one other : List UInt8}
    (same : one.toByteArray = other.toByteArray) : one = other := by
  have sameData := congrArg (fun array => array.data.toList) same
  simpa only [List.data_toByteArray, List.toList_toArray] using sameData

theorem Text.fromUtf8_eq_some {bytes : List UInt8} {text : Text} :
    Text.fromUtf8 bytes = some text ↔ bytes = text.bytes := by
  rw [Text.fromUtf8, Option.map_eq_some_iff]
  constructor
  · rintro ⟨chars, decoded, rfl⟩
    have valid : (bytes.toByteArray.utf8Decode?).isSome = true := by rw [decoded]; rfl
    obtain ⟨text, isBytes⟩ := ByteArray.isSome_utf8Decode?_iff.1 valid
    rw [isBytes, List.utf8Decode?_utf8Encode] at decoded
    cases decoded
    exact toByteArray_injective isBytes
  · rintro rfl
    rw [Text.toByteArray_bytes, List.utf8Decode?_utf8Encode]
    exact ⟨_, rfl, rfl⟩

theorem ofNat_ne_newline (n : Nat) : UInt8.ofNat (n % 64 + 128) ≠ 10 := by
  intro same
  have value := congrArg UInt8.toNat same
  rw [UInt8.toNat_ofNat'] at value
  change (n % 64 + 128) % 256 = 10 at value
  omega

/-- Only the newline itself is encoded with an ASCII newline as its last byte. -/
theorem eq_newline_of_getLast? {c : Char}
    (last : (String.utf8EncodeChar c).getLast? = some 10) : c = '\n' := by
  unfold String.utf8EncodeChar at last
  dsimp only at last
  split_ifs at last with one
  · have byte : UInt8.ofNat c.val.toNat = 10 := Option.some.inj last
    have value := congrArg UInt8.toNat byte
    rw [UInt8.toNat_ofNat'] at value
    change c.val.toNat % 256 = 10 at value
    refine Char.ext (UInt32.toNat.inj ?_)
    change c.val.toNat = 10
    omega
  all_goals exact absurd (Option.some.inj last) (ofNat_ne_newline _)

/-- A newline after a text is read as one more character. -/
theorem Text.fromUtf8_append_newline (bytes : List UInt8) :
    Text.fromUtf8 (bytes ++ [10]) = (Text.fromUtf8 bytes).map (· ++ ['\n']) := by
  refine Option.ext fun text => ?_
  rw [Text.fromUtf8_eq_some, Option.map_eq_some_iff]
  constructor
  · intro encoded
    rcases List.eq_nil_or_concat' text with rfl | ⟨front, c, rfl⟩
    · simp [Text.bytes] at encoded
    · have joined : bytes ++ [10] = Text.bytes front ++ String.utf8EncodeChar c := by
        simpa [Text.bytes] using encoded
      have nonempty : String.utf8EncodeChar c ≠ [] := by
        rw [← List.length_pos_iff, String.length_utf8EncodeChar]
        exact c.utf8Size_pos
      have last : (String.utf8EncodeChar c).getLast? = some 10 := by
        have whole := congrArg List.getLast? joined
        rw [List.getLast?_concat, List.getLast?_append_of_ne_nil _ nonempty] at whole
        exact whole.symm
      obtain rfl := eq_newline_of_getLast? last
      exact ⟨front, Text.fromUtf8_eq_some.2 (List.append_cancel_right joined), rfl⟩
  · rintro ⟨front, decoded, rfl⟩
    rw [Text.fromUtf8_eq_some] at decoded
    rw [decoded]
    simp only [Text.bytes, List.flatMap_append]
    rfl

/-! ## Percent encodings -/

/-- The value of a hexadecimal digit. -/
def hexValue (digit : UInt8) : Option UInt8 :=
  if 48 ≤ digit ∧ digit ≤ 57 then some (digit - 48)
  else if 97 ≤ digit ∧ digit ≤ 102 then some (digit - 97 + 10)
  else if 65 ≤ digit ∧ digit ≤ 70 then some (digit - 65 + 10)
  else none

/-- Decodes once, from the left. -/
def percentDecode : List UInt8 → Option (List UInt8)
  | [] => some []
  | 37 :: high :: low :: rest =>
    match hexValue high, hexValue low, percentDecode rest with
    | some high, some low, some decoded => some ((high <<< 4 ||| low) :: decoded)
    | _, _, _ => none
  | byte :: rest => if byte = 37 then none else (percentDecode rest).map (byte :: ·)

/-- `digit` is the hexadecimal digit of `value`, in either case. -/
def IsHexDigit (digit : UInt8) (value : Nat) : Prop :=
  (Text.bytes "0123456789abcdef".toList)[value]? = some digit ∨
    (Text.bytes "0123456789ABCDEF".toList)[value]? = some digit

/-- `encoded` writes each byte of `decoded` as itself or as an escape. -/
inductive PercentEncodes : List UInt8 → List UInt8 → Prop where
  | nil : PercentEncodes [] []
  | plain {byte : UInt8} (notPercent : byte ≠ 37) {encoded decoded : List UInt8}
      (rest : PercentEncodes encoded decoded) : PercentEncodes (byte :: encoded) (byte :: decoded)
  | escape {high low : UInt8} {first second : Nat} (isHigh : IsHexDigit high first)
      (isLow : IsHexDigit low second) {encoded decoded : List UInt8}
      (rest : PercentEncodes encoded decoded) :
      PercentEncodes (37 :: high :: low :: encoded) (UInt8.ofNat (16 * first + second) :: decoded)

theorem PercentEncodes.append {encoded decoded more others : List UInt8}
    (first : PercentEncodes encoded decoded) (rest : PercentEncodes more others) :
    PercentEncodes (encoded ++ more) (decoded ++ others) := by
  induction first with
  | nil => exact rest
  | plain notPercent _ ih => exact .plain notPercent ih
  | escape isHigh isLow _ ih => exact .escape isHigh isLow ih

instance (digit : UInt8) (value : Nat) : Decidable (IsHexDigit digit value) :=
  inferInstanceAs (Decidable (_ ∨ _))

variable {digit : UInt8}

theorem IsHexDigit.lt {value : Nat} (isDigit : IsHexDigit digit value) :
    value < 16 := by
  rcases isDigit with found | found
  · exact (List.getElem?_eq_some_iff.1 found).1
  · exact (List.getElem?_eq_some_iff.1 found).1

theorem hexValue_table : ∀ digit : Fin 256, ∀ value ∈ hexValue (UInt8.ofNat digit),
    IsHexDigit (UInt8.ofNat digit) value.toNat := by
  decide +kernel

theorem hexDigits_table : ∀ value : Fin 16,
    (∀ digit ∈ (Text.bytes "0123456789abcdef".toList)[value.val]?,
        hexValue digit = some (UInt8.ofNat value)) ∧
      ∀ digit ∈ (Text.bytes "0123456789ABCDEF".toList)[value.val]?,
        hexValue digit = some (UInt8.ofNat value) := by
  decide +kernel

theorem isHexDigit_of_hexValue {value : UInt8} (isValue : hexValue digit = some value) :
    IsHexDigit digit value.toNat := by
  have table := hexValue_table ⟨digit.toNat, digit.toNat_lt⟩
  simp only [UInt8.ofNat_toNat] at table
  exact table value isValue

theorem IsHexDigit.hexValue {value : Nat} (isDigit : IsHexDigit digit value) :
    hexValue digit = some (UInt8.ofNat value) := by
  have table := hexDigits_table ⟨value, isDigit.lt⟩
  rcases isDigit with lower | upper
  · exact table.1 digit lower
  · exact table.2 digit upper

theorem shift_or_table : ∀ first second : Fin 16,
    UInt8.ofNat first <<< 4 ||| UInt8.ofNat second = UInt8.ofNat (16 * first + second) := by
  decide +kernel

/-- **What is decoded.** -/
theorem percentDecode_eq_some {encoded decoded : List UInt8} :
    percentDecode encoded = some decoded ↔ PercentEncodes encoded decoded := by
  constructor
  · intro isDecoded
    induction encoded using percentDecode.induct generalizing decoded with
    | case1 =>
      cases isDecoded
      exact .nil
    | case2 high low rest first second more isMore isSecond isFirst ih =>
      simp only [percentDecode, isFirst, isSecond, isMore, Option.some.injEq] at isDecoded
      have isHigh := isHexDigit_of_hexValue isFirst
      have isLow := isHexDigit_of_hexValue isSecond
      have value := shift_or_table ⟨first.toNat, isHigh.lt⟩ ⟨second.toNat, isLow.lt⟩
      simp only [UInt8.ofNat_toNat] at value
      rw [← isDecoded, value]
      exact .escape isHigh isLow (ih isMore)
    | case3 high low rest malformed ih =>
      rw [percentDecode] at isDecoded
      split at isDecoded
      · rename_i isHigh isLow isMore
        exact (malformed _ _ _ isHigh isLow isMore).elim
      · cases isDecoded
    | case4 rest tooShort =>
      rw [percentDecode, if_pos rfl] at isDecoded
      · cases isDecoded
      · exact tooShort
    | case5 byte rest shape notPercent ih =>
      rw [percentDecode, if_neg notPercent] at isDecoded
      · obtain ⟨more, isMore, rfl⟩ := Option.map_eq_some_iff.1 isDecoded
        exact .plain notPercent (ih isMore)
      · exact shape
  · intro encodes
    induction encodes with
    | nil => rfl
    | @plain byte notPercent encoded decoded rest ih =>
      rw [percentDecode, if_neg notPercent, ih]
      · rfl
      · intro high low more isPercent
        exact absurd isPercent notPercent
    | @escape high low first second isHigh isLow encoded decoded rest ih =>
      have value := shift_or_table ⟨first, isHigh.lt⟩ ⟨second, isLow.lt⟩
      simp only [percentDecode, isHigh.hexValue, isLow.hexValue, ih, value]

end Rustee.Foundation
