/-
# Rustee.Foundation.Base64 -- bytes as URL-safe base64 without padding

Three bytes are four symbols of six bits each.  One or two bytes at the end are two or three
symbols, whose last bits are zero; a text whose last bits are not is no encoding, nor is one with a
single symbol left over.

`decode_encode` is the round trip and `length_encode` the size.
-/

namespace Rustee.Foundation.Base64

set_option autoImplicit false

def alphabet : List Char :=
  "ABCDEFGHIJKLMNOPQRSTUVWXYZabcdefghijklmnopqrstuvwxyz0123456789-_".toList

def symbol (value : Nat) : Char := alphabet.getD value 'A'

def value (symbol : Char) : Option Nat :=
  if symbol ∈ alphabet then some (alphabet.idxOf symbol) else none

/-- The symbols of three bytes, as one number. -/
def symbols (group : Nat) : List Char :=
  [symbol (group / 262144), symbol (group / 4096 % 64), symbol (group / 64 % 64), symbol (group % 64)]

def encode : List UInt8 → List Char
  | first :: second :: third :: rest =>
    symbols (first.toNat * 65536 + second.toNat * 256 + third.toNat) ++ encode rest
  | [first, second] => (symbols (first.toNat * 65536 + second.toNat * 256)).take 3
  | [first] => (symbols (first.toNat * 65536)).take 2
  | [] => []

/-- The bytes of a group. -/
def bytes (group : Nat) : List UInt8 :=
  [UInt8.ofNat (group / 65536), UInt8.ofNat (group / 256), UInt8.ofNat group]

/-- The first bytes of a last group, whose bits below `unit` must be zero. -/
def lastBytes (group unit count : Nat) : Option (List UInt8) :=
  if group % unit = 0 then some ((bytes group).take count) else none

def decode : List Char → Option (List UInt8)
  | one :: two :: three :: four :: rest => do
    let group := (← value one) * 262144 + (← value two) * 4096 + (← value three) * 64 + (← value four)
    return bytes group ++ (← decode rest)
  | [one, two, three] => do
    lastBytes ((← value one) * 262144 + (← value two) * 4096 + (← value three) * 64) 256 2
  | [one, two] => do lastBytes ((← value one) * 262144 + (← value two) * 4096) 65536 1
  | [_] => none
  | [] => some []

/-! ## The round trip -/

theorem value_symbol {index : Nat} (small : index < 64) : value (symbol index) = some index := by
  have all : ∀ index : Fin 64, value (symbol index) = some index.val := by decide +kernel
  exact all ⟨index, small⟩

theorem symbol_mem {index : Nat} (small : index < 64) : symbol index ∈ alphabet := by
  have all : ∀ index : Fin 64, symbol index ∈ alphabet := by decide +kernel
  exact all ⟨index, small⟩

variable {group : Nat}

theorem decode_symbols (small : group < 16777216) (rest : List Char) :
    decode (symbols group ++ rest) = (decode rest).map (bytes group ++ ·) := by
  have whole : group / 262144 * 262144 + group / 4096 % 64 * 4096 + group / 64 % 64 * 64 +
      group % 64 = group := by omega
  simp only [symbols, List.cons_append, List.nil_append, decode,
    value_symbol (show group / 262144 < 64 by omega), value_symbol (Nat.mod_lt _ (by decide : 64 > 0)),
    Option.bind_eq_bind, Option.bind_some, whole]
  cases decode rest <;> rfl

theorem decode_three (small : group < 16777216) (zeros : group % 256 = 0) :
    decode ((symbols group).take 3) = some ((bytes group).take 2) := by
  have whole : group / 262144 * 262144 + group / 4096 % 64 * 4096 + group / 64 % 64 * 64 = group := by
    omega
  change ((value _).bind fun one => (value _).bind fun two => (value _).bind fun three =>
    lastBytes (one * 262144 + two * 4096 + three * 64) 256 2) = _
  rw [value_symbol (show group / 262144 < 64 by omega), value_symbol (Nat.mod_lt _ (by decide : 64 > 0)),
    value_symbol (Nat.mod_lt _ (by decide : 64 > 0)), Option.bind_some, Option.bind_some,
    Option.bind_some, whole, lastBytes, if_pos zeros]

theorem decode_two (small : group < 16777216) (zeros : group % 65536 = 0) :
    decode ((symbols group).take 2) = some ((bytes group).take 1) := by
  have whole : group / 262144 * 262144 + group / 4096 % 64 * 4096 = group := by omega
  change ((value _).bind fun one => (value _).bind fun two =>
    lastBytes (one * 262144 + two * 4096) 65536 1) = _
  rw [value_symbol (show group / 262144 < 64 by omega), value_symbol (Nat.mod_lt _ (by decide : 64 > 0)),
    Option.bind_some, Option.bind_some, whole, lastBytes, if_pos zeros]

theorem bytes_group (first second third : UInt8) :
    bytes (first.toNat * 65536 + second.toNat * 256 + third.toNat) = [first, second, third] := by
  have one := first.toNat_lt
  have two := second.toNat_lt
  have three := third.toNat_lt
  simp only [bytes, List.cons.injEq, ← UInt8.toNat_inj, UInt8.toNat_ofNat', and_true]
  omega

/-- **What was encoded is decoded.** -/
theorem decode_encode (data : List UInt8) : decode (encode data) = some data := by
  induction data using encode.induct with
  | case1 first second third rest ih =>
    have one := first.toNat_lt
    have two := second.toNat_lt
    have three := third.toNat_lt
    rw [encode, decode_symbols (by omega), ih, Option.map_some, bytes_group]
    rfl
  | case2 first second =>
    have one := first.toNat_lt
    have two := second.toNat_lt
    have read := bytes_group first second 0
    rw [UInt8.toNat_zero, Nat.add_zero] at read
    rw [encode, decode_three (by omega) (by omega), read]
    rfl
  | case3 first =>
    have one := first.toNat_lt
    have read := bytes_group first 0 0
    rw [UInt8.toNat_zero, Nat.zero_mul, Nat.add_zero] at read
    rw [encode, decode_two (by omega) (by omega), read]
    rfl
  | case4 => rfl

theorem length_encode (data : List UInt8) : (encode data).length = (4 * data.length + 2) / 3 := by
  induction data using encode.induct with
  | case1 first second third rest ih =>
    simp only [encode, symbols, List.length_append, List.length_cons, List.length_nil, ih]
    omega
  | case2 first second => simp [encode, symbols]
  | case3 first => simp [encode, symbols]
  | case4 => rfl

theorem symbols_mem (small : group < 16777216) : ∀ c ∈ symbols group, c ∈ alphabet := by
  simp only [symbols, List.forall_mem_cons]
  exact ⟨symbol_mem (by omega), symbol_mem (by omega), symbol_mem (by omega), symbol_mem (by omega),
    by simp⟩

theorem encode_mem (data : List UInt8) : ∀ c ∈ encode data, c ∈ alphabet := by
  induction data using encode.induct with
  | case1 first second third rest ih =>
    have one := first.toNat_lt
    have two := second.toNat_lt
    have three := third.toNat_lt
    rw [encode]
    exact List.forall_mem_append.2 ⟨symbols_mem (by omega), ih⟩
  | case2 first second =>
    have one := first.toNat_lt
    have two := second.toNat_lt
    rw [encode]
    exact fun c member => symbols_mem (by omega) c (List.mem_of_mem_take member)
  | case3 first =>
    have one := first.toNat_lt
    rw [encode]
    exact fun c member => symbols_mem (by omega) c (List.mem_of_mem_take member)
  | case4 => simp [encode]

end Rustee.Foundation.Base64
