/-
# Rustee.Foundation.RustStd -- the standard-library operations the models use

Checked `i64` arithmetic over `Int` and unsigned arithmetic over `Nat`, `Duration` as a count of nanoseconds, and the tests
on `&str` that admission functions are written with.  `str::trim` removes every character
with the Unicode `White_Space` property, so a text trims to nothing exactly when all of
its characters have it; `len` counts UTF-8 bytes.
-/
import Mathlib.Data.Int.Init
import Mathlib.Data.List.Forall2

namespace Rustee.Foundation

set_option autoImplicit false

/-! ## Integers -/

def i32Max : Int := 2147483647

def i64Max : Int := 9223372036854775807

def i64Min : Int := -9223372036854775808

/-- The value, when an `i64` can hold it. -/
def checkedI64 (n : Int) : Option Int :=
  if i64Min ≤ n ∧ n ≤ i64Max then some n else none

theorem checkedI64_eq_some {n m : Int} :
    checkedI64 n = some m ↔ m = n ∧ i64Min ≤ n ∧ n ≤ i64Max := by
  unfold checkedI64
  split
  · rename_i fits
    constructor
    · intro same; exact ⟨(Option.some.inj same).symm, fits⟩
    · rintro ⟨rfl, -⟩; rfl
  · rename_i wide
    constructor
    · intro same; cases same
    · rintro ⟨-, fits⟩; exact absurd fits wide

/-- A sum of unsigned integers up to `max`. -/
def checkedAdd (max left right : Nat) : Option Nat :=
  if left + right ≤ max then some (left + right) else none

/-- A sum is taken in steps: if one of them is too large, so is the whole. -/
theorem checkedAdd_bind (max left right more : Nat) :
    ((checkedAdd max left right).bind fun sum => checkedAdd max sum more) =
      checkedAdd max left (right + more) := by
  unfold checkedAdd
  by_cases fits : left + right ≤ max
  · rw [if_pos fits, Option.bind_some, Nat.add_assoc]
  · rw [if_neg fits, if_neg (by omega), Option.bind_none]

/-- A difference of unsigned integers. -/
def checkedSub (left right : Nat) : Option Nat := if right ≤ left then some (left - right) else none

/-! ## Results -/

/-- `?`: a chain of fallible calls succeeds when each of them does. -/
theorem bind_eq_ok {ε α β : Type} {x : Except ε α} {f : α → Except ε β} {b : β} :
    (x >>= f) = .ok b ↔ ∃ a, x = .ok a ∧ f a = .ok b := by
  cases x with
  | error e =>
    constructor
    · intro ok; cases ok
    · rintro ⟨a, ok, -⟩; cases ok
  | ok a =>
    constructor
    · intro ok; exact ⟨a, rfl, ok⟩
    · rintro ⟨_, same, ok⟩; cases same; exact ok

/-- A fallible call fails with an error of its own or of what follows. -/
theorem bind_eq_error {ε α β : Type} {x : Except ε α} {f : α → Except ε β} {error : ε} :
    (x >>= f) = .error error ↔ x = .error error ∨ ∃ a, x = .ok a ∧ f a = .error error := by
  cases x with
  | error e =>
    constructor
    · intro failed
      cases failed
      exact .inl rfl
    · rintro (failed | ⟨a, ok, -⟩)
      · cases failed
        rfl
      · cases ok
  | ok a =>
    constructor
    · intro failed
      exact .inr ⟨a, rfl, failed⟩
    · rintro (failed | ⟨_, same, failed⟩)
      · cases failed
      · cases same
        exact failed

/-- `collect` into a `Result`: every value comes from one of the items. -/
theorem exists_of_mapM_ok {ε α β : Type} {f : α → Except ε β} {items : List α} {values : List β}
    (ok : items.mapM f = .ok values) {value : β} (isValue : value ∈ values) :
    ∃ item ∈ items, f item = .ok value := by
  induction items generalizing values with
  | nil =>
    cases ok
    cases isValue
  | cons item rest ih =>
    rw [List.mapM_cons] at ok
    obtain ⟨first, isFirst, ok⟩ := bind_eq_ok.1 ok
    obtain ⟨others, isOthers, ok⟩ := bind_eq_ok.1 ok
    cases ok
    rcases List.mem_cons.1 isValue with rfl | later
    · exact ⟨item, List.mem_cons_self, isFirst⟩
    · obtain ⟨source, isSource, isOk⟩ := ih isOthers later
      exact ⟨source, List.mem_cons_of_mem _ isSource, isOk⟩

/-- `collect` into a `Result`: the values are those of the items, in order. -/
theorem mapM_eq_ok {ε α β : Type} {f : α → Except ε β} {items : List α} {values : List β} :
    items.mapM f = .ok values ↔ List.Forall₂ (fun item value => f item = .ok value) items values := by
  induction items generalizing values with
  | nil =>
    rw [List.mapM_nil, List.forall₂_nil_left_iff]
    exact ⟨fun ok => (Except.ok.inj ok).symm, fun empty => empty ▸ rfl⟩
  | cons item rest ih =>
    rw [List.mapM_cons, List.forall₂_cons_left_iff]
    constructor
    · intro ok
      obtain ⟨first, isFirst, ok⟩ := bind_eq_ok.1 ok
      obtain ⟨others, isOthers, ok⟩ := bind_eq_ok.1 ok
      exact ⟨first, others, isFirst, ih.1 isOthers, (Except.ok.inj ok).symm⟩
    · rintro ⟨first, others, isFirst, areOthers, rfl⟩
      rw [isFirst, ih.2 areOthers]
      rfl

/-- `collect` into a `Result`: it fails if one of the items does. -/
theorem exists_ok_of_mapM {ε α β : Type} {f : α → Except ε β} {items : List α} {values : List β}
    (ok : items.mapM f = .ok values) {item : α} (isItem : item ∈ items) :
    ∃ value, f item = .ok value := by
  induction items generalizing values with
  | nil => cases isItem
  | cons first rest ih =>
    rw [List.mapM_cons] at ok
    obtain ⟨value, isValue, ok⟩ := bind_eq_ok.1 ok
    obtain ⟨others, isOthers, -⟩ := bind_eq_ok.1 ok
    rcases List.mem_cons.1 isItem with rfl | later
    · exact ⟨value, isValue⟩
    · exact ih isOthers later

/-- `map_err` changes only the error. -/
@[simp] theorem mapError_eq_ok {ε ε' α : Type} {x : Except ε α} {f : ε → ε'} {a : α} :
    x.mapError f = .ok a ↔ x = .ok a := by
  cases x <;> simp [Except.mapError]

/-- `map` changes only the value. -/
theorem map_eq_ok {ε α β : Type} {x : Except ε α} {f : α → β} {b : β} :
    x.map f = .ok b ↔ ∃ a, x = .ok a ∧ f a = b := by
  cases x <;> simp [Except.map]

theorem map_eq_error {ε α β : Type} {x : Except ε α} {f : α → β} {error : ε} :
    x.map f = .error error ↔ x = .error error := by
  cases x <;> simp [Except.map]

/-- `ok()` keeps the value and forgets the error. -/
theorem toOption_eq_some {ε α : Type} {x : Except ε α} {a : α} :
    x.toOption = some a ↔ x = .ok a := by
  cases x <;> simp [Except.toOption]

theorem isSome_toOption {ε α : Type} (x : Except ε α) : x.toOption.isSome = x.isOk := by
  cases x <;> rfl

/-! ## Durations -/

/-- A `std::time::Duration`, in nanoseconds. -/
structure Duration where
  nanos : Nat
  deriving DecidableEq, Repr

namespace Duration

def asMillis (d : Duration) : Nat := d.nanos / 1000000

def fromMillis (ms : Nat) : Duration := ⟨ms * 1000000⟩

/-- `subsec_nanos().is_multiple_of(1_000_000)`: a second is a whole number of milliseconds,
so only the total matters. -/
def wholeMillis (d : Duration) : Bool := d.nanos % 1000000 = 0

@[simp] theorem asMillis_fromMillis (ms : Nat) : (fromMillis ms).asMillis = ms :=
  Nat.mul_div_cancel ms (by decide)

end Duration

/-! ## Text -/

/-- The Unicode `White_Space` property, which `char::is_whitespace` tests. -/
def isWhitespace (c : Char) : Bool :=
  let n := c.toNat
  (9 ≤ n && n ≤ 13) || n == 32 || n == 133 || n == 160 || n == 5760 ||
    (8192 ≤ n && n ≤ 8202) || n == 8232 || n == 8233 || n == 8239 || n == 8287 || n == 12288

/-- `text.trim().is_empty()`. -/
def isBlank (text : String) : Bool := text.toList.all isWhitespace

/-- `text.contains('\0')`. -/
def containsNul (text : String) : Bool := text.toList.any fun c => c.toNat == 0

/-- `text.len()`. -/
def byteLen (text : String) : Nat := text.utf8ByteSize

/-- The admission test most stored texts share: not blank, no NUL byte, at most
`maxBytes` bytes. -/
def isBoundedText (maxBytes : Nat) (text : String) : Bool :=
  !isBlank text && !containsNul text && decide (byteLen text ≤ maxBytes)

/-- Not empty, at most `maxBytes` bytes, and only ASCII letters, digits, `_`, `-` and `.`. -/
def isIdentifier (maxBytes : Nat) (text : String) : Bool :=
  text ≠ "" && byteLen text ≤ maxBytes &&
    text.toList.all fun c => c.isAlphanum || c == '_' || c == '-' || c == '.'

/-- Not empty, no NUL byte, at most `maxBytes` bytes. -/
def isDurableText (maxBytes : Nat) (text : String) : Bool :=
  text ≠ "" && !containsNul text && byteLen text ≤ maxBytes

theorem isDurableText_of_isIdentifier {maxBytes : Nat} {text : String}
    (identifier : isIdentifier maxBytes text = true) : isDurableText maxBytes text = true := by
  simp only [isIdentifier, Bool.and_eq_true, List.all_eq_true] at identifier
  obtain ⟨⟨nonempty, short⟩, chars⟩ := identifier
  have noNul : containsNul text = false := by
    rw [containsNul, List.any_eq_false]
    intro c isChar isNul
    have isZero : c = '\x00' := Char.ext (UInt32.toNat_inj.1 (by simpa using isNul))
    have allowed := chars c isChar
    rw [isZero] at allowed
    exact absurd allowed (by decide)
  simp only [isDurableText, nonempty, noNul, short, Bool.not_false, Bool.and_self]

end Rustee.Foundation
