/-
# Rustee.Foundation.Chars -- a text as the list of its characters

What parsers do with a `&str`: split it at a character, trim it, cut off what it starts with.
Splitting is `List.splitOn`, which like `str::split` gives one empty piece for an empty text.
-/
import Rustee.Foundation.RustStd

namespace Rustee.Foundation

set_option autoImplicit false

abbrev Text := List Char

instance : LawfulBEq Text := inferInstance

namespace Text

/-- `trim_start_matches` and `trim_end_matches` with one test. -/
def trimMatches (test : Char → Bool) (text : Text) : Text :=
  ((text.dropWhile test).reverse.dropWhile test).reverse

/-- `str::trim`. -/
def trim (text : Text) : Text := trimMatches isWhitespace text

/-- `split_once`, at the first `separator`. -/
def splitOnce (separator : Char) : Text → Option (Text × Text)
  | [] => none
  | c :: rest =>
    if c = separator then some ([], rest)
    else (splitOnce separator rest).map fun pair => (c :: pair.1, pair.2)

/-- `to_ascii_lowercase`. -/
def toAsciiLowercase (text : Text) : Text := text.map Char.toLower

def isDigits (text : Text) : Bool := !text.isEmpty && text.all Char.isDigit

/-- The number that digits stand for. -/
def digitsValue (text : Text) : Nat := Nat.ofDigitChars 10 text 0

/-- `str::parse` for an unsigned integer type: digits, with one plus sign at most before them, and a
value the type can hold. -/
def parseUnsigned (max : Nat) (text : Text) : Option Nat :=
  let digits :=
    match text with
    | '+' :: rest => rest
    | _ => text
  if isDigits digits && digitsValue digits ≤ max then some (digitsValue digits) else none

end Text

/-! ## Pieces -/

section

variable {α β : Type}

/-- `str::strip_prefix`. -/
theorem dropPrefix?_eq_some {α : Type} [BEq α] [LawfulBEq α] {text front rest : List α} :
    text.dropPrefix? front = some rest ↔ text = front ++ rest := by
  rw [List.dropPrefix?_eq_some_iff]
  constructor
  · rintro ⟨other, rfl, same⟩
    rw [eq_of_beq same]
  · rintro rfl
    exact ⟨front, rfl, BEq.rfl⟩

variable {results : List β}

/-- A parser that reads every piece of a list reads them one by one. -/
theorem mapM_eq_some_iff {parse : α → Option β} {pieces : List α} :
    pieces.mapM parse = some results ↔
      List.Forall₂ (fun piece result => parse piece = some result) pieces results := by
  induction pieces generalizing results with
  | nil => simp [eq_comm]
  | cons piece rest ih =>
    rw [List.mapM_cons]
    constructor
    · intro reads
      obtain ⟨result, first, reads⟩ := Option.bind_eq_some_iff.1 reads
      obtain ⟨others, later, reads⟩ := Option.bind_eq_some_iff.1 reads
      cases reads
      exact .cons first (ih.1 later)
    · intro reads
      cases reads with
      | cons first later => simp [first, ih.2 later]

/-- A result was read from one of the pieces. -/
theorem exists_of_forall₂ {related : α → β → Prop} {pieces : List α}
    (all : List.Forall₂ related pieces results) {result : β} (member : result ∈ results) :
    ∃ piece ∈ pieces, related piece result := by
  induction all with
  | nil => cases member
  | cons first _ ih =>
    rcases List.mem_cons.1 member with rfl | member
    · exact ⟨_, List.mem_cons_self, first⟩
    · obtain ⟨piece, isPiece, holds⟩ := ih member
      exact ⟨piece, List.mem_cons_of_mem _ isPiece, holds⟩

/-- Two lists read together are read apart. -/
theorem mapM_append_eq_some {parse : α → Option β} {front back : List α}
    (reads : (front ++ back).mapM parse = some results) :
    ∃ first second, results = first ++ second ∧ front.mapM parse = some first ∧
      back.mapM parse = some second := by
  rw [List.mapM_append] at reads
  obtain ⟨first, isFirst, reads⟩ := Option.bind_eq_some_iff.1 reads
  obtain ⟨second, isSecond, reads⟩ := Option.bind_eq_some_iff.1 reads
  cases reads
  exact ⟨first, second, rfl, isFirst, isSecond⟩

theorem map_intercalate (f : α → β) (separator : List α) (pieces : List (List α)) :
    (separator.intercalate pieces).map f =
      (separator.map f).intercalate (pieces.map (List.map f)) := by
  induction pieces with
  | nil => rfl
  | cons piece rest ih =>
    cases rest with
    | nil => simp
    | cons next others => simp [List.intercalate_cons_cons, ih]

end

end Rustee.Foundation
