/-
# Rustee.Foundation.FieldSyntax -- the parts of HTTP field values

The lexical rules that HTTP field values are made of: tokens, quoted strings, optional
whitespace, and lists with commas between their elements.  Each is a type whose values carry the
rule, so that a text built from them is well formed.

A list may have empty elements, which a recipient has to ignore, so what stands between two
elements is any text of commas and whitespace with a comma in it (`Separator`), and what stands at
either end of a list is any such text at all (`Filler`).
-/
import Rustee.Foundation.Chars
import Mathlib.Data.List.TakeWhile

namespace Rustee.Foundation

set_option autoImplicit false

/-! ## Characters -/

/-- `tchar`. -/
def isTokenChar (c : Char) : Bool := c.isAlphanum || "!#$%&'*+-.^_`|~".toList.contains c

/-- The characters of `token68`, its padding apart. -/
def isToken68Char (c : Char) : Bool := c.isAlphanum || "-._~+/".toList.contains c

/-- A character of `OWS` and of `BWS`. -/
def isOws (c : Char) : Bool := c = ' ' || c = '\t'

def isFiller (c : Char) : Bool := isOws c || c = ','

/-- The characters that may follow a backslash in a quoted string. -/
def isQuotable (c : Char) : Bool := c = '\t' || (' ' ≤ c && c ≠ '\x7f')

/-- `qdtext`. -/
def isQdtext (c : Char) : Bool := isQuotable c && c ≠ '"' && c ≠ '\\'

/-- A byte of a field value. -/
def isHeaderByte (byte : UInt8) : Bool := (32 ≤ byte && byte != 127) || byte == 9

variable {c separator : Char} {front : Text}

theorem isWhitespace_of_visible (visible : 33 ≤ c.toNat ∧ c.toNat ≤ 126) :
    isWhitespace c = false := by
  simp only [isWhitespace, Bool.or_eq_false_iff, Bool.and_eq_false_iff, decide_eq_false_iff_not,
    beq_eq_false_iff_ne]
  omega

theorem isAlphanum_codes (alphanum : c.isAlphanum = true) :
    ((65 ≤ c.toNat ∧ c.toNat ≤ 90) ∨ (97 ≤ c.toNat ∧ c.toNat ≤ 122)) ∨
      (48 ≤ c.toNat ∧ c.toNat ≤ 57) := by
  delta Char.isAlphanum Char.isAlpha Char.isUpper Char.isLower Char.isDigit at alphanum
  simp only [Bool.or_eq_true, Bool.and_eq_true, decide_eq_true_eq, ge_iff_le,
    UInt32.le_iff_toNat_le] at alphanum
  exact alphanum

theorem isAlphanum_visible (alphanum : c.isAlphanum = true) :
    33 ≤ c.toNat ∧ c.toNat ≤ 126 := by
  have codes := isAlphanum_codes alphanum
  omega

/-- Letters, digits and a few visible symbols are visible. -/
theorem visible_of_symbols {symbols : List Char} (visible : ∀ c ∈ symbols, 33 ≤ c.toNat ∧ c.toNat ≤ 126)
    (isOne : (c.isAlphanum || symbols.contains c) = true) : 33 ≤ c.toNat ∧ c.toNat ≤ 126 := by
  rcases Bool.or_eq_true_iff.1 isOne with alphanum | symbol
  · exact isAlphanum_visible alphanum
  · exact visible c (List.contains_iff_mem.1 symbol)

theorem isTokenChar_visible (isToken : isTokenChar c = true) : 33 ≤ c.toNat ∧ c.toNat ≤ 126 :=
  visible_of_symbols (by simp) isToken

theorem isWhitespace_of_isTokenChar (isToken : isTokenChar c = true) :
    isWhitespace c = false :=
  isWhitespace_of_visible (isTokenChar_visible isToken)

theorem isWhitespace_of_isToken68Char (isToken : isToken68Char c = true) :
    isWhitespace c = false :=
  isWhitespace_of_visible (visible_of_symbols (by simp) isToken)

theorem isWhitespace_of_isOws (ows : isOws c = true) : isWhitespace c = true := by
  rcases Bool.or_eq_true_iff.1 ows with space | tab
  · rw [of_decide_eq_true space]
    decide
  · rw [of_decide_eq_true tab]
    decide

/-! ## Parts -/

abbrev Token : Type := { text : Text // text ≠ [] ∧ text.all isTokenChar = true }

abbrev Ows : Type := { text : Text // text.all isOws = true }

/-- `1*SP`. -/
abbrev Spaces : Type := { text : Text // text ≠ [] ∧ text.all (· = ' ') = true }

abbrev Filler : Type := { text : Text // text.all isFiller = true }

abbrev Separator : Type := { text : Text // text.all isFiller = true ∧ ',' ∈ text }

structure Token68 where
  chars : { text : Text // text ≠ [] ∧ text.all isToken68Char = true }
  padding : Nat

def Token68.text (credentials : Token68) : Text :=
  credentials.chars.1 ++ List.replicate credentials.padding '='

/-- What may stand between the quotes of a `quoted-string`. -/
def isQuotedText : Text → Bool
  | [] => true
  | '\\' :: escaped :: rest => isQuotable escaped && isQuotedText rest
  | c :: rest => isQdtext c && isQuotedText rest

abbrev QuotedText : Type := { text : Text // isQuotedText text = true }

/-- `1#element`: elements with separators between them. -/
structure Joined (α : Type) where
  init : List (α × Separator)
  last : α

def Joined.elements {α : Type} (list : Joined α) : List α := list.init.map Prod.fst ++ [list.last]

def Joined.text {α : Type} (render : α → Text) (list : Joined α) : Text :=
  list.init.flatMap (fun element => render element.1 ++ element.2.1) ++ render list.last

/-! ## Texts without whitespace at their ends -/

structure Solid (text : Text) : Prop where
  nonempty : text ≠ []
  first : ∀ c ∈ text.head?, isWhitespace c = false
  last : ∀ c ∈ text.getLast?, isWhitespace c = false

theorem Solid.of_forall {text : Text} (nonempty : text ≠ [])
    (solid : ∀ c ∈ text, isWhitespace c = false) :
    Solid text :=
  ⟨nonempty, fun c isFirst => solid c (List.mem_of_mem_head? isFirst),
    fun c isLast => solid c (List.mem_of_mem_getLast? isLast)⟩

/-- Only the ends of a text matter. -/
theorem Solid.around {back : Text} (solidFront : Solid front) (solidBack : Solid back)
    (between : Text) : Solid (front ++ (between ++ back)) where
  nonempty := by simp [solidFront.nonempty]
  first := by
    rw [List.head?_append_of_ne_nil _ solidFront.nonempty]
    exact solidFront.first
  last := by
    rw [← List.append_assoc, List.getLast?_append_of_ne_nil _ solidBack.nonempty]
    exact solidBack.last

theorem dropWhile_of_head {test : Char → Bool} {text : Text} (starts : ∀ c ∈ text.head?, test c = false) :
    text.dropWhile test = text := by
  cases text with
  | nil => rfl
  | cons c rest => rw [List.dropWhile_cons_of_neg (by simp [starts c rfl])]

theorem Text.trim_around {before text after : Text} (solid : Solid text)
    (blankBefore : ∀ c ∈ before, isWhitespace c = true)
    (blankAfter : ∀ c ∈ after, isWhitespace c = true) :
    Text.trim (before ++ (text ++ after)) = text := by
  have startsSolid : ∀ c ∈ (text ++ after).head?, isWhitespace c = false := by
    rw [List.head?_append_of_ne_nil _ solid.nonempty]
    exact solid.first
  have endsSolid : ∀ c ∈ text.reverse.head?, isWhitespace c = false := by
    rw [List.head?_reverse]
    exact solid.last
  rw [trim, trimMatches, List.dropWhile_append_of_pos blankBefore, dropWhile_of_head startsSolid,
    List.reverse_append,
    List.dropWhile_append_of_pos fun c isChar => blankAfter c (List.mem_reverse.1 isChar),
    dropWhile_of_head endsSolid, List.reverse_reverse]

theorem Text.trim_solid {text : Text} (solid : Solid text) : Text.trim text = text := by
  have trimmed : Text.trim ([] ++ (text ++ [])) = text := Text.trim_around solid (by simp) (by simp)
  simpa using trimmed

theorem Text.trim_blank {text : Text} (blank : ∀ c ∈ text, isWhitespace c = true) :
    Text.trim text = [] := by
  rw [trim, trimMatches, List.dropWhile_eq_nil_iff.2 blank]
  rfl

/-- A text with blanks around it. -/
def Padded (core text : Text) : Prop :=
  ∃ before after, text = before ++ (core ++ after) ∧ (∀ c ∈ before, isWhitespace c = true) ∧
    ∀ c ∈ after, isWhitespace c = true

theorem Padded.trans {inner core text : Text} (isCore : Padded inner core) (isText : Padded core text) :
    Padded inner text := by
  obtain ⟨before, after, rfl, blankBefore, blankAfter⟩ := isCore
  obtain ⟨outerBefore, outerAfter, rfl, blankOuterBefore, blankOuterAfter⟩ := isText
  refine ⟨outerBefore ++ before, after ++ outerAfter, by simp, ?_, ?_⟩
  · exact fun c isChar => (List.mem_append.1 isChar).elim (blankOuterBefore c) (blankBefore c)
  · exact fun c isChar => (List.mem_append.1 isChar).elim (blankAfter c) (blankOuterAfter c)

theorem Text.dropWhile_eq_trim_append (text : Text) : text.dropWhile isWhitespace =
    Text.trim text ++ ((text.dropWhile isWhitespace).reverse.takeWhile isWhitespace).reverse := by
  rw [trim, trimMatches, ← List.reverse_append, List.takeWhile_append_dropWhile, List.reverse_reverse]

theorem Text.padded_trim (text : Text) : Padded (Text.trim text) text := by
  refine ⟨text.takeWhile isWhitespace,
    ((text.dropWhile isWhitespace).reverse.takeWhile isWhitespace).reverse, ?_,
    fun c isChar => List.mem_takeWhile_imp isChar,
    fun c isChar => List.mem_takeWhile_imp (List.mem_reverse.1 isChar)⟩
  rw [← Text.dropWhile_eq_trim_append, List.takeWhile_append_dropWhile]

theorem head_dropWhile {text : Text} {c : Char} (isFirst : c ∈ (text.dropWhile isWhitespace).head?) :
    isWhitespace c = false := by
  have stops := List.head?_dropWhile_not isWhitespace text
  rw [isFirst] at stops
  exact stops

theorem Text.solid_trim {text : Text} (nonempty : Text.trim text ≠ []) : Solid (Text.trim text) where
  nonempty := nonempty
  first := by
    intro c isFirst
    have starts : (text.dropWhile isWhitespace).head? = (Text.trim text).head? := by
      rw [Text.dropWhile_eq_trim_append, List.head?_append_of_ne_nil _ nonempty]
    exact head_dropWhile (starts ▸ isFirst)
  last := by
    intro c isLast
    rw [trim, trimMatches, List.getLast?_reverse] at isLast
    exact head_dropWhile isLast

theorem isWhitespace_toLower (blank : isWhitespace c = true) : isWhitespace c.toLower = true := by
  have notUpper : ¬c.isUpper = true := by
    intro upper
    have alphanum : c.isAlphanum = true := by
      delta Char.isAlphanum Char.isAlpha
      rw [upper, Bool.true_or, Bool.true_or]
    simp [isWhitespace_of_visible (isAlphanum_visible alphanum)] at blank
  have same : c.toLower = c := dif_neg fun isUpper => notUpper (decide_eq_true isUpper)
  rw [same]
  exact blank

/-- A text that is a word but for the case. -/
theorem Solid.of_toAsciiLowercase {text word : Text} (isWord : Text.toAsciiLowercase text = word)
    (nonempty : word ≠ []) (solid : ∀ c ∈ word, isWhitespace c = false) : Solid text := by
  subst isWord
  refine Solid.of_forall (by simpa [Text.toAsciiLowercase] using nonempty) fun c isChar => ?_
  by_contra blank
  have lower := solid c.toLower (List.mem_map_of_mem isChar)
  simp [isWhitespace_toLower (Bool.not_eq_false _ ▸ blank)] at lower

/-- Blanks around a text do not matter. -/
theorem Padded.trim_eq {core text : Text} (padded : Padded core text) :
    Text.trim text = Text.trim core := by
  have whole := (Text.padded_trim core).trans padded
  by_cases empty : Text.trim core = []
  · rw [empty] at whole ⊢
    obtain ⟨before, after, rfl, blankBefore, blankAfter⟩ := whole
    exact Text.trim_blank fun c isChar => (List.mem_append.1 isChar).elim (blankBefore c) (blankAfter c)
  · obtain ⟨before, after, rfl, blankBefore, blankAfter⟩ := whole
    exact Text.trim_around (Text.solid_trim empty) blankBefore blankAfter

theorem Solid.trim_eq_iff {core text : Text} (solid : Solid core) :
    Text.trim text = core ↔ Padded core text := by
  constructor
  · rintro rfl
    exact Text.padded_trim text
  · intro padded
    rw [padded.trim_eq, Text.trim_solid solid]

theorem Text.mem_of_mem_trim {text : Text} (isChar : c ∈ Text.trim text) : c ∈ text := by
  have inSuffix := (List.dropWhile_suffix _).subset (List.mem_reverse.1 isChar)
  exact (List.dropWhile_suffix _).subset (List.mem_reverse.1 inSuffix)

/-- `split_once` at a separator that does not occur earlier. -/
theorem Text.splitOnce_append {rest : Text} (absent : separator ∉ front) :
    Text.splitOnce separator (front ++ separator :: rest) = some (front, rest) := by
  induction front with
  | nil => simp [splitOnce]
  | cons c front ih =>
    rw [List.mem_cons, not_or] at absent
    rw [List.cons_append, splitOnce, if_neg (Ne.symm absent.1), ih absent.2]
    rfl

theorem Text.eq_of_splitOnce {text rest : Text}
    (found : Text.splitOnce separator text = some (front, rest)) :
    text = front ++ separator :: rest := by
  induction text generalizing front with
  | nil => cases found
  | cons c text ih =>
    rw [Text.splitOnce] at found
    split_ifs at found with same
    · cases found
      rw [same, List.nil_append]
    · obtain ⟨⟨more, behind⟩, later, isFront⟩ := Option.map_eq_some_iff.1 found
      cases isFront
      rw [List.cons_append, ← ih later]

theorem Text.splitOnce_eq_none {text : Text} (absent : separator ∉ text) :
    Text.splitOnce separator text = none := by
  induction text with
  | nil => rfl
  | cons c text ih =>
    rw [List.mem_cons, not_or] at absent
    rw [splitOnce, if_neg (Ne.symm absent.1), ih absent.2]
    rfl

theorem splitOn_append_left {before : Text} (absent : separator ∉ before) (text : Text) :
    (before ++ text).splitOn separator = (text.splitOn separator).modifyHead (before ++ ·) := by
  induction before with
  | nil => cases isSplit : text.splitOn separator <;> simp [isSplit]
  | cons c before ih =>
    rw [List.mem_cons, not_or] at absent
    rw [List.cons_append, List.splitOn_cons_eq_if_modifyHead, if_neg (by simpa using Ne.symm absent.1), ih absent.2,
      List.modifyHead_modifyHead]
    rfl

theorem splitOn_append_right {after : Text} (absent : separator ∉ after) (text : Text) :
    ∃ init last, text.splitOn separator = init ++ [last] ∧
      (text ++ after).splitOn separator = init ++ [last ++ after] := by
  induction text with
  | nil => exact ⟨[], [], List.splitOn_nil _, List.splitOn_eq_singleton absent⟩
  | cons c text ih =>
    obtain ⟨init, last, isSplit, isLonger⟩ := ih
    rw [List.cons_append, List.splitOn_cons_eq_if_modifyHead, List.splitOn_cons_eq_if_modifyHead, isSplit,
      isLonger]
    split_ifs
    · exact ⟨[] :: init, last, rfl, rfl⟩
    · cases init with
      | nil => exact ⟨[], c :: last, rfl, rfl⟩
      | cons first init => exact ⟨(c :: first) :: init, last, rfl, rfl⟩

/-- Blanks around a text stay around its pieces. -/
theorem Padded.map_trim_splitOn (solid : isWhitespace separator = false) {core text : Text}
    (padded : Padded core text) :
    (text.splitOn separator).map Text.trim = (core.splitOn separator).map Text.trim := by
  obtain ⟨before, after, rfl, blankBefore, blankAfter⟩ := padded
  have absent {blanks : Text} (blank : ∀ c ∈ blanks, isWhitespace c = true) : separator ∉ blanks :=
    fun isChar => by simp [blank separator isChar] at solid
  have trimFirst (piece : Text) : Text.trim (before ++ piece) = Text.trim piece :=
    Padded.trim_eq ⟨before, [], by simp, blankBefore, by simp⟩
  have trimLast (piece : Text) : Text.trim (piece ++ after) = Text.trim piece :=
    Padded.trim_eq ⟨[], after, rfl, by simp, blankAfter⟩
  obtain ⟨init, last, isSplit, isLonger⟩ := splitOn_append_right (absent blankAfter) core
  rw [splitOn_append_left (absent blankBefore), isSplit, isLonger]
  cases init with
  | nil => simp [trimFirst, trimLast]
  | cons first init => simp [trimFirst, trimLast]

/-! ## Parameters -/

/-- The value of a parameter `word=value`: `split_once`, and `trim` and `eq_ignore_ascii_case` for the
parts. -/
def Text.assigned (word parameter : Text) : Option Text :=
  match Text.splitOnce '=' (Text.trim parameter) with
  | none => none
  | some (name, value) =>
    if Text.toAsciiLowercase (Text.trim name) = word then some (Text.trim value) else none

/-- `word=value`, in either case and with blanks around the word and the value. -/
def Assigns (word parameter value : Text) : Prop :=
  ∃ left right name, parameter = left ++ '=' :: right ∧ Padded name left ∧
    Text.toAsciiLowercase name = word ∧ Padded value right

/-- An equals sign behind a solid text is inside the trimmed text, and what follows it keeps its
blanks in front. -/
theorem Text.trim_equals {before name : Text} (solid : Solid name)
    (blankBefore : ∀ c ∈ before, isWhitespace c = true) (after right : Text) :
    ∃ rest, Text.trim (before ++ (name ++ after) ++ '=' :: right) = name ++ after ++ '=' :: rest ∧
      Text.trim rest = Text.trim right := by
  obtain ⟨first, last, whole, blankFirst, blankLast⟩ := Text.padded_trim right
  by_cases empty : Text.trim right = []
  · have isEquals : Solid "=".toList := Solid.of_forall (by decide) (by simp [isWhitespace])
    have blankRight : ∀ c ∈ right, isWhitespace c = true := by
      rw [whole, empty]
      exact fun c isChar => (List.mem_append.1 isChar).elim (blankFirst c) (blankLast c)
    have core := Text.trim_around (solid.around isEquals after) blankBefore blankRight
    exact ⟨[], by simpa using core, by rw [empty]; rfl⟩
  · have core := Text.trim_around (solid.around (Text.solid_trim empty) (after ++ '=' :: first))
      blankBefore blankLast
    have isParameter : before ++ (name ++ after) ++ '=' :: right =
        before ++ (name ++ (after ++ '=' :: first ++ Text.trim right) ++ last) := by
      conv_lhs => rw [whole]
      simp
    refine ⟨first ++ Text.trim right, ?_, ?_⟩
    · rw [isParameter, core]
      simp
    · have padded : Padded (Text.trim right) (first ++ Text.trim right) :=
        ⟨first, [], by simp, blankFirst, by simp⟩
      rw [padded.trim_eq, Text.trim_solid (Text.solid_trim empty)]

/-- What is read of a parameter that assigns a value to a word. -/
theorem Assigns.assigned {word parameter value : Text} (assigns : Assigns word parameter value)
    (nonempty : word ≠ []) (isWord : ∀ c ∈ word, isWhitespace c = false ∧ c ≠ '=') :
    Text.assigned word parameter = some (Text.trim value) := by
  obtain ⟨left, right, name, rfl, isName, lower, isValue⟩ := assigns
  have solid : Solid name := Solid.of_toAsciiLowercase lower nonempty fun c isChar => (isWord c isChar).1
  obtain ⟨before, after, rfl, blankBefore, blankAfter⟩ := isName
  have absent : '=' ∉ name ++ after := by
    rw [List.mem_append, not_or]
    constructor
    · intro isChar
      have inLower : '='.toLower ∈ Text.toAsciiLowercase name := List.mem_map_of_mem isChar
      rw [lower] at inLower
      exact (isWord '=' inLower).2 rfl
    · exact fun isChar => absurd (blankAfter '=' isChar) (by decide)
  obtain ⟨rest, isRest, sameValue⟩ := Text.trim_equals solid blankBefore after right
  have trimmedName : Text.trim (name ++ after) = name :=
    solid.trim_eq_iff.2 ⟨[], after, rfl, by simp, blankAfter⟩
  rw [Text.assigned, isRest, Text.splitOnce_append absent]
  simp only [trimmedName, lower, if_true, sameValue, isValue.trim_eq]

theorem Text.assigns_of_assigned {word parameter value : Text}
    (read : Text.assigned word parameter = some value) : Assigns word parameter value := by
  unfold Text.assigned at read
  cases found : Text.splitOnce '=' (Text.trim parameter) with
  | none => simp [found] at read
  | some parts =>
    obtain ⟨name, right⟩ := parts
    simp only [found] at read
    split_ifs at read with lower
    cases read
    obtain ⟨before, after, whole, blankBefore, blankAfter⟩ := Text.padded_trim parameter
    rw [Text.eq_of_splitOnce found] at whole
    refine ⟨before ++ name, right ++ after, Text.trim name, by simp [whole], ?_, lower, ?_⟩
    · exact (Text.padded_trim name).trans ⟨before, [], by simp, blankBefore, by simp⟩
    · exact (Text.padded_trim right).trans ⟨[], after, rfl, by simp, blankAfter⟩

end Rustee.Foundation
