/-
# Rustee.McpOAuth.Challenge -- the elements of a `WWW-Authenticate` value

`bearer_parameter` of `rustee-ai-mcp-oauth/src/discovery/challenge.rs`.  It walks over the elements
of the value, cut at the commas outside quoted strings, and decides of each whether it starts a new
challenge by looking at its first word: one without an equals sign, up to whitespace or the end of
the element, is a scheme.

`Header` is what HTTP allows for such a value.  The parts it is made of are `Element`s: one
segment each, whatever surrounds them, and here is what `challenge_segment` and
`challenge_parameter` make of each kind of part.

The source works on byte offsets.  The bytes it looks for are ASCII, so the model works on
characters, and an offset is the text that is left.
-/
import Rustee.Foundation.FieldSyntax

namespace Rustee.McpOAuth

open Rustee.Foundation

set_option autoImplicit false

/-! ## The reader -/

/-- The one variant of `McpOAuthError` that is returned here. -/
inductive ChallengeError where
  | invalidChallenge
  deriving DecidableEq, Repr

/-- `char::is_ascii_whitespace`. -/
def isAsciiWhitespace (c : Char) : Bool :=
  c = ' ' || c = '\t' || c = '\n' || c = '\x0c' || c = '\r'

/-- `str::eq_ignore_ascii_case`. -/
def eqIgnoreAsciiCase (one other : Text) : Bool :=
  Text.toAsciiLowercase one = Text.toAsciiLowercase other

/-- The scan of `next_challenge_segment`: the text up to a comma outside quotes, and what follows
the comma. -/
def takeSegment : Bool → Text → Text × Text
  | _, [] => ([], [])
  | true, '\\' :: escaped :: rest =>
    let (segment, after) := takeSegment true rest
    ('\\' :: escaped :: segment, after)
  | quoted, c :: rest =>
    if c = '"' then
      let (segment, after) := takeSegment (!quoted) rest
      (c :: segment, after)
    else if c = ',' ∧ quoted = false then ([], rest)
    else
      let (segment, after) := takeSegment quoted rest
      (c :: segment, after)

def nextChallengeSegment (header : Text) : Option (Text × Text) :=
  if header = [] then none else some (takeSegment false header)

def challengeSegment (segment : Text) : Option (Text × Text) :=
  let segment := Text.trim segment
  let word := segment.takeWhile fun c => !isAsciiWhitespace c
  let after := segment.dropWhile fun c => !isAsciiWhitespace c
  if word.contains '=' then none else some (word, after.dropWhile isWhitespace)

/-- `strip_prefix('"')?.strip_suffix('"')`. -/
def unquoted (value : Text) : Option Text :=
  (value.dropPrefix? ['"']).bind fun opened => opened.dropSuffix? ['"']

def challengeParameter (parameters name : Text) : Option Text :=
  match Text.splitOnce '=' (Text.trim parameters) with
  | none => none
  | some (key, value) =>
    if eqIgnoreAsciiCase (Text.trim key) name then unquoted (Text.trim value) else none

/-- The locals of `bearer_parameter`. -/
structure Scan where
  bearer : Bool
  found : Option Text
  deriving DecidableEq, Repr

namespace Scan

/-- `found.replace(value)`, for a value that is there. -/
def record (scan : Scan) : Option Text → Except ChallengeError Scan
  | none => .ok scan
  | some value =>
    if scan.found.isSome then .error .invalidChallenge else .ok { scan with found := some value }

/-- A parameter counts in a Bearer challenge. -/
def read (scan : Scan) (value : Option Text) : Except ChallengeError Scan :=
  if scan.bearer then scan.record value else .ok scan

/-- The body of the loop. -/
def segment (name : Text) (scan : Scan) (segment : Text) : Except ChallengeError Scan :=
  let segment := Text.trim segment
  if segment = [] then .ok scan
  else
    match challengeSegment segment with
    | some (scheme, parameters) =>
      Scan.read ⟨eqIgnoreAsciiCase scheme "bearer".toList, scan.found⟩
        (challengeParameter parameters name)
    | none => scan.read (challengeParameter segment name)

end Scan

theorem length_takeSegment (quoted : Bool) (text : Text) :
    (takeSegment quoted text).2.length ≤ text.length - 1 := by
  fun_induction takeSegment quoted text <;> simp_all <;> omega

theorem length_nextChallengeSegment {text segment rest : Text}
    (isNext : nextChallengeSegment text = some (segment, rest)) : rest.length < text.length := by
  unfold nextChallengeSegment at isNext
  split at isNext
  · cases isNext
  · rename_i nonempty
    have shorter := length_takeSegment false text
    have positive := List.length_pos_iff.2 nonempty
    rw [Option.some.inj isNext] at shorter
    dsimp only at shorter
    omega

/-- The loop. -/
def Scan.header (name : Text) (scan : Scan) (text : Text) : Except ChallengeError (Option Text) :=
  match isNext : nextChallengeSegment text with
  | none => .ok scan.found
  | some (segment, rest) =>
    have := length_nextChallengeSegment isNext
    do
      let scan ← scan.segment name segment
      scan.header name rest
termination_by text.length

def bearerParameter (header name : Text) : Except ChallengeError (Option Text) :=
  Scan.header name ⟨false, none⟩ header

/-! ## Well-formed values -/

inductive ParameterValue where
  | token (value : Token)
  | quoted (raw : QuotedText)

def ParameterValue.text : ParameterValue → Text
  | .token value => value.1
  | .quoted raw => '"' :: (raw.1 ++ ['"'])

def ParameterValue.isQuoted : ParameterValue → Bool
  | .token _ => false
  | .quoted _ => true

/-- `auth-param`, with the whitespace around its equals sign. -/
structure Parameter where
  name : Token
  beforeEquals : Ows
  afterEquals : Ows
  value : ParameterValue

def Parameter.text (parameter : Parameter) : Text :=
  parameter.name.1 ++ (parameter.beforeEquals.1 ++
    '=' :: (parameter.afterEquals.1 ++ parameter.value.text))

namespace Parameter

variable (name : Text) (parameter : Parameter)

def named : Bool := eqIgnoreAsciiCase parameter.name.1 name

/-- The text of the value, between its quotes if it has some. -/
def raw : Text :=
  match parameter.value with
  | .token value => value.1
  | .quoted raw => raw.1

/-- The value of a parameter of the name, if it is a quoted string. -/
def found : Option Text :=
  if parameter.named name then
    match parameter.value with
    | .token _ => none
    | .quoted raw => some raw.1
  else none

end Parameter

/-- `challenge`.  A list of parameters may start with empty elements, and then the first parameter
does not stand in the element of the scheme. -/
inductive Challenge where
  | bare (scheme : Token)
  | credentials (scheme : Token) (spaces : Spaces) (token68 : Token68)
  | parameters (scheme : Token) (spaces : Spaces) (leading : Option Separator) (list : Joined Parameter)

namespace Challenge

def scheme : Challenge → Token
  | bare scheme | credentials scheme .. | parameters scheme .. => scheme

def text : Challenge → Text
  | bare scheme => scheme.1
  | credentials scheme spaces token68 => scheme.1 ++ (spaces.1 ++ token68.text)
  | parameters scheme spaces leading list =>
    scheme.1 ++ (spaces.1 ++ (leading.elim [] (·.1) ++ list.text Parameter.text))

def params : Challenge → List Parameter
  | bare _ | credentials .. => []
  | parameters _ _ _ list => list.elements

end Challenge

/-- `#challenge`. -/
structure Header where
  leading : Filler
  list : Option (Joined Challenge)
  trailing : Filler

namespace Header

def challenges (header : Header) : List Challenge := header.list.elim [] Joined.elements

def text (header : Header) : Text :=
  header.leading.1 ++ (header.list.elim [] (Joined.text Challenge.text) ++ header.trailing.1)

end Header

/-! ## Segments -/

/-- Commas in the text do not end a segment, and quotes are closed again. -/
def Sealed (text : Text) : Prop :=
  ∀ rest, takeSegment false (text ++ rest) =
    (text ++ (takeSegment false rest).1, (takeSegment false rest).2)

theorem Sealed.append {front back : Text} (sealedFront : Sealed front) (sealedBack : Sealed back) :
    Sealed (front ++ back) := by
  intro rest
  rw [List.append_assoc, sealedFront, sealedBack]
  simp

theorem takeSegment_cons {quoted : Bool} {c : Char} (noQuote : c ≠ '"') (noBackslash : c ≠ '\\')
    (noComma : c ≠ ',' ∨ quoted = true) (rest : Text) :
    takeSegment quoted (c :: rest) =
      (c :: (takeSegment quoted rest).1, (takeSegment quoted rest).2) := by
  rw [takeSegment.eq_3 _ _ _ (by simp [noBackslash])]
  simp only [noQuote, if_false]
  rw [if_neg]
  rintro ⟨comma, unquoted⟩
  rcases noComma with noComma | isQuoted
  · exact noComma comma
  · rw [isQuoted] at unquoted
    cases unquoted

theorem sealed_of_forall {text : Text} (plain : ∀ c ∈ text, c ≠ '"' ∧ c ≠ '\\' ∧ c ≠ ',') :
    Sealed text := by
  intro rest
  induction text with
  | nil => rfl
  | cons c text ih =>
    obtain ⟨noQuote, noBackslash, noComma⟩ := plain c List.mem_cons_self
    rw [List.cons_append, takeSegment_cons noQuote noBackslash (.inl noComma),
      ih fun later isLater => plain later (List.mem_cons_of_mem _ isLater)]
    rfl

theorem sealed_of_all {test : Char → Bool} {text : Text} (all : text.all test = true)
    (plain : test '"' = false ∧ test '\\' = false ∧ test ',' = false) : Sealed text := by
  refine sealed_of_forall fun c isChar => ?_
  have passes := List.all_eq_true.1 all c isChar
  refine ⟨?_, ?_, ?_⟩
  · rintro rfl
    exact absurd passes (by simp [plain.1])
  · rintro rfl
    exact absurd passes (by simp [plain.2.1])
  · rintro rfl
    exact absurd passes (by simp [plain.2.2])

theorem takeSegment_quoted {raw : Text} (isRaw : isQuotedText raw = true) (rest : Text) :
    takeSegment true (raw ++ '"' :: rest) =
      (raw ++ '"' :: (takeSegment false rest).1, (takeSegment false rest).2) := by
  induction raw using isQuotedText.induct with
  | case1 => simp [takeSegment]
  | case2 escaped raw ih =>
    simp only [isQuotedText, Bool.and_eq_true] at isRaw
    simp [takeSegment, ih isRaw.2]
  | case3 c raw notEscape ih =>
    rw [isQuotedText.eq_3 _ _ notEscape] at isRaw
    simp only [isQdtext, Bool.and_eq_true, decide_eq_true_eq] at isRaw
    obtain ⟨⟨⟨-, noQuote⟩, noBackslash⟩, isRaw⟩ := isRaw
    rw [List.cons_append, takeSegment_cons noQuote noBackslash (.inr rfl), ih isRaw]
    rfl

theorem sealed_quoted (raw : QuotedText) : Sealed ('"' :: (raw.1 ++ ['"'])) := by
  intro rest
  rw [List.cons_append, List.append_assoc, List.singleton_append]
  simp [takeSegment, takeSegment_quoted raw.2]

/-! ## Parts as segments -/

/-- A text that is one segment, whatever surrounds it. -/
structure Element (text : Text) : Prop where
  solid : Solid text
  isSealed : Sealed text

theorem Element.around {front between back : Text} (elementFront : Element front)
    (sealedBetween : Sealed between) (elementBack : Element back) :
    Element (front ++ (between ++ back)) :=
  ⟨elementFront.solid.around elementBack.solid between,
    elementFront.isSealed.append (sealedBetween.append elementBack.isSealed)⟩

theorem element_of_all {test : Char → Bool} {text : Text} (nonempty : text ≠ [])
    (all : text.all test = true) (plain : test '"' = false ∧ test '\\' = false ∧ test ',' = false)
    (visible : ∀ c, test c = true → isWhitespace c = false) : Element text :=
  ⟨.of_forall nonempty fun c isChar => visible c (List.all_eq_true.1 all c isChar),
    sealed_of_all all plain⟩

theorem element_token (token : Token) : Element token.1 :=
  element_of_all token.2.1 token.2.2 (by decide) fun _ => isWhitespace_of_isTokenChar

theorem element_token68 (token68 : Token68) : Element token68.text := by
  have chars : ∀ c ∈ token68.text, (isToken68Char c || c = '=') = true := by
    intro c isChar
    rcases List.mem_append.1 isChar with inside | padding
    · simp [List.all_eq_true.1 token68.chars.2.2 c inside]
    · simp [List.eq_of_mem_replicate padding]
  refine element_of_all ?_ (List.all_eq_true.2 chars) (by decide) ?_
  · simp [Token68.text, token68.chars.2.1]
  · intro c isOne
    rcases Bool.or_eq_true_iff.1 isOne with inside | padding
    · exact isWhitespace_of_isToken68Char inside
    · rw [of_decide_eq_true padding]
      decide

theorem element_value (value : ParameterValue) : Element value.text := by
  cases value with
  | token value => exact element_token value
  | quoted raw =>
    refine ⟨⟨by simp [ParameterValue.text], ?_, ?_⟩, sealed_quoted raw⟩
    · simp [ParameterValue.text]
      decide
    · simp [ParameterValue.text, List.getLast?_cons]
      decide

theorem sealed_ows (ows : Ows) : Sealed ows.1 := sealed_of_all ows.2 (by decide)

theorem element_parameter (parameter : Parameter) : Element parameter.text := by
  have equals : Sealed ['='] := sealed_of_forall (by simp)
  have between := (sealed_ows parameter.beforeEquals).append (equals.append (sealed_ows parameter.afterEquals))
  have whole := (element_token parameter.name).around between (element_value parameter.value)
  simpa [Parameter.text] using whole

/-! ## One element -/

section

variable {name : Text}

theorem isWhitespace_of_isAsciiWhitespace {c : Char} (ascii : isAsciiWhitespace c = true) :
    isWhitespace c = true := by
  simp only [isAsciiWhitespace, Bool.or_eq_true, decide_eq_true_eq] at ascii
  rcases ascii with (((rfl | rfl) | rfl) | rfl) | rfl <;> decide

variable {token : Token}

theorem isAsciiWhitespace_token {c : Char} (isChar : c ∈ token.1) :
    (!isAsciiWhitespace c) = true := by
  have visible := isWhitespace_of_isTokenChar (List.all_eq_true.1 token.2.2 c isChar)
  cases ascii : isAsciiWhitespace c with
  | false => rfl
  | true =>
    rw [isWhitespace_of_isAsciiWhitespace ascii] at visible
    cases visible

theorem equals_not_mem_token (token : Token) : '=' ∉ token.1 := fun isChar =>
  absurd (List.all_eq_true.1 token.2.2 '=' isChar) (by decide)

theorem challengeSegment_bare (token : Token) : challengeSegment token.1 = some (token.1, []) := by
  have word : token.1.takeWhile (fun c => !isAsciiWhitespace c) = token.1 :=
    List.takeWhile_eq_self_iff.2 fun c isChar => isAsciiWhitespace_token isChar
  have after : token.1.dropWhile (fun c => !isAsciiWhitespace c) = [] :=
    List.dropWhile_eq_nil_iff.2 fun c isChar => isAsciiWhitespace_token isChar
  simp only [challengeSegment, Text.trim_solid (element_token token).solid, word, after]
  simp [equals_not_mem_token token]

/-- A word with whitespace after it is a scheme. -/
theorem challengeSegment_body {blank body : Text} (nonempty : blank ≠ [])
    (isBlank : blank.all isOws = true)
    (solid : Solid body) :
    challengeSegment (token.1 ++ (blank ++ body)) = some (token.1, body) := by
  obtain ⟨space, blanks, rfl⟩ := List.exists_cons_of_ne_nil nonempty
  have blankChars : ∀ c ∈ space :: blanks, isWhitespace c = true := fun c isChar =>
    isWhitespace_of_isOws (List.all_eq_true.1 isBlank c isChar)
  have stops : (!isAsciiWhitespace space) = false := by
    have ows := List.all_eq_true.1 isBlank space List.mem_cons_self
    simp only [isOws, Bool.or_eq_true, decide_eq_true_eq] at ows
    rcases ows with rfl | rfl <;> rfl
  have word : (token.1 ++ (space :: blanks ++ body)).takeWhile (fun c => !isAsciiWhitespace c) =
      token.1 := by
    rw [List.takeWhile_append_of_pos fun c isChar => isAsciiWhitespace_token isChar]
    simp [stops]
  have after : (token.1 ++ (space :: blanks ++ body)).dropWhile (fun c => !isAsciiWhitespace c) =
      space :: blanks ++ body := by
    rw [List.dropWhile_append_of_pos fun c isChar => isAsciiWhitespace_token isChar]
    simp [stops]
  have trimmed := Text.trim_solid ((element_token token).solid.around solid (space :: blanks))
  simp only [challengeSegment, trimmed, word, after]
  rw [if_neg (by simp [equals_not_mem_token token]), List.dropWhile_append_of_pos blankChars,
    dropWhile_of_head solid.first]

/-- A word with an equals sign in it is not. -/
theorem challengeSegment_equals {tail : Text} (solid : Solid (token.1 ++ '=' :: tail)) :
    challengeSegment (token.1 ++ '=' :: tail) = none := by
  simp only [challengeSegment, Text.trim_solid solid]
  rw [List.takeWhile_append_of_pos fun c isChar => isAsciiWhitespace_token isChar]
  simp [isAsciiWhitespace]

theorem unquoted_eq_none {value : Text} (noQuote : '"' ∉ value) : unquoted value = none := by
  rw [unquoted, Option.bind_eq_none_iff]
  intro opened isOpened
  rw [dropPrefix?_eq_some.1 isOpened] at noQuote
  exact absurd List.mem_cons_self noQuote

theorem unquoted_quoted (raw : Text) : unquoted ('"' :: (raw ++ ['"'])) = some raw := by
  rw [unquoted, dropPrefix?_eq_some.2 (List.singleton_append).symm, Option.bind_some,
    List.dropSuffix?_eq_some_iff]
  exact ⟨['"'], rfl, by simp⟩

theorem challengeParameter_token68 (token68 : Token68) : challengeParameter token68.text name = none := by
  have trimmed := Text.trim_solid (element_token68 token68).solid
  have absent : '=' ∉ token68.chars.1 := fun isChar =>
    absurd (List.all_eq_true.1 token68.chars.2.2 '=' isChar) (by decide)
  cases padded : token68.padding with
  | zero =>
    have split : Text.splitOnce '=' token68.text = none := by
      simp only [Token68.text, padded, List.replicate_zero, List.append_nil]
      exact Text.splitOnce_eq_none absent
    simp [challengeParameter, trimmed, split]
  | succ padding =>
    have split : Text.splitOnce '=' token68.text =
        some (token68.chars.1, List.replicate padding '=') := by
      simp only [Token68.text, padded, List.replicate_succ]
      exact Text.splitOnce_append absent
    have noQuote : '"' ∉ Text.trim (List.replicate padding '=') := fun isChar =>
      absurd (List.eq_of_mem_replicate (Text.mem_of_mem_trim isChar)) (by decide)
    simp [challengeParameter, trimmed, split, unquoted_eq_none noQuote]

theorem unquoted_value (value : ParameterValue) :
    unquoted value.text = match value with
      | .token _ => none
      | .quoted raw => some raw.1 := by
  cases value with
  | token value =>
    exact unquoted_eq_none fun isChar =>
      absurd (List.all_eq_true.1 value.2.2 '"' isChar) (by decide)
  | quoted raw => exact unquoted_quoted raw.1

theorem isWhitespace_ows (ows : Ows) : ∀ c ∈ ows.1, isWhitespace c = true := fun c isChar =>
  isWhitespace_of_isOws (List.all_eq_true.1 ows.2 c isChar)

theorem challengeParameter_parameter (parameter : Parameter) :
    challengeParameter parameter.text name = parameter.found name := by
  have absent : '=' ∉ parameter.name.1 ++ parameter.beforeEquals.1 := by
    intro isChar
    rcases List.mem_append.1 isChar with inName | inOws
    · exact equals_not_mem_token _ inName
    · exact absurd (List.all_eq_true.1 parameter.beforeEquals.2 '=' inOws) (by decide)
  have split : Text.splitOnce '=' parameter.text =
      some (parameter.name.1 ++ parameter.beforeEquals.1, parameter.afterEquals.1 ++ parameter.value.text) := by
    rw [Parameter.text, ← List.append_assoc]
    exact Text.splitOnce_append absent
  have key : Text.trim ([] ++ (parameter.name.1 ++ parameter.beforeEquals.1)) = parameter.name.1 :=
    Text.trim_around (element_token _).solid (by simp) (isWhitespace_ows _)
  have value : Text.trim (parameter.afterEquals.1 ++ parameter.value.text) = parameter.value.text := by
    have trimmed : Text.trim (parameter.afterEquals.1 ++ (parameter.value.text ++ [])) =
        parameter.value.text :=
      Text.trim_around (element_value _).solid (isWhitespace_ows _) (by simp)
    simpa using trimmed
  rw [List.nil_append] at key
  simp only [challengeParameter, Text.trim_solid (element_parameter parameter).solid, split, key, value,
    unquoted_value]
  rfl

/-- What follows the equals sign alone has no name. -/
theorem challengeParameter_equals (nonempty : name ≠ []) {tail : Text} (solid : Solid ('=' :: tail)) :
    challengeParameter ('=' :: tail) name = none := by
  have split : Text.splitOnce '=' ('=' :: tail) = some ([], tail) := if_pos rfl
  have unnamed : eqIgnoreAsciiCase (Text.trim []) name = false := by
    obtain ⟨c, name, rfl⟩ := List.exists_cons_of_ne_nil nonempty
    rfl
  simp [challengeParameter, Text.trim_solid solid, split, unnamed]

end

end Rustee.McpOAuth
