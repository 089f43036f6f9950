/-
# Rustee.McpOAuth.ChallengeReading -- the parameters of Bearer challenges

What `bearer_parameter` makes of a well-formed value.  `Reads` says what reading a part of it does,
wherever it stands, and parts are put together with `Reads.seq`.  A parameter in an element of its
own with whitespace before its equals sign is read as a scheme of that name (`Count.parameter`).

So a parameter can be read under another scheme than its own.  `Place.isRight` says when it is not,
by what stands before it in its challenge; and where no parameter of the name is misread before the
answer is known, the answer is that of the Bearer challenges (`bearer_parameter_attributed`).
-/
import Rustee.McpOAuth.Challenge

namespace Rustee.McpOAuth

open Rustee.Foundation

set_option autoImplicit false

/-! ## Attribution -/

def isBearer (scheme : Token) : Bool := eqIgnoreAsciiCase scheme.1 "bearer".toList

/-- What has been read of a list: whether the last scheme was Bearer, and the values for it. -/
structure Count where
  bearer : Bool
  values : List Text

namespace Count

def add (count : Count) (value : Option Text) : Count :=
  if count.bearer then { count with values := count.values ++ value.toList } else count

/-- A parameter in an element of its own.  Its name is taken for a scheme if whitespace follows it. -/
def parameter (name : Text) (count : Count) (parameter : Parameter) : Count :=
  if parameter.beforeEquals.1 = [] then count.add (parameter.found name)
  else ⟨isBearer parameter.name, count.values⟩

def challenge (name : Text) (count : Count) : Challenge → Count
  | .bare scheme | .credentials scheme .. => ⟨isBearer scheme, count.values⟩
  | .parameters scheme _ none ⟨[], last⟩ => Count.add ⟨isBearer scheme, count.values⟩ (last.found name)
  | .parameters scheme _ none ⟨first :: init, last⟩ =>
    (Joined.elements ⟨init, last⟩).foldl (Count.parameter name)
      (Count.add ⟨isBearer scheme, count.values⟩ (first.1.found name))
  | .parameters scheme _ (some _) list =>
    list.elements.foldl (Count.parameter name) ⟨isBearer scheme, count.values⟩

end Count

namespace Header

/-- The values that are attributed to Bearer challenges. -/
def counted (header : Header) (name : Text) : List Text :=
  (header.challenges.foldl (Count.challenge name) ⟨false, []⟩).values

/-- The values of the Bearer challenges. -/
def own (header : Header) (name : Text) : List Text :=
  header.challenges.flatMap fun challenge =>
    if isBearer challenge.scheme then (challenge.params.filter (·.named name)).map (·.raw) else []

end Header

/-- None, the only one, or an error. -/
def single : List Text → Except ChallengeError (Option Text)
  | [] => .ok none
  | [value] => .ok (some value)
  | _ :: _ :: _ => .error .invalidChallenge

theorem single_of_two_le {values : List Text} (several : 2 ≤ values.length) :
    single values = .error .invalidChallenge := by
  rcases values with - | ⟨value, - | ⟨second, values⟩⟩
  · cases several
  · exact absurd several (by simp)
  · rfl

/-! ## Reading -/

section

variable {name : Text} {scan : Scan}

theorem header_nil : scan.header name [] = .ok scan.found := by
  rw [Scan.header]
  rfl

variable {text rest filler : Text}

theorem header_eq (nonempty : text ≠ []) :
    scan.header name text = (do
      let scan ← scan.segment name (takeSegment false text).1
      scan.header name (takeSegment false text).2) := by
  have isNext : nextChallengeSegment text = some (takeSegment false text) := if_neg nonempty
  rw [Scan.header]
  split
  · rename_i noNext
    rw [isNext] at noNext
    cases noNext
  · rename_i segment rest same
    rw [isNext] at same
    rw [Option.some.inj same]

theorem segment_blank (blank : text.all isOws = true) : scan.segment name text = .ok scan := by
  have trimmed : Text.trim text = [] :=
    Text.trim_blank fun c isChar => isWhitespace_of_isOws (List.all_eq_true.1 blank c isChar)
  simp [Scan.segment, trimmed]

theorem segment_around {before after : Text} (blankBefore : before.all isOws = true) (solid : Solid text)
    (blankAfter : after.all isOws = true) :
    scan.segment name (before ++ (text ++ after)) = scan.segment name text := by
  have trimmed : Text.trim (before ++ (text ++ after)) = text :=
    Text.trim_around solid (fun c isChar => isWhitespace_of_isOws (List.all_eq_true.1 blankBefore c isChar))
      fun c isChar => isWhitespace_of_isOws (List.all_eq_true.1 blankAfter c isChar)
  simp only [Scan.segment, trimmed, Text.trim_solid solid]

/-- A list element that is empty is skipped. -/
theorem header_comma {blank : Text} (isBlank : blank.all isOws = true) :
    scan.header name (blank ++ ',' :: rest) = scan.header name rest := by
  rw [header_eq (by simp), sealed_of_all isBlank (by decide)]
  simp only [takeSegment, Char.reduceEq, if_false, and_self, if_true, List.append_nil]
  rw [segment_blank isBlank]
  rfl

/-- A filler is skipped, down to the whitespace after its last comma. -/
theorem header_filler (isFiller : filler.all isFiller = true)
    {result : Except ChallengeError (Option Text)}
    (blank : ∀ blank : Text, blank.all isOws = true → scan.header name (blank ++ rest) = result) :
    scan.header name (filler ++ rest) = result := by
  -- The whitespace read so far is carried along until a comma ends it.
  suffices general : ∀ before : Text, before.all isOws = true →
      scan.header name (before ++ (filler ++ rest)) = result from general [] rfl
  induction filler with
  | nil => exact blank
  | cons c filler ih =>
    intro before isBefore
    rw [List.all_cons, Bool.and_eq_true] at isFiller
    rcases Bool.or_eq_true_iff.1 isFiller.1 with ows | comma
    · have grown : (before ++ [c]).all isOws = true := by simp [isBefore, ows]
      simpa using ih isFiller.2 (before ++ [c]) grown
    · rw [of_decide_eq_true comma, List.cons_append, header_comma isBefore]
      exact ih isFiller.2 [] rfl

/-- What a filler leaves of itself when a segment ends at its first comma. -/
def afterComma (filler : Text) : Text := (filler.dropWhile (· ≠ ',')).tail

theorem takeSegment_filler (isFiller : filler.all isFiller = true) (ends : ',' ∈ filler ∨ rest = []) :
    takeSegment false (filler ++ rest) = (filler.takeWhile (· ≠ ','), afterComma filler ++ rest) := by
  induction filler with
  | nil =>
    obtain rfl : rest = [] := ends.resolve_left (by simp)
    rfl
  | cons c filler ih =>
    rw [List.all_cons, Bool.and_eq_true] at isFiller
    rcases Bool.or_eq_true_iff.1 isFiller.1 with ows | comma
    · have noComma : c ≠ ',' := by
        rintro rfl
        exact absurd ows (by decide)
      have noQuote : c ≠ '"' := by
        rintro rfl
        exact absurd ows (by decide)
      have noBackslash : c ≠ '\\' := by
        rintro rfl
        exact absurd ows (by decide)
      have endsLater : ',' ∈ filler ∨ rest = [] := by simpa [noComma.symm] using ends
      rw [List.cons_append, takeSegment_cons noQuote noBackslash (.inl noComma), ih isFiller.2 endsLater]
      simp [afterComma, noComma]
    · obtain rfl := of_decide_eq_true comma
      simp [takeSegment, afterComma]

theorem isOws_takeWhile (isFiller : filler.all isFiller = true) :
    (filler.takeWhile (· ≠ ',')).all isOws = true := by
  refine List.all_eq_true.2 fun c isChar => ?_
  have noComma : c ≠ ',' := by simpa using List.mem_takeWhile_imp isChar
  have inFiller := List.all_eq_true.1 isFiller c (List.takeWhile_subset _ isChar)
  simpa [Foundation.isFiller, noComma] using inFiller

theorem isFiller_afterComma (isFiller : filler.all isFiller = true) :
    (afterComma filler).all Foundation.isFiller = true :=
  List.all_eq_true.2 fun c isChar =>
    List.all_eq_true.1 isFiller c ((List.dropWhile_suffix _).subset (List.mem_of_mem_tail isChar))

end

/-- The locals after what has been read, unless there was a second value. -/
def Scan.of (count : Count) : Except ChallengeError Scan :=
  (single count.values).map fun found => ⟨count.bearer, found⟩

theorem Scan.of_read (count : Count) (bearer : Bool) (value : Option Text) :
    (Scan.of count >>= fun scan => Scan.read ⟨bearer, scan.found⟩ value) =
      Scan.of (Count.add ⟨bearer, count.values⟩ value) := by
  rcases count with ⟨last, - | ⟨first, - | ⟨second, values⟩⟩⟩ <;> cases bearer <;> cases value <;> rfl

theorem Scan.of_bearer (count : Count) (next : Scan → Except ChallengeError Scan) :
    Scan.of count >>= next = Scan.of count >>= fun scan => next ⟨count.bearer, scan.found⟩ := by
  rcases count with ⟨last, - | ⟨first, - | ⟨second, values⟩⟩⟩ <;> rfl

section

variable {name : Text}

/-- Reading the text, wherever it stands in the list, changes what has been read in this way. -/
def Reads (name text : Text) (counts : Count → Count) : Prop :=
  ∀ (count : Count) {before after rest : Text}, before.all isFiller = true →
    after.all isFiller = true → (',' ∈ after ∨ rest = []) →
    (Scan.of count >>= fun scan => scan.header name (before ++ (text ++ (after ++ rest)))) =
      Scan.of (counts count) >>= fun scan => scan.header name (afterComma after ++ rest)

theorem Element.reads {text : Text} (element : Element text) {counts : Count → Count}
    (reads : ∀ count, (Scan.of count >>= fun scan => scan.segment name text) = Scan.of (counts count)) :
    Reads name text counts := by
  intro count before after rest isBefore isAfter ends
  rw [← reads count, bind_assoc]
  refine bind_congr fun scan => header_filler isBefore fun blank isBlank => ?_
  have segment : takeSegment false (blank ++ (text ++ (after ++ rest))) =
      (blank ++ (text ++ after.takeWhile (· ≠ ',')), afterComma after ++ rest) := by
    rw [sealed_of_all isBlank (by decide), element.isSealed, takeSegment_filler isAfter ends]
  have nonempty : blank ++ (text ++ (after ++ rest)) ≠ [] := by simp [element.solid.nonempty]
  rw [header_eq nonempty, segment, segment_around isBlank element.solid (isOws_takeWhile isAfter)]

/-- Two parts of a list, one after the other. -/
theorem Reads.seq {first second : Text} {counts countsNext : Count → Count}
    (readsFirst : Reads name first counts) {separator : Text}
    (isSeparator : separator.all isFiller = true)
    (comma : ',' ∈ separator) (readsSecond : Reads name second countsNext) :
    Reads name (first ++ (separator ++ second)) (countsNext ∘ counts) := by
  intro count before after rest isBefore isAfter ends
  have assoc : before ++ (first ++ (separator ++ second) ++ (after ++ rest)) =
      before ++ (first ++ (separator ++ (second ++ (after ++ rest)))) := by simp
  rw [assoc, readsFirst count isBefore isSeparator (.inl comma),
    readsSecond _ (isFiller_afterComma isSeparator) isAfter ends]
  rfl

theorem Reads.joined {α : Type} {render : α → Text} {counts : Count → α → Count}
    (reads : ∀ element, Reads name (render element) (counts · element)) (list : Joined α) :
    Reads name (list.text render) (list.elements.foldl counts) := by
  obtain ⟨init, last⟩ := list
  induction init with
  | nil => exact reads last
  | cons first init ih =>
    have both := (reads first.1).seq first.2.2.1 first.2.2.2 ih
    simpa [Joined.text, Joined.elements, Function.comp_def] using both

end

/-! ## Reading a header -/

section

variable {name : Text}

@[simp] theorem Count.add_none (count : Count) : count.add none = count := by
  simp [Count.add]

theorem reads_bare (scheme : Token) :
    Reads name scheme.1 fun count => ⟨isBearer scheme, count.values⟩ := by
  have solid := (element_token scheme).solid
  refine (element_token scheme).reads fun count => ?_
  rw [← Count.add_none ⟨isBearer scheme, count.values⟩, ← Scan.of_read]
  refine bind_congr fun scan => ?_
  simp only [Scan.segment, Text.trim_solid solid, solid.nonempty, if_false, challengeSegment_bare]
  rfl

theorem reads_body (name : Text) (scheme : Token) {blank body : Text} (nonempty : blank ≠ [])
    (isBlank : blank.all isOws = true) (element : Element body) :
    Reads name (scheme.1 ++ (blank ++ body)) fun count =>
      Count.add ⟨isBearer scheme, count.values⟩ (challengeParameter body name) := by
  have whole := (element_token scheme).around (sealed_of_all isBlank (by decide)) element
  refine whole.reads fun count => ?_
  rw [← Scan.of_read]
  refine bind_congr fun scan => ?_
  simp only [Scan.segment, Text.trim_solid whole.solid, whole.solid.nonempty, if_false,
    challengeSegment_body nonempty isBlank element.solid]
  rfl

theorem reads_parameter (named : name ≠ []) (parameter : Parameter) :
    Reads name parameter.text (Count.parameter name · parameter) := by
  have whole := element_parameter parameter
  by_cases tight : parameter.beforeEquals.1 = []
  · refine whole.reads fun count => ?_
    have notScheme : challengeSegment parameter.text = none := by
      simp only [Parameter.text, tight, List.nil_append]
      refine challengeSegment_equals ?_
      simpa only [Parameter.text, tight, List.nil_append] using whole.solid
    rw [Count.parameter, if_pos tight, Scan.of_bearer]
    refine Eq.trans (bind_congr fun scan => ?_) (Scan.of_read count count.bearer _)
    simp only [Scan.segment, Text.trim_solid whole.solid, whole.solid.nonempty, if_false, notScheme,
      challengeParameter_parameter]
  · -- The name is a word with whitespace after it, and the rest has no name.
    have visible : isWhitespace '=' = false := by decide
    have equals : Element ['='] := ⟨.of_forall (by simp) (by simpa using visible), sealed_of_forall (by simp)⟩
    have body := equals.around (sealed_ows parameter.afterEquals) (element_value parameter.value)
    have unnamed : challengeParameter ('=' :: (parameter.afterEquals.1 ++ parameter.value.text)) name = none :=
      challengeParameter_equals named body.solid
    have reads := reads_body name parameter.name tight parameter.beforeEquals.2 body
    rw [List.singleton_append, unnamed] at reads
    simpa only [Parameter.text, Count.parameter, tight, if_false, Count.add_none] using reads

theorem reads_challenge (named : name ≠ []) (challenge : Challenge) :
    Reads name challenge.text (Count.challenge name · challenge) := by
  have spaced (spaces : Spaces) : spaces.1.all isOws = true :=
    List.all_eq_true.2 fun c isChar => by
      rw [of_decide_eq_true (List.all_eq_true.1 spaces.2.2 c isChar)]
      rfl
  cases challenge with
  | bare scheme => exact reads_bare scheme
  | credentials scheme spaces token68 =>
    have reads := reads_body name scheme spaces.2.1 (spaced spaces) (element_token68 token68)
    simp only [challengeParameter_token68, Count.add_none] at reads
    exact reads
  | parameters scheme spaces leading list =>
    cases leading with
    | none =>
      obtain ⟨- | ⟨first, init⟩, last⟩ := list
      · have reads := reads_body name scheme spaces.2.1 (spaced spaces) (element_parameter last)
        rw [challengeParameter_parameter] at reads
        exact reads
      · have readsFirst :=
          reads_body name scheme spaces.2.1 (spaced spaces) (element_parameter first.1)
        rw [challengeParameter_parameter] at readsFirst
        have reads := readsFirst.seq first.2.2.1 first.2.2.2
          (Reads.joined (reads_parameter named) ⟨init, last⟩)
        have text : (Challenge.parameters scheme spaces none ⟨first :: init, last⟩).text =
            scheme.1 ++ (spaces.1 ++ first.1.text) ++
              (first.2.1 ++ Joined.text Parameter.text ⟨init, last⟩) := by
          simp [Challenge.text, Joined.text]
        rw [text]
        exact reads
    | some separator =>
      have filler : (spaces.1 ++ separator.1).all isFiller = true := by
        rw [List.all_append, separator.2.1, Bool.and_true]
        refine List.all_eq_true.2 fun c isChar => ?_
        rw [isFiller, List.all_eq_true.1 (spaced spaces) c isChar, Bool.true_or]
      have reads := (reads_bare scheme).seq filler (List.mem_append_right _ separator.2.2)
        (Reads.joined (reads_parameter named) list)
      rw [List.append_assoc] at reads
      exact reads

theorem header_end (count : Count) {filler : Text} (isFiller : filler.all isFiller = true) :
    (Scan.of count >>= fun scan => scan.header name filler) = single count.values := by
  have skipped (scan : Scan) : scan.header name (filler ++ []) = .ok scan.found := by
    refine header_filler isFiller fun blank isBlank => ?_
    rw [List.append_nil]
    by_cases nonempty : blank = []
    · rw [nonempty, header_nil]
    · have segment := sealed_of_all isBlank (by decide) []
      rw [List.append_nil] at segment
      rw [header_eq nonempty, segment]
      simp only [takeSegment, List.append_nil]
      rw [segment_blank isBlank]
      exact header_nil
  simp only [List.append_nil] at skipped
  simp only [skipped]
  rcases count with ⟨last, - | ⟨first, - | ⟨second, values⟩⟩⟩ <;> rfl

/-- What is found is what is counted. -/
theorem bearerParameter_text (named : name ≠ []) (header : Header) :
    bearerParameter header.text name = single (header.counted name) := by
  obtain ⟨leading, list, trailing⟩ := header
  have start : bearerParameter (Header.text ⟨leading, list, trailing⟩) name =
      Scan.of ⟨false, []⟩ >>= fun scan => scan.header name (Header.text ⟨leading, list, trailing⟩) := rfl
  rw [start]
  cases list with
  | none =>
    refine header_end _ ?_
    simp [Header.text, leading.2, trailing.2]
  | some list =>
    have reads := Reads.joined (reads_challenge named) list ⟨false, []⟩ leading.2 trailing.2 (.inr rfl)
    rw [List.append_nil, List.append_nil] at reads
    exact reads.trans (header_end _ (isFiller_afterComma trailing.2))

end

/-! ## Where the reader is right -/

/-- Every parameter of the name has a quoted string as its value. -/
def Quoted (name : Text) (parameters : List Parameter) : Prop :=
  ∀ parameter ∈ parameters, parameter.named name = true → parameter.value.isQuoted = true

/-- There is whitespace before the equals sign. -/
def Parameter.isLoose (parameter : Parameter) : Bool := decide (parameter.beforeEquals.1 ≠ [])

/-- A parameter where it stands. -/
structure Place where
  /-- The scheme of its challenge. -/
  scheme : Token
  /-- The parameters before it in its challenge that stand in elements of their own. -/
  earlier : List Parameter
  /-- It stands in an element of its own too. -/
  separate : Bool
  parameter : Parameter

namespace Place

def isOwn (place : Place) : Bool := isBearer place.scheme

/-- It counts if and only if its scheme is Bearer.  A parameter in an element of its own with
whitespace before the equals sign never counts: its name is taken for a scheme, and the parameters
after it go by that name. -/
def isRight (place : Place) : Bool :=
  if place.separate && place.parameter.isLoose then !place.isOwn
  else (place.earlier.filter Parameter.isLoose).getLast?.all fun last =>
    isBearer last.name == place.isOwn

end Place

def placesFrom (scheme : Token) (earlier : List Parameter) : List Parameter → List Place
  | [] => []
  | parameter :: rest =>
    ⟨scheme, earlier, true, parameter⟩ :: placesFrom scheme (earlier ++ [parameter]) rest

def Challenge.places : Challenge → List Place
  | .bare _ | .credentials .. => []
  | .parameters scheme _ none ⟨[], last⟩ => [⟨scheme, [], false, last⟩]
  | .parameters scheme _ none ⟨first :: init, last⟩ =>
    ⟨scheme, [], false, first.1⟩ :: placesFrom scheme [] (Joined.elements ⟨init, last⟩)
  | .parameters scheme _ (some _) list => placesFrom scheme [] list.elements

/-- The parameters of the name, where they stand. -/
def Header.places (header : Header) (name : Text) : List Place :=
  (header.challenges.flatMap Challenge.places).filter (·.parameter.named name)

/-- Every parameter of the name that has fewer than two of Bearer challenges before it is read under
its own scheme. -/
def Header.Attributed (header : Header) (name : Text) : Prop :=
  ∀ before place after, header.places name = before ++ place :: after →
    (before.filter Place.isOwn).length < 2 → place.isRight = true

section

variable {name : Text}

/-- The values that are read under Bearer: the rightly read ones of Bearer challenges, and the
others of other challenges. -/
def valuesUnder (name : Text) (places : List Place) : List Text :=
  (places.filter fun place => place.parameter.named name && (place.isOwn == place.isRight)).map
    (·.parameter.raw)

theorem valuesUnder_append (places others : List Place) :
    valuesUnder name (places ++ others) = valuesUnder name places ++ valuesUnder name others := by
  simp [valuesUnder]

theorem valuesUnder_cons (place : Place) (places : List Place) :
    valuesUnder name (place :: places) = valuesUnder name [place] ++ valuesUnder name places :=
  valuesUnder_append [place] places

/-- Whether Bearer is in force after these parameters in elements of their own. -/
def inForce (scheme : Token) (parameters : List Parameter) : Bool :=
  (parameters.filter Parameter.isLoose).getLast?.elim (isBearer scheme) fun last => isBearer last.name

theorem Count.add_found (count : Count) {parameter : Parameter} (quoted : Quoted name [parameter]) :
    count.add (parameter.found name) = ⟨count.bearer, count.values ++
      if parameter.named name && count.bearer then [parameter.raw] else []⟩ := by
  obtain ⟨bearer, values⟩ := count
  cases bearer with
  | false => simp [Count.add]
  | true =>
    by_cases named : parameter.named name = true
    · have isQuoted := quoted parameter List.mem_cons_self named
      cases isValue : parameter.value with
      | token value =>
        rw [isValue] at isQuoted
        cases isQuoted
      | quoted raw => simp [Count.add, Parameter.found, Parameter.raw, named, isValue]
    · simp [Count.add, Parameter.found, named]

/-- One parameter in an element of its own. -/
theorem Count.parameter_eq {scheme : Token} {earlier : List Parameter} {count : Count}
    (force : count.bearer = inForce scheme earlier) {parameter : Parameter}
    (quoted : Quoted name [parameter]) :
    count.parameter name parameter = ⟨inForce scheme (earlier ++ [parameter]),
      count.values ++ valuesUnder name [⟨scheme, earlier, true, parameter⟩]⟩ := by
  cases loose : parameter.isLoose with
  | true =>
    have spaced : parameter.beforeEquals.1 ≠ [] := of_decide_eq_true loose
    have unread : valuesUnder name [⟨scheme, earlier, true, parameter⟩] = [] := by
      simp [valuesUnder, Place.isRight, loose]
    rw [Count.parameter, if_neg spaced, unread, List.append_nil]
    simp [inForce, loose]
  | false =>
    have tight : parameter.beforeEquals.1 = [] := not_not.1 (of_decide_eq_false loose)
    have still : inForce scheme (earlier ++ [parameter]) = inForce scheme earlier := by
      simp [inForce, loose]
    have counts : (isBearer scheme ==
        (earlier.filter Parameter.isLoose).getLast?.all fun last => isBearer last.name == isBearer scheme) =
          inForce scheme earlier := by
      unfold inForce
      cases (earlier.filter Parameter.isLoose).getLast? with
      | none => simp
      | some last =>
        rw [Option.all_some, Option.elim_some]
        cases isBearer last.name <;> cases isBearer scheme <;> rfl
    have under : valuesUnder name [⟨scheme, earlier, true, parameter⟩] =
        if parameter.named name && inForce scheme earlier then [parameter.raw] else [] := by
      rw [← counts]
      simp only [valuesUnder, Place.isRight, Place.isOwn, loose, Bool.and_false, Bool.false_eq_true,
        if_false, List.filter_cons, List.filter_nil]
      split <;> rfl
    rw [Count.parameter, if_pos tight, Count.add_found count quoted, still, under, force]

theorem foldl_parameter {scheme : Token} {parameters : List Parameter}
    (quoted : Quoted name parameters) {earlier : List Parameter} {count : Count}
    (force : count.bearer = inForce scheme earlier) :
    (parameters.foldl (Count.parameter name) count).values =
      count.values ++ valuesUnder name (placesFrom scheme earlier parameters) := by
  induction parameters generalizing earlier count with
  | nil => simp [placesFrom, valuesUnder]
  | cons parameter rest ih =>
    have first : Quoted name [parameter] := fun other isOther => quoted other (by simp_all)
    have others : Quoted name rest := fun other isOther => quoted other (List.mem_cons_of_mem _ isOther)
    rw [List.foldl_cons, Count.parameter_eq force first, ih others rfl, List.append_assoc,
      ← valuesUnder_cons, placesFrom]

/-- A parameter in the element of its scheme. -/
theorem add_first {scheme : Token} {parameter : Parameter} (quoted : Quoted name [parameter])
    (values : List Text) :
    Count.add ⟨isBearer scheme, values⟩ (parameter.found name) =
      ⟨isBearer scheme, values ++ valuesUnder name [⟨scheme, [], false, parameter⟩]⟩ := by
  rw [Count.add_found _ quoted]
  cases isBearer? : isBearer scheme <;> cases named : parameter.named name <;>
    simp [valuesUnder, Place.isRight, Place.isOwn, isBearer?, named]

theorem Count.challenge_values {challenge : Challenge} (quoted : Quoted name challenge.params)
    (count : Count) :
    (count.challenge name challenge).values = count.values ++ valuesUnder name challenge.places := by
  cases challenge with
  | bare scheme => simp [Count.challenge, Challenge.places, valuesUnder]
  | credentials scheme spaces token68 => simp [Count.challenge, Challenge.places, valuesUnder]
  | parameters scheme spaces leading list =>
    cases leading with
    | none =>
      obtain ⟨- | ⟨first, init⟩, last⟩ := list
      · rw [Count.challenge, add_first quoted]
        rfl
      · have quotedFirst : Quoted name [first.1] := fun other isOther =>
          quoted other (by simp_all [Challenge.params, Joined.elements])
        have quotedRest : Quoted name (Joined.elements ⟨init, last⟩) := fun other isOther =>
          quoted other (List.mem_cons_of_mem _ isOther)
        have inOrder (values : List Text) : ((Joined.elements ⟨init, last⟩).foldl
            (Count.parameter name) ⟨isBearer scheme, values⟩).values =
              values ++ valuesUnder name (placesFrom scheme [] (Joined.elements ⟨init, last⟩)) :=
          foldl_parameter quotedRest rfl
        rw [Count.challenge, add_first quotedFirst, inOrder, List.append_assoc, ← valuesUnder_cons,
          Challenge.places]
    | some separator => exact foldl_parameter quoted rfl

theorem counted_eq {header : Header}
    (quoted : ∀ challenge ∈ header.challenges, Quoted name challenge.params) :
    header.counted name = valuesUnder name (header.challenges.flatMap Challenge.places) := by
  suffices general : ∀ (challenges : List Challenge) (count : Count),
      (∀ challenge ∈ challenges, Quoted name challenge.params) →
      (challenges.foldl (Count.challenge name) count).values =
        count.values ++ valuesUnder name (challenges.flatMap Challenge.places) from
    general header.challenges ⟨false, []⟩ quoted
  intro challenges
  induction challenges with
  | nil => simp [valuesUnder]
  | cons challenge challenges ih =>
    intro count quoted
    rw [List.foldl_cons, ih _ (fun other isOther => quoted other (List.mem_cons_of_mem _ isOther)),
      Count.challenge_values (quoted challenge List.mem_cons_self), List.flatMap_cons,
      valuesUnder_append, List.append_assoc]

theorem own_placesFrom (scheme : Token) (earlier parameters : List Parameter) :
    ((placesFrom scheme earlier parameters).filter fun place =>
      place.parameter.named name && place.isOwn).map (·.parameter.raw) =
      if isBearer scheme then (parameters.filter (·.named name)).map (·.raw) else [] := by
  induction parameters generalizing earlier with
  | nil => simp [placesFrom]
  | cons parameter rest ih =>
    have later := ih (earlier ++ [parameter])
    cases isBearer? : isBearer scheme <;> cases named : parameter.named name <;>
      simp_all [placesFrom, Place.isOwn]

theorem own_places (challenge : Challenge) :
    (challenge.places.filter fun place => place.parameter.named name && place.isOwn).map
        (·.parameter.raw) =
      if isBearer challenge.scheme then (challenge.params.filter (·.named name)).map (·.raw)
      else [] := by
  cases challenge with
  | bare scheme => simp [Challenge.places, Challenge.params]
  | credentials scheme spaces token68 => simp [Challenge.places, Challenge.params]
  | parameters scheme spaces leading list =>
    cases leading with
    | none =>
      obtain ⟨- | ⟨first, init⟩, last⟩ := list
      · cases isBearer? : isBearer scheme <;> cases named : last.named name <;>
          simp [Challenge.places, Challenge.params, Challenge.scheme, Joined.elements, Place.isOwn,
            isBearer?, named]
      · have rest := @own_placesFrom name scheme [] (Joined.elements ⟨init, last⟩)
        cases isBearer? : isBearer scheme <;> cases named : first.1.named name <;>
          simp_all [Challenge.places, Challenge.params, Challenge.scheme, Joined.elements, Place.isOwn]
    | some separator => exact own_placesFrom scheme [] list.elements

theorem own_eq (header : Header) :
    header.own name = ((header.places name).filter Place.isOwn).map (·.parameter.raw) := by
  have each (challenges : List Challenge) :
      (((challenges.flatMap Challenge.places).filter (·.parameter.named name)).filter
        Place.isOwn).map (·.parameter.raw) = challenges.flatMap fun challenge =>
          if isBearer challenge.scheme then (challenge.params.filter (·.named name)).map (·.raw)
          else [] := by
    induction challenges with
    | nil => rfl
    | cons challenge rest ih =>
      rw [List.flatMap_cons, List.flatMap_cons, List.filter_append, List.filter_append,
        List.map_append, ih, ← own_places, List.filter_filter]
      simp only [Bool.and_comm]
  exact (each header.challenges).symm

/-- Of places that are read rightly until two values are known, the values under Bearer and those
of Bearer challenges give one answer. -/
theorem single_under (seen : List Text) (places : List Place)
    (right : ∀ before place after, places = before ++ place :: after →
      seen.length + (before.filter Place.isOwn).length < 2 → place.isRight = true) :
    single (seen ++ (places.filter fun place => place.isOwn == place.isRight).map (·.parameter.raw)) =
      single (seen ++ (places.filter Place.isOwn).map (·.parameter.raw)) := by
  induction places generalizing seen with
  | nil => rfl
  | cons place rest ih =>
    by_cases several : 2 ≤ seen.length
    · rw [single_of_two_le, single_of_two_le] <;> rw [List.length_append] <;> omega
    · have isRight := right [] place rest rfl (by simpa using several)
      cases isOwn : place.isOwn with
      | false =>
        have later := ih seen fun before other after split few =>
          right (place :: before) other after (by rw [split]; rfl) (by simpa [isOwn] using few)
        simpa [isOwn, isRight] using later
      | true =>
        have later := ih (seen ++ [place.parameter.raw]) fun before other after split few =>
          right (place :: before) other after (by rw [split]; rfl) (by
            simp only [List.length_append, List.length_singleton] at few
            simp only [List.filter_cons, isOwn, if_true, List.length_cons]
            omega)
        simpa [isOwn, isRight] using later

end

def resourceMetadata : Text := "resource_metadata".toList

namespace Header

/-- **The parameter of the Bearer challenges** is what the reader answers, where no parameter of the
name is misread before two are known.  For a value with one such parameter at most, this is also
necessary. -/
theorem bearer_parameter_attributed (header : Header)
    (quoted : ∀ challenge ∈ header.challenges, Quoted resourceMetadata challenge.params) :
    (header.Attributed resourceMetadata →
      bearerParameter header.text resourceMetadata = single (header.own resourceMetadata)) ∧
    ((header.places resourceMetadata).length ≤ 1 →
      bearerParameter header.text resourceMetadata = single (header.own resourceMetadata) →
        header.Attributed resourceMetadata) := by
  have answer : bearerParameter header.text resourceMetadata =
      single (((header.places resourceMetadata).filter fun place =>
        place.isOwn == place.isRight).map (·.parameter.raw)) := by
    rw [bearerParameter_text (by decide), counted_eq quoted, places, List.filter_filter]
    simp only [valuesUnder, Bool.and_comm]
  rw [answer, own_eq]
  constructor
  · intro attributed
    refine single_under [] _ fun before place after split few => ?_
    exact attributed before place after split (by simpa using few)
  · intro atMost same before place after split few
    rw [split] at atMost same
    rw [List.length_append, List.length_cons] at atMost
    obtain rfl : before = [] := List.length_eq_zero_iff.1 (by omega)
    obtain rfl : after = [] := List.length_eq_zero_iff.1 (by omega)
    cases isOwn : place.isOwn <;> cases isRight : place.isRight <;>
      simp [isOwn, isRight, single] at same ⊢

def comma : Separator := ⟨", ".toList, by decide⟩

def space : Spaces := ⟨" ".toList, by decide⟩

/-- A Bearer challenge with a realm and then a URL, with this before the second equals sign. -/
def realmThenUrl (beforeEquals : Ows) : Header where
  leading := ⟨[], rfl⟩
  list := some ⟨[(.credentials ⟨"Negotiate".toList, by decide⟩ space ⟨⟨"a0".toList, by decide⟩, 2⟩, comma)],
    .parameters ⟨"Bearer".toList, by decide⟩ space none
      ⟨[(⟨⟨"realm".toList, by decide⟩, ⟨[], rfl⟩, ⟨[], rfl⟩, .quoted ⟨"a, b".toList, by decide⟩⟩, comma)],
        ⟨⟨"resource_metadata".toList, by decide⟩, beforeEquals, ⟨[], rfl⟩,
          .quoted ⟨"https://r.example/m".toList, by decide⟩⟩⟩⟩
  trailing := ⟨[], rfl⟩

theorem quoted_realmThenUrl (beforeEquals : Ows) :
    ∀ challenge ∈ (realmThenUrl beforeEquals).challenges, Quoted resourceMetadata challenge.params := by
  simp [Quoted, realmThenUrl, challenges, Joined.elements, Challenge.params, ParameterValue.isQuoted]

theorem attributed_realmThenUrl : (realmThenUrl ⟨[], rfl⟩).Attributed resourceMetadata := by
  have right : ((realmThenUrl ⟨[], rfl⟩).places resourceMetadata).all Place.isRight = true := by
    decide +kernel
  intro before place after split _
  refine List.all_eq_true.1 right place ?_
  rw [split]
  exact List.mem_append_right _ List.mem_cons_self

/-- Without the whitespace, the URL is found. -/
theorem bearer_parameter_url :
    bearerParameter (realmThenUrl ⟨[], rfl⟩).text resourceMetadata =
      .ok (some "https://r.example/m".toList) := by
  have right := bearer_parameter_attributed (realmThenUrl ⟨[], rfl⟩) (quoted_realmThenUrl _)
  exact (right.1 attributed_realmThenUrl).trans (by decide +kernel)

/-- With it, nothing is. -/
theorem url_not_found :
    (realmThenUrl ⟨[' '], rfl⟩).text =
        "Negotiate a0==, Bearer realm=\"a, b\", resource_metadata =\"https://r.example/m\"".toList ∧
      (∀ challenge ∈ (realmThenUrl ⟨[' '], rfl⟩).challenges, Quoted resourceMetadata challenge.params) ∧
      bearerParameter (realmThenUrl ⟨[' '], rfl⟩).text resourceMetadata = .ok none ∧
      single ((realmThenUrl ⟨[' '], rfl⟩).own resourceMetadata) =
        .ok (some "https://r.example/m".toList) :=
  ⟨by decide +kernel, quoted_realmThenUrl _, by decide +kernel, by decide +kernel⟩

end Header

end Rustee.McpOAuth
