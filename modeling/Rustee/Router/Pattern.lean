/-
# Rustee.Router.Pattern -- route templates, what they match, and nest prefixes

`rustee-router/src/pattern.rs`.  A template is parsed into segments, each literal text or a
named parameter; a path matches when its own segments agree with them one by one.  A nest
prefix is a template of literal segments that is kept as text, because it is stripped from a
path as text.

`RoutePattern.parse_eq_ok` says what an accepted template is, and `strip_matches` that
stripping a prefix and matching the rest is matching with the prefix's segments in front.
`RoutePattern.is_equivalent_iff_same_paths` is about the test that refuses a second route for the
paths of a first one: it compares two templates segment by segment, and two templates that differ
in one segment are told apart by a path that fits every other segment of one of them.
-/
import Rustee.Foundation.Chars
import Rustee.Foundation.SlashPath
import Mathlib.Data.List.Infix

namespace Rustee.Router

open Rustee.Foundation

set_option autoImplicit false

structure RouteError where
  message : String
  deriving DecidableEq, Repr

inductive Segment where
  | static (text : Text)
  | parameter (name : Text)
  deriving DecidableEq, Repr

def Segment.text : Segment → Text
  | .static text => text
  | .parameter name => name

def Segment.isStatic : Segment → Bool
  | .static _ => true
  | .parameter _ => false

def Segment.parameterName : Segment → Option Text
  | .static _ => none
  | .parameter name => some name

structure RoutePattern where
  segments : List Segment
  staticSegments : Nat
  deriving DecidableEq, Repr

abbrev RouteParams := List (Text × Text)

/-- `path.trim_matches('/').split('/').filter(..)`. -/
def segmentsOf (path : Text) : List Text :=
  ((Text.trimMatches (fun c => c = '/') path).splitOn '/').filter fun segment => !segment.isEmpty

theorem segmentsOf_eq (path : Text) : segmentsOf path = segments '/' path := by
  have trimmed : segmentsOf path = segments '/' (Text.trimMatches (fun c => c = '/') path) := rfl
  rw [trimmed, Text.trimMatches, segments_reverse_dropWhile, segments_dropWhile]

/-! ## Parsing -/

namespace RoutePattern

/-- The locals of the loop of `parse`. -/
structure Parsing where
  names : List Text
  segments : List Segment
  staticSegments : Nat

def isNameChar (c : Char) : Bool := c.isAlphanum || c = '_'

def readSegment (parsing : Parsing) (segment : Text) : Except RouteError Parsing :=
  match segment with
  | ':' :: name =>
    if name.isEmpty || !name.all isNameChar then
      .error ⟨"route parameter names must contain only ASCII letters, digits, or underscores"⟩
    else if name ∈ parsing.names then .error ⟨"route parameter names must be unique"⟩
    else .ok { parsing with names := name :: parsing.names
                            segments := parsing.segments ++ [.parameter name] }
  | _ => .ok { parsing with segments := parsing.segments ++ [.static segment]
                            staticSegments := parsing.staticSegments + 1 }

def parse (path : Text) : Except RouteError RoutePattern :=
  if path.head? ≠ some '/' then .error ⟨"route paths must start with '/'"⟩
  else if '?' ∈ path ∨ '#' ∈ path then
    .error ⟨"route paths cannot contain a query string or fragment"⟩
  else if ['/', '/'] <:+: path then
    .error ⟨"route paths cannot contain repeated '/' separators"⟩
  else
    match (segmentsOf path).foldlM readSegment ⟨[], [], 0⟩ with
    | .error error => .error error
    | .ok parsing => .ok ⟨parsing.segments, parsing.staticSegments⟩

/-! ## What is accepted -/

/-- The name behind the colon of a parameter. -/
def paramName : Text → Option Text
  | ':' :: name => some name
  | _ => none

def classify (segment : Text) : Segment :=
  match paramName segment with
  | some name => .parameter name
  | none => .static segment

def isValidName (name : Text) : Bool := !(name.isEmpty || !name.all isNameChar)

variable {parsing : Parsing} {path : Text} {pattern : RoutePattern} {kinds : List Segment}
  {incoming : List Text} {params : RouteParams}

theorem readSegment_parameter {result : Parsing} {segment name : Text}
    (isName : paramName segment = some name) :
    readSegment parsing segment = .ok result ↔ isValidName name = true ∧ name ∉ parsing.names ∧
      result = ⟨name :: parsing.names, parsing.segments ++ [.parameter name],
        parsing.staticSegments⟩ := by
  unfold paramName at isName
  split at isName
  · cases isName
    simp only [readSegment, isValidName]
    cases valid : name.isEmpty || !name.all isNameChar with
    | true => simp
    | false =>
      by_cases used : name ∈ parsing.names
      · simp [used]
      · simp [used, eq_comm]
  · cases isName

theorem readSegment_static {segment : Text} (isStatic : paramName segment = none) :
    readSegment parsing segment = .ok ⟨parsing.names, parsing.segments ++ [.static segment],
      parsing.staticSegments + 1⟩ := by
  unfold paramName at isStatic
  split at isStatic
  · cases isStatic
  · rename_i noColon
    unfold readSegment
    split
    · exact absurd rfl (noColon _)
    · rfl

/-- The loop accepts segments whose parameters have valid names, all different. -/
theorem foldlM_readSegment {pieces : List Text} {result : Parsing} :
    pieces.foldlM readSegment parsing = .ok result ↔
      (∀ name ∈ pieces.filterMap paramName, isValidName name = true ∧ name ∉ parsing.names) ∧
      (pieces.filterMap paramName).Nodup ∧
      result = ⟨(pieces.filterMap paramName).reverse ++ parsing.names,
        parsing.segments ++ pieces.map classify,
        parsing.staticSegments + (pieces.map classify).countP Segment.isStatic⟩ := by
  induction pieces generalizing parsing with
  | nil =>
    constructor
    · intro ok
      cases ok
      simp
    · rintro ⟨-, -, rfl⟩
      simp [pure, Except.pure]
  | cons piece rest ih =>
    rw [List.foldlM_cons, bind_eq_ok]
    cases isName : paramName piece with
    | none =>
      have kind : classify piece = .static piece := by simp [classify, isName]
      have isStatic : (Segment.static piece).isStatic = true := rfl
      rw [readSegment_static isName]
      simp only [Except.ok.injEq, exists_eq_left', ih, List.filterMap_cons, isName,
        List.map_cons, kind, List.countP_cons_of_pos isStatic, List.append_assoc,
        List.singleton_append, Nat.add_right_comm, Nat.add_assoc]
    | some name =>
      have kind : classify piece = .parameter name := by simp [classify, isName]
      have notStatic : ¬(Segment.parameter name).isStatic = true := by simp [Segment.isStatic]
      simp only [readSegment_parameter isName, ih, List.filterMap_cons, isName,
        List.map_cons, kind, List.countP_cons_of_neg notStatic, List.reverse_cons,
        List.append_assoc, List.singleton_append, List.forall_mem_cons, List.nodup_cons]
      constructor
      · rintro ⟨_, ⟨valid, fresh, rfl⟩, others, nodup, rfl⟩
        refine ⟨⟨⟨valid, fresh⟩, ?_⟩, ⟨?_, nodup⟩, by simp⟩
        · intro other member
          have facts := others other member
          exact ⟨facts.1, fun used => facts.2 (List.mem_cons_of_mem name used)⟩
        · intro again
          exact (others name again).2 List.mem_cons_self
      · rintro ⟨⟨⟨valid, fresh⟩, others⟩, ⟨once, nodup⟩, rfl⟩
        refine ⟨_, ⟨valid, fresh, rfl⟩, ?_, nodup, by simp⟩
        intro other member
        refine ⟨(others other member).1, ?_⟩
        rw [List.mem_cons, not_or]
        exact ⟨fun same => once (same ▸ member), (others other member).2⟩

/-- **What an accepted template is.** -/
theorem parse_eq_ok :
    parse path = .ok pattern ↔ path.head? = some '/' ∧ '?' ∉ path ∧ '#' ∉ path ∧
      ¬Repeats '/' path ∧
      (∀ name ∈ (segmentsOf path).filterMap paramName, isValidName name = true) ∧
      ((segmentsOf path).filterMap paramName).Nodup ∧
      pattern = ⟨(segmentsOf path).map classify,
        ((segmentsOf path).map classify).countP Segment.isStatic⟩ := by
  unfold parse Repeats
  by_cases absolute : path.head? = some '/'
  · by_cases marked : '?' ∈ path ∨ '#' ∈ path
    · simp only [absolute, ne_eq, not_true_eq_false, if_false, marked, if_true, reduceCtorEq,
        false_iff, true_and]
      rintro ⟨noQuery, noFragment, -⟩
      exact marked.elim noQuery noFragment
    · obtain ⟨noQuery, noFragment⟩ := not_or.1 marked
      by_cases repeated : ['/', '/'] <:+: path
      · simp [absolute, noQuery, noFragment, repeated]
      · simp only [absolute, ne_eq, not_true_eq_false, if_false, noQuery, noFragment, repeated,
          or_self, not_false_eq_true, true_and]
        constructor
        · intro ok
          split at ok
          · cases ok
          · rename_i parsing folded
            obtain ⟨names, nodup, rfl⟩ := foldlM_readSegment.1 folded
            cases ok
            exact ⟨fun name member => (names name member).1, nodup, by simp⟩
        · rintro ⟨names, nodup, rfl⟩
          have fresh : ∀ name ∈ (segmentsOf path).filterMap paramName,
              isValidName name = true ∧ name ∉ (⟨[], [], 0⟩ : Parsing).names :=
            fun name member => ⟨names name member, List.not_mem_nil⟩
          rw [foldlM_readSegment.2 ⟨fresh, nodup, rfl⟩]
          simp
  · simp [absolute]

/-- The names of the parameters, in order. -/
def parameterNames (kinds : List Segment) : List Text := kinds.filterMap Segment.parameterName

theorem parameterNames_classify (pieces : List Text) :
    parameterNames (pieces.map classify) = pieces.filterMap paramName := by
  rw [parameterNames, List.filterMap_map]
  refine List.filterMap_congr fun piece _ => ?_
  simp only [Function.comp_apply, classify]
  cases paramName piece with
  | none => rfl
  | some name => rfl

theorem nodup_parameterNames (isPattern : parse path = .ok pattern) :
    (parameterNames pattern.segments).Nodup := by
  obtain ⟨-, -, -, -, -, nodup, rfl⟩ := parse_eq_ok.1 isPattern
  rwa [parameterNames_classify]

/-! ## Matching -/

/-- The loop of `matches`, with what is left of the path. -/
def matchSegments : List Segment → List Text → RouteParams → Option RouteParams
  | [], [], params => some params
  | [], _ :: _, _ => none
  | _ :: _, [], _ => none
  | .static expected :: rest, incoming :: more, params =>
    if expected = incoming then matchSegments rest more params else none
  | .parameter name :: rest, incoming :: more, params =>
    matchSegments rest more (params ++ [(name, incoming)])

/-- `matches`; the word is reserved. -/
def matches_ (self : RoutePattern) (path : Text) : Option RouteParams :=
  if ['/', '/'] <:+: path then none else matchSegments self.segments (segmentsOf path) []

/-- Literal segments in front take as many segments of the path. -/
theorem matchSegments_static {pieces : List Text} {result : RouteParams} :
    matchSegments (pieces.map .static ++ kinds) incoming params = some result ↔
      ∃ more, incoming = pieces ++ more ∧ matchSegments kinds more params = some result := by
  induction pieces generalizing incoming with
  | nil => simp
  | cons piece rest ih =>
    cases incoming with
    | nil => simp [matchSegments]
    | cons first others =>
      rw [List.map_cons, List.cons_append, matchSegments]
      by_cases same : piece = first
      · subst same
        simp [ih]
      · simp [same, Ne.symm same]

theorem matches_eq_some :
    pattern.matches_ path = some params ↔ ¬Repeats '/' path ∧
      matchSegments pattern.segments (Foundation.segments '/' path) [] = some params := by
  rw [matches_, ← segmentsOf_eq]
  by_cases repeated : ['/', '/'] <:+: path
  · simp [Repeats, repeated]
  · simp [Repeats, repeated]

def sameKind : Segment → Segment → Bool
  | .static left, .static right => left = right
  | .parameter _, .parameter _ => true
  | _, _ => false

def isEquivalentTo (self other : RoutePattern) : Bool :=
  self.segments.length = other.segments.length ∧
    (self.segments.zip other.segments).all fun pair => sameKind pair.1 pair.2

/-! ## Equivalence -/

/-- A segment of a template accepts a segment of a path. -/
def Accepts : Segment → Text → Prop
  | .static expected, incoming => expected = incoming
  | .parameter _, _ => True

theorem matchSegments_isSome :
    (matchSegments kinds incoming params).isSome = true ↔ List.Forall₂ Accepts kinds incoming := by
  induction kinds generalizing incoming params with
  | nil => cases incoming <;> simp [matchSegments]
  | cons kind rest ih =>
    cases incoming with
    | nil => simp [matchSegments]
    | cons first more =>
      rw [List.forall₂_cons]
      cases kind with
      | static expected =>
        by_cases same : expected = first
        · simp [matchSegments, Accepts, same, ih]
        · simp [matchSegments, Accepts, same]
      | parameter name => simp [matchSegments, Accepts, ih]

theorem isEquivalentTo_iff {left right : RoutePattern} : left.isEquivalentTo right = true ↔
    List.Forall₂ (fun one other => sameKind one other = true) left.segments right.segments := by
  rw [List.forall₂_iff_zip, isEquivalentTo]
  simp only [decide_eq_true_eq, List.all_eq_true]
  exact and_congr Iff.rfl ⟨fun all one other member => all (one, other) member,
    fun all pair member => all member⟩

theorem accepts_of_sameKind {one other : Segment} {incoming : Text} (same : sameKind one other = true) :
    Accepts one incoming ↔ Accepts other incoming := by
  cases one with
  | static left =>
    cases other with
    | static right => rw [of_decide_eq_true same]
    | parameter name => cases same
  | parameter name =>
    cases other with
    | static right => cases same
    | parameter other => rfl

theorem forall₂_accepts_of_sameKind {left right : List Segment}
    (same : List.Forall₂ (fun one other => sameKind one other = true) left right) :
    List.Forall₂ Accepts left incoming ↔ List.Forall₂ Accepts right incoming := by
  induction same generalizing incoming with
  | nil => rfl
  | cons first rest ih =>
    cases incoming with
    | nil => simp
    | cons piece more => rw [List.forall₂_cons, List.forall₂_cons, accepts_of_sameKind first, ih]

/-- A segment of an accepted template; a literal one can stand in a path. -/
def IsTemplate : Segment → Prop
  | .static text => IsSegment '/' text
  | .parameter _ => True

theorem isTemplate_of_parse (accepted : parse path = .ok pattern) :
    ∀ kind ∈ pattern.segments, IsTemplate kind := by
  obtain ⟨-, -, -, -, -, -, rfl⟩ := parse_eq_ok.1 accepted
  intro kind member
  obtain ⟨piece, isPiece, rfl⟩ := List.mem_map.1 member
  rw [segmentsOf_eq] at isPiece
  unfold classify
  split
  · trivial
  · exact isSegment_of_mem_segments isPiece

theorem isSegment_letter : IsSegment '/' ['x'] := ⟨by simp, by simp⟩

/-- Some segment is accepted. -/
theorem exists_accepted {kind : Segment} (isTemplate : IsTemplate kind) :
    ∃ piece, IsSegment '/' piece ∧ Accepts kind piece := by
  cases kind with
  | static text => exact ⟨text, isTemplate, rfl⟩
  | parameter name => exact ⟨['x'], isSegment_letter, trivial⟩

theorem exists_all_accepted (areTemplates : ∀ kind ∈ kinds, IsTemplate kind) :
    ∃ pieces, (∀ piece ∈ pieces, IsSegment '/' piece) ∧ List.Forall₂ Accepts kinds pieces := by
  induction kinds with
  | nil => exact ⟨[], by simp, .nil⟩
  | cons kind rest ih =>
    obtain ⟨mine, others⟩ := List.forall_mem_cons.1 areTemplates
    obtain ⟨piece, isSegment, accepts⟩ := exists_accepted mine
    obtain ⟨pieces, areSegments, all⟩ := ih others
    exact ⟨piece :: pieces, List.forall_mem_cons.2 ⟨isSegment, areSegments⟩, .cons accepts all⟩

/-- Two segments that accept the same are of the same kind: a literal one accepts its own text only,
and a parameter also a longer one. -/
theorem sameKind_of_accepts {one other : Segment} (isOne : IsTemplate one) (isOther : IsTemplate other)
    (same : ∀ piece, IsSegment '/' piece → (Accepts one piece ↔ Accepts other piece)) :
    sameKind one other = true := by
  have longer {text : Text} (isSegment : IsSegment '/' text) : IsSegment '/' (text ++ ['x']) :=
    ⟨by simp, by simp [isSegment.unbroken]⟩
  cases one with
  | static left =>
    cases other with
    | static right => exact decide_eq_true ((same left isOne).1 rfl).symm
    | parameter name =>
      have absurd_ : left = left ++ ['x'] := (same _ (longer isOne)).2 trivial
      simp at absurd_
  | parameter name =>
    cases other with
    | static right =>
      have absurd_ : right = right ++ ['x'] := (same _ (longer isOther)).1 trivial
      simp at absurd_
    | parameter other => rfl

theorem sameKind_of_same_pieces {left right : List Segment} (areLeft : ∀ kind ∈ left, IsTemplate kind)
    (areRight : ∀ kind ∈ right, IsTemplate kind)
    (same : ∀ pieces, (∀ piece ∈ pieces, IsSegment '/' piece) →
      (List.Forall₂ Accepts left pieces ↔ List.Forall₂ Accepts right pieces)) :
    List.Forall₂ (fun one other => sameKind one other = true) left right := by
  induction left generalizing right with
  | nil =>
    cases (same [] (by simp)).1 .nil
    exact .nil
  | cons one rest ih =>
    cases right with
    | nil => cases (same [] (by simp)).2 .nil
    | cons other more =>
      obtain ⟨isOne, areRest⟩ := List.forall_mem_cons.1 areLeft
      obtain ⟨isOther, areMore⟩ := List.forall_mem_cons.1 areRight
      -- the tails are filled so that only the first segment can make a difference
      have accepts (piece : Text) (isSegment : IsSegment '/' piece) :
          Accepts one piece ↔ Accepts other piece := by
        constructor
        · intro accepted
          obtain ⟨pieces, areSegments, all⟩ := exists_all_accepted areRest
          have both := (same (piece :: pieces) (List.forall_mem_cons.2 ⟨isSegment, areSegments⟩)).1
            (.cons accepted all)
          exact (List.forall₂_cons.1 both).1
        · intro accepted
          obtain ⟨pieces, areSegments, all⟩ := exists_all_accepted areMore
          have both := (same (piece :: pieces) (List.forall_mem_cons.2 ⟨isSegment, areSegments⟩)).2
            (.cons accepted all)
          exact (List.forall₂_cons.1 both).1
      refine .cons (sameKind_of_accepts isOne isOther accepts) (ih areRest areMore ?_)
      intro pieces areSegments
      obtain ⟨piece, isSegment, accepted⟩ := exists_accepted isOne
      have both := same (piece :: pieces) (List.forall_mem_cons.2 ⟨isSegment, areSegments⟩)
      rw [List.forall₂_cons, List.forall₂_cons, ← accepts piece isSegment] at both
      simpa [accepted] using both

theorem matches_isSome : (pattern.matches_ path).isSome = true ↔
    ¬Repeats '/' path ∧ List.Forall₂ Accepts pattern.segments (Foundation.segments '/' path) := by
  rw [Option.isSome_iff_exists]
  simp only [matches_eq_some, exists_and_left]
  exact and_congr_right fun _ => by rw [← Option.isSome_iff_exists, matchSegments_isSome]

/-- **Equivalent templates match the same paths**, and only they do. -/
theorem is_equivalent_iff_same_paths {leftPath rightPath : Text} {left right : RoutePattern}
    (isLeft : parse leftPath = .ok left) (isRight : parse rightPath = .ok right) :
    left.isEquivalentTo right = true ↔
      ∀ path, (left.matches_ path).isSome = true ↔ (right.matches_ path).isSome = true := by
  rw [isEquivalentTo_iff]
  constructor
  · intro same path
    rw [matches_isSome, matches_isSome, forall₂_accepts_of_sameKind same]
  · intro same
    refine sameKind_of_same_pieces (isTemplate_of_parse isLeft) (isTemplate_of_parse isRight)
      fun pieces areSegments => ?_
    have once : ¬Repeats '/' (render '/' pieces) := by
      rw [← List.append_nil (render '/' pieces), repeats_render_append_iff areSegments]
      exact of_decide_eq_false rfl
    have onPath := same (render '/' pieces)
    rw [matches_isSome, matches_isSome, segments_render areSegments] at onPath
    simpa [once] using onPath

/-- The name of a parameter makes no difference. -/
theorem is_equivalent_iff_same_paths_users :
    ∃ left right, parse "/users/:id".toList = .ok left ∧ parse "/users/:name/".toList = .ok right ∧
      left ≠ right ∧
      ∀ path, (left.matches_ path).isSome = true ↔ (right.matches_ path).isSome = true := by
  have isLeft : parse "/users/:id".toList =
      .ok ⟨[.static "users".toList, .parameter "id".toList], 1⟩ := by decide +kernel
  have isRight : parse "/users/:name/".toList =
      .ok ⟨[.static "users".toList, .parameter "name".toList], 1⟩ := by decide +kernel
  exact ⟨_, _, isLeft, isRight, by decide +kernel,
    (is_equivalent_iff_same_paths isLeft isRight).1 (by decide +kernel)⟩

end RoutePattern

/-! ## Nest prefixes -/

structure NestedPrefix where
  value : Text
  segmentCount : Nat
  deriving DecidableEq, Repr

namespace NestedPrefix

def parse (path : Text) : Except RouteError NestedPrefix :=
  match RoutePattern.parse path with
  | .error error => .error error
  | .ok pattern =>
    if pattern.segments.isEmpty then
      .error ⟨"nest prefixes must contain at least one static path segment"⟩
    else if !pattern.segments.all Segment.isStatic then
      .error ⟨"nest prefixes cannot contain route parameters"⟩
    else .ok ⟨'/' :: ['/'].intercalate (pattern.segments.map Segment.text),
      pattern.segments.length⟩

def strip (self : NestedPrefix) (path : Text) : Option Text :=
  match path.dropPrefix? self.value with
  | none => none
  | some [] => some ['/']
  | some (first :: rest) => if first = '/' then some (first :: rest) else none

/-! ## Stripping and matching -/

/-- A segment that can stand in a nest prefix. -/
structure IsLiteral (piece : Text) : Prop where
  isSegment : IsSegment '/' piece
  noName : RoutePattern.paramName piece = none
  noQuery : '?' ∉ piece
  noFragment : '#' ∉ piece

variable {path : Text} {nested : NestedPrefix}

/-- **What an accepted nest prefix is**: its segments, written with one slash each. -/
theorem parse_ok (ok : parse path = .ok nested) :
    ∃ pieces : List Text, pieces ≠ [] ∧ (∀ piece ∈ pieces, IsLiteral piece) ∧
      nested = ⟨render '/' pieces, pieces.length⟩ := by
  unfold parse at ok
  split at ok
  · cases ok
  · rename_i pattern isPattern
    obtain ⟨-, noQuery, noFragment, -, -, -, rfl⟩ := RoutePattern.parse_eq_ok.1 isPattern
    split at ok
    · cases ok
    · rename_i nonempty
      split at ok
      · cases ok
      · rename_i static
        cases ok
        have literal : ∀ piece ∈ segmentsOf path, RoutePattern.paramName piece = none := by
          intro piece member
          simp only [Bool.not_eq_true, Bool.not_eq_false', List.all_map, List.all_eq_true,
            Function.comp_apply] at static
          have isStatic := static piece member
          cases isName : RoutePattern.paramName piece with
          | none => rfl
          | some name => simp [RoutePattern.classify, isName, Segment.isStatic] at isStatic
        have texts : ((segmentsOf path).map RoutePattern.classify).map Segment.text =
            segmentsOf path := by
          rw [List.map_map]
          refine (List.map_congr_left fun piece member => ?_).trans (List.map_id _)
          simp [RoutePattern.classify, literal piece member, Segment.text]
        have some_ : segmentsOf path ≠ [] := by simpa using nonempty
        refine ⟨segmentsOf path, some_, ?_, ?_⟩
        · intro piece member
          have inPath := segmentsOf_eq path ▸ member
          have letters {c : Char} (inside : c ∈ piece) : c ∈ path :=
            mem_of_mem_splitOn (List.mem_filter.1 inPath).1 inside
          exact ⟨isSegment_of_mem_segments inPath, literal piece member,
            fun inside => noQuery (letters inside), fun inside => noFragment (letters inside)⟩
        · rw [texts, cons_intercalate some_, List.length_map]

theorem strip_eq_some {remaining : Text} :
    nested.strip path = some remaining ↔ ∃ rest, path = nested.value ++ rest ∧
      Continues '/' rest ∧ remaining = if rest = [] then ['/'] else rest := by
  unfold strip
  constructor
  · intro stripped
    split at stripped
    · cases stripped
    · rename_i isRest
      cases stripped
      exact ⟨[], dropPrefix?_eq_some.1 isRest, .inl rfl, rfl⟩
    · rename_i first rest isRest
      split at stripped
      · rename_i slash
        cases stripped
        subst slash
        exact ⟨_, dropPrefix?_eq_some.1 isRest, .inr ⟨rest, rfl⟩, by simp⟩
      · cases stripped
  · rintro ⟨rest, isPath, rfl | ⟨more, rfl⟩, rfl⟩
    · rw [dropPrefix?_eq_some.2 isPath]
      rfl
    · rw [dropPrefix?_eq_some.2 isPath]
      simp

theorem strip_absolute {remaining : Text} (stripped : nested.strip path = some remaining) :
    remaining.head? = some '/' := by
  obtain ⟨rest, -, rfl | ⟨more, rfl⟩, rfl⟩ := strip_eq_some.1 stripped
  · rfl
  · rfl

/-- The slash that stands for an empty rest changes neither reading of it. -/
theorem matches_remaining {pattern : RoutePattern} {rest : Text} {params : RouteParams} :
    pattern.matches_ (if rest = [] then ['/'] else rest) = some params ↔
      ¬Repeats '/' rest ∧
        RoutePattern.matchSegments pattern.segments (segments '/' rest) [] = some params := by
  rw [RoutePattern.matches_eq_some]
  split
  · rename_i empty
    subst empty
    simp [Repeats, segments_cons, List.infix_cons_iff]
  · rfl

/-- A path without repeated slashes that starts with the segments starts with the prefix. -/
theorem exists_rest {pieces more : List Text} (absolute : path.head? = some '/')
    (once : ¬Repeats '/' path)
    (isSegments : segments '/' path = pieces ++ more) :
    ∃ rest, path = render '/' pieces ++ rest ∧ Continues '/' rest := by
  obtain ⟨text, rfl⟩ := List.head?_eq_some_iff.1 absolute
  rw [segments_cons] at isSegments
  rcases rendered_form once with form | form
  · rw [isSegments, render_append] at form
    have continues := continues_render_append more (.inl rfl : Continues '/' [])
    exact ⟨_, form, by simpa using continues⟩
  · rw [isSegments, render_append, List.append_assoc] at form
    exact ⟨_, form, continues_render_append more (.inr ⟨[], rfl⟩)⟩

/-- **Stripping a prefix and matching the rest** is matching with the prefix in front. -/
theorem strip_matches {pieces : List Text} (areSegments : ∀ piece ∈ pieces, IsSegment '/' piece)
    (count : Nat) (pattern : RoutePattern) (absolute : path.head? = some '/') {total : Nat}
    {params : RouteParams} :
    (∃ remaining, strip ⟨render '/' pieces, count⟩ path = some remaining ∧
        pattern.matches_ remaining = some params) ↔
      RoutePattern.matches_ ⟨pieces.map .static ++ pattern.segments, total⟩ path =
        some params := by
  rw [RoutePattern.matches_eq_some]
  simp only [RoutePattern.matchSegments_static]
  constructor
  · rintro ⟨remaining, stripped, matched⟩
    obtain ⟨rest, rfl, continues, rfl⟩ := strip_eq_some.1 stripped
    obtain ⟨once, matched⟩ := matches_remaining.1 matched
    refine ⟨?_, segments '/' rest, segments_render_append areSegments continues, matched⟩
    rwa [repeats_render_append_iff areSegments]
  · rintro ⟨once, more, isSegments, matched⟩
    obtain ⟨rest, rfl, continues⟩ := exists_rest absolute once isSegments
    refine ⟨_, strip_eq_some.2 ⟨rest, rfl, continues, rfl⟩, matches_remaining.2 ⟨?_, ?_⟩⟩
    · rwa [repeats_render_append_iff areSegments] at once
    · rw [segments_render_append areSegments continues] at isSegments
      rwa [List.append_cancel_left isSegments]

end NestedPrefix

end Rustee.Router
