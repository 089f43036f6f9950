/-
# Rustee.OpenApi.Route -- OpenAPI path templates of routes

`OpenApiRoute::from_rustee` of `rustee-openapi/src/model.rs` translates a route template into an
OpenAPI path.  It has its own copy of the router's parser: it refuses braces as well, keeps the
names as a set and writes every segment down at once.  `readPieces_eq` runs the two loops side by
side, each state of the one being the `Parsing.view` of the other's.

`from_rustee_agrees` compares the results.  The rendered path gives its segments back
(`segments_path`), and a segment in braces is no literal one because the template had no braces, so
two templates are rendered alike only when they parse alike.
-/
import Rustee.Router.Pattern
import Mathlib.Data.Finset.Dedup
import Mathlib.Data.Finset.Insert

namespace Rustee.OpenApi

open Rustee.Foundation
open Rustee.Router (Segment RoutePattern segmentsOf segmentsOf_eq)

set_option autoImplicit false

inductive OpenApiError where
  | invalidMetadata (field : String)
  | invalidIdentifier (field : String)
  | invalidRoute
  | missingPathParameter
  | extraneousPathParameter
  | duplicateOperation
  | duplicateOperationId
  | duplicateComponent
  | duplicateSecurityScheme
  | unknownSecurityScheme
  | securityScopesNotAllowed
  | unknownOAuthScope
  deriving DecidableEq, Repr

structure OpenApiRoute where
  path : Text
  parameters : Finset Text
  deriving DecidableEq

def validRouteParameter (parameter : Text) : Bool :=
  !parameter.isEmpty && parameter.all fun character => character.isAlphanum || character = '_'

namespace OpenApiRoute

/-- The locals of the loop of `from_rustee`. -/
structure Pieces where
  parameters : Finset Text
  segments : List Text

def readPiece (pieces : Pieces) (segment : Text) : Except OpenApiError Pieces :=
  match segment with
  | ':' :: parameter =>
    if !validRouteParameter parameter || parameter ∈ pieces.parameters then .error .invalidRoute
    else .ok ⟨insert parameter pieces.parameters, pieces.segments ++ ['{' :: parameter ++ ['}']]⟩
  | _ => .ok { pieces with segments := pieces.segments ++ [segment] }

def fromRustee (route : Text) : Except OpenApiError OpenApiRoute :=
  if route.head? ≠ some '/' ∨ ('?' ∈ route ∨ '#' ∈ route ∨ '{' ∈ route ∨ '}' ∈ route) ∨
      ['/', '/'] <:+: route then .error .invalidRoute
  else
    match (segmentsOf route).foldlM readPiece ⟨∅, []⟩ with
    | .error error => .error error
    | .ok pieces =>
      .ok ⟨if pieces.segments.isEmpty then ['/'] else '/' :: ['/'].intercalate pieces.segments,
        pieces.parameters⟩

/-! ## The two loops -/

/-- A segment as it is written in an OpenAPI path. -/
def template : Segment → Text
  | .static text => text
  | .parameter name => '{' :: name ++ ['}']

/-- What `from_rustee` has where the router's parser has `parsing`. -/
def view (parsing : RoutePattern.Parsing) : Pieces :=
  ⟨parsing.names.toFinset, parsing.segments.map template⟩

theorem validRouteParameter_eq (name : Text) :
    validRouteParameter name = !(name.isEmpty || !name.all RoutePattern.isNameChar) := by
  rw [Bool.not_or, Bool.not_not]
  rfl

theorem readPiece_view (parsing : RoutePattern.Parsing) (segment : Text) :
    (readPiece (view parsing) segment).toOption =
      (RoutePattern.readSegment parsing segment).toOption.map view := by
  by_cases colon : ∃ name, segment = ':' :: name
  · obtain ⟨name, rfl⟩ := colon
    simp only [readPiece, RoutePattern.readSegment, validRouteParameter_eq]
    cases name.isEmpty || !name.all RoutePattern.isNameChar with
    | true => rfl
    | false =>
      by_cases used : name ∈ parsing.names
      · simp [view, used, Except.toOption]
      · simp [view, used, Except.toOption, template]
  · have static : readPiece (view parsing) segment =
        .ok { view parsing with segments := (view parsing).segments ++ [segment] } := by
      unfold readPiece
      split
      · exact absurd ⟨_, rfl⟩ colon
      · rfl
    have noName : RoutePattern.paramName segment = none := by
      unfold RoutePattern.paramName
      split
      · exact absurd ⟨_, rfl⟩ colon
      · rfl
    rw [static, RoutePattern.readSegment_static noName]
    simp [view, Except.toOption, template]

theorem readPieces_view (pieces : List Text) (parsing : RoutePattern.Parsing) :
    (pieces.foldlM readPiece (view parsing)).toOption =
      (pieces.foldlM RoutePattern.readSegment parsing).toOption.map view := by
  induction pieces generalizing parsing with
  | nil => rfl
  | cons piece rest ih =>
    have step := readPiece_view parsing piece
    rw [List.foldlM_cons, List.foldlM_cons]
    cases read : RoutePattern.readSegment parsing piece with
    | error error =>
      rw [read] at step
      cases mine : readPiece (view parsing) piece with
      | error error => rfl
      | ok next => simp [mine, Except.toOption] at step
    | ok next =>
      rw [read] at step
      cases mine : readPiece (view parsing) piece with
      | error error => simp [mine, Except.toOption] at step
      | ok pieces =>
        simp only [mine, Except.toOption, Option.map_some, Option.some.injEq] at step
        subst step
        exact ih next

/-! ## What is accepted -/

def pathOf (segments : List Segment) : Text :=
  if (segments.map template).isEmpty then ['/'] else '/' :: ['/'].intercalate (segments.map template)

def parametersOf (segments : List Segment) : Finset Text :=
  (RoutePattern.parameterNames segments).toFinset

theorem mem_parametersOf {segments : List Segment} {name : Text} :
    name ∈ parametersOf segments ↔ Segment.parameter name ∈ segments := by
  rw [parametersOf, List.mem_toFinset, RoutePattern.parameterNames, List.mem_filterMap]
  constructor
  · rintro ⟨segment, member, isName⟩
    cases segment with
    | static text => cases isName
    | parameter other =>
      cases isName
      exact member
  · exact fun member => ⟨_, member, rfl⟩

/-- The loop of `from_rustee`, in terms of the router's. -/
theorem readPieces_eq_ok {pieces : List Text} {result : Pieces} :
    pieces.foldlM readPiece ⟨∅, []⟩ = .ok result ↔
      ∃ parsing, pieces.foldlM RoutePattern.readSegment ⟨[], [], 0⟩ = .ok parsing ∧
        view parsing = result := by
  have both : (pieces.foldlM readPiece ⟨∅, []⟩).toOption =
      (pieces.foldlM RoutePattern.readSegment ⟨[], [], 0⟩).toOption.map view :=
    readPieces_view pieces ⟨[], [], 0⟩
  generalize pieces.foldlM readPiece ⟨∅, []⟩ = mine at both ⊢
  generalize pieces.foldlM RoutePattern.readSegment ⟨[], [], 0⟩ = theirs at both ⊢
  cases mine <;> cases theirs <;> simp_all [Except.toOption]

/-- **What `from_rustee` accepts**, and what it makes of it. -/
theorem fromRustee_eq_ok {text : Text} {route : OpenApiRoute} : fromRustee text = .ok route ↔
    '{' ∉ text ∧ '}' ∉ text ∧ ∃ pattern, RoutePattern.parse text = .ok pattern ∧
      route = ⟨pathOf pattern.segments, parametersOf pattern.segments⟩ := by
  have unfolded : fromRustee text = .ok route ↔ (text.head? = some '/' ∧ '?' ∉ text ∧ '#' ∉ text ∧
      '{' ∉ text ∧ '}' ∉ text ∧ ¬Repeats '/' text) ∧
      ∃ parsing, (segmentsOf text).foldlM RoutePattern.readSegment ⟨[], [], 0⟩ = .ok parsing ∧
        route = ⟨pathOf parsing.segments, parsing.names.toFinset⟩ := by
    unfold fromRustee
    split
    · rename_i refused
      simp only [reduceCtorEq, false_iff]
      rintro ⟨⟨absolute, noQuery, noFragment, noOpen, noClose, once⟩, -⟩
      rcases refused with refused | refused | refused
      · exact refused absolute
      · simp_all
      · exact once refused
    · rename_i accepted
      simp only [not_or, not_not] at accepted
      obtain ⟨absolute, ⟨noQuery, noFragment, noOpen, noClose⟩, once⟩ := accepted
      have facts : text.head? = some '/' ∧ '?' ∉ text ∧ '#' ∉ text ∧ '{' ∉ text ∧ '}' ∉ text ∧
          ¬Repeats '/' text := ⟨absolute, noQuery, noFragment, noOpen, noClose, once⟩
      cases folded : (segmentsOf text).foldlM readPiece ⟨∅, []⟩ with
      | error error =>
        simp only [reduceCtorEq, false_iff, not_and, not_exists]
        intro _ parsing isParsing _
        rw [readPieces_eq_ok.2 ⟨parsing, isParsing, rfl⟩] at folded
        cases folded
      | ok pieces =>
        obtain ⟨parsing, isParsing, rfl⟩ := readPieces_eq_ok.1 folded
        simp only [isParsing, Except.ok.injEq, exists_eq_left']
        exact eq_comm.trans (and_iff_right facts).symm
  rw [unfolded]
  constructor
  · rintro ⟨⟨absolute, noQuery, noFragment, noOpen, noClose, once⟩, parsing, folded, rfl⟩
    obtain ⟨names, nodup, rfl⟩ := RoutePattern.foldlM_readSegment.1 folded
    refine ⟨noOpen, noClose, _, RoutePattern.parse_eq_ok.2 ⟨absolute, noQuery, noFragment, once,
      fun name member => (names name member).1, nodup, rfl⟩, ?_⟩
    rw [parametersOf, RoutePattern.parameterNames_classify]
    simp
  · rintro ⟨noOpen, noClose, pattern, isPattern, rfl⟩
    obtain ⟨absolute, noQuery, noFragment, once, names, nodup, rfl⟩ :=
      RoutePattern.parse_eq_ok.1 isPattern
    refine ⟨⟨absolute, noQuery, noFragment, noOpen, noClose, once⟩, _,
      RoutePattern.foldlM_readSegment.2 ⟨fun name member => ⟨names name member, by simp⟩, nodup, rfl⟩, ?_⟩
    rw [parametersOf, RoutePattern.parameterNames_classify]
    simp

/-! ## The rendered path -/

/-- A segment that `from_rustee` lets pass. -/
def IsPlain : Segment → Prop
  | .static text => IsSegment '/' text ∧ '{' ∉ text
  | .parameter name => '/' ∉ name

theorem isPlain_of_parse {text : Text} {pattern : RoutePattern} (noOpen : '{' ∉ text)
    (isPattern : RoutePattern.parse text = .ok pattern) :
    ∀ segment ∈ pattern.segments, IsPlain segment := by
  obtain ⟨-, -, -, -, -, -, rfl⟩ := RoutePattern.parse_eq_ok.1 isPattern
  intro segment member
  obtain ⟨piece, isPiece, rfl⟩ := List.mem_map.1 member
  rw [segmentsOf_eq] at isPiece
  have isSegment := isSegment_of_mem_segments isPiece
  cases isName : RoutePattern.paramName piece with
  | none =>
    have inText : ∀ c ∈ piece, c ∈ text := fun c => mem_of_mem_splitOn (List.mem_filter.1 isPiece).1
    simpa [RoutePattern.classify, isName, IsPlain, isSegment] using fun inside => noOpen (inText _ inside)
  | some name =>
    unfold RoutePattern.paramName at isName
    split at isName
    · cases isName
      have unbroken := isSegment.unbroken
      simp only [List.mem_cons, not_or] at unbroken
      exact unbroken.2
    · cases isName

theorem isSegment_template {segment : Segment} (isPlain : IsPlain segment) :
    IsSegment '/' (template segment) := by
  cases segment with
  | static text => exact isPlain.1
  | parameter name =>
    have unbroken : '/' ∉ name := isPlain
    exact ⟨by simp [template], by simp [template, unbroken]⟩

theorem template_inj {one other : Segment} (isOne : IsPlain one) (isOther : IsPlain other)
    (same : template one = template other) : one = other := by
  cases one with
  | static left =>
    cases other with
    | static right => exact congrArg Segment.static same
    | parameter name =>
      refine absurd ?_ isOne.2
      rw [show left = '{' :: name ++ ['}'] from same]
      simp
  | parameter name =>
    cases other with
    | static right =>
      refine absurd ?_ isOther.2
      rw [← show '{' :: name ++ ['}'] = right from same]
      simp
    | parameter other =>
      have inner : name ++ ['}'] = other ++ ['}'] := (List.cons.inj same).2
      rw [List.append_cancel_right inner]

/-- **The path gives its segments back.** -/
theorem segments_pathOf {kinds : List Segment} (arePlain : ∀ segment ∈ kinds, IsPlain segment) :
    segments '/' (pathOf kinds) = kinds.map template := by
  unfold pathOf
  split
  · rename_i empty
    rw [List.isEmpty_iff.1 empty]
    simp
  · rename_i some_
    rw [cons_intercalate (by simpa using some_)]
    refine segments_render fun piece member => ?_
    obtain ⟨segment, isSegment, rfl⟩ := List.mem_map.1 member
    exact isSegment_template (arePlain segment isSegment)

theorem pathOf_inj {left right : List Segment} (areLeft : ∀ segment ∈ left, IsPlain segment)
    (areRight : ∀ segment ∈ right, IsPlain segment) (same : pathOf left = pathOf right) :
    left = right := by
  have templates : left.map template = right.map template := by
    rw [← segments_pathOf areLeft, same, segments_pathOf areRight]
  clear same
  induction left generalizing right with
  | nil =>
    cases right with
    | nil => rfl
    | cons other more => cases templates
  | cons one rest ih =>
    cases right with
    | nil => cases templates
    | cons other more =>
      simp only [List.map_cons, List.cons.injEq] at templates
      obtain ⟨isOne, areRest⟩ := List.forall_mem_cons.1 areLeft
      obtain ⟨isOther, areMore⟩ := List.forall_mem_cons.1 areRight
      rw [template_inj isOne isOther templates.1, ih areRest areMore templates.2]

/-- **The OpenAPI translation and the router agree on templates.** -/
theorem from_rustee_agrees :
    (∀ text, (fromRustee text).isOk = true ↔
      (RoutePattern.parse text).isOk = true ∧ '{' ∉ text ∧ '}' ∉ text) ∧
    (∀ text route pattern, fromRustee text = .ok route → RoutePattern.parse text = .ok pattern →
      ∀ name, name ∈ route.parameters ↔ Segment.parameter name ∈ pattern.segments) ∧
    ∀ text text' route route' pattern pattern', fromRustee text = .ok route →
      fromRustee text' = .ok route' → RoutePattern.parse text = .ok pattern →
      RoutePattern.parse text' = .ok pattern' →
      (route.path = route'.path ↔ pattern.segments = pattern'.segments) := by
  refine ⟨fun text => ?_, ?_, ?_⟩
  · constructor
    · intro accepted
      cases isRoute : fromRustee text with
      | error error => simp [isRoute, Except.isOk, Except.toBool] at accepted
      | ok route =>
        obtain ⟨noOpen, noClose, pattern, isPattern, -⟩ := fromRustee_eq_ok.1 isRoute
        exact ⟨by rw [isPattern]; rfl, noOpen, noClose⟩
    · rintro ⟨parses, noOpen, noClose⟩
      cases isPattern : RoutePattern.parse text with
      | error error => simp [isPattern, Except.isOk, Except.toBool] at parses
      | ok pattern =>
        rw [fromRustee_eq_ok.2 ⟨noOpen, noClose, pattern, isPattern, rfl⟩]
        rfl
  · intro text route pattern isRoute isPattern name
    obtain ⟨-, -, same, isSame, rfl⟩ := fromRustee_eq_ok.1 isRoute
    cases isPattern.symm.trans isSame
    exact mem_parametersOf
  · intro text text' route route' pattern pattern' isRoute isRoute' isPattern isPattern'
    obtain ⟨noOpen, -, same, isSame, rfl⟩ := fromRustee_eq_ok.1 isRoute
    obtain ⟨noOpen', -, same', isSame', rfl⟩ := fromRustee_eq_ok.1 isRoute'
    cases isPattern.symm.trans isSame
    cases isPattern'.symm.trans isSame'
    exact ⟨pathOf_inj (isPlain_of_parse noOpen isPattern) (isPlain_of_parse noOpen' isPattern'),
      fun segments => congrArg pathOf segments⟩

/-- A slash at the end is not rendered; the name of a parameter is. -/
theorem from_rustee_agrees_users : ∃ route route' other, fromRustee "/users/:id".toList = .ok route ∧
    fromRustee "/users/:id/".toList = .ok route' ∧ fromRustee "/users/:name".toList = .ok other ∧
    route.path = route'.path ∧ route.path ≠ other.path := by
  have parsed : RoutePattern.parse "/users/:id".toList =
      .ok ⟨[.static "users".toList, .parameter "id".toList], 1⟩ := by decide +kernel
  have parsed' : RoutePattern.parse "/users/:id/".toList =
      .ok ⟨[.static "users".toList, .parameter "id".toList], 1⟩ := by decide +kernel
  have parsedOther : RoutePattern.parse "/users/:name".toList =
      .ok ⟨[.static "users".toList, .parameter "name".toList], 1⟩ := by decide +kernel
  have isRoute := fromRustee_eq_ok.2 ⟨by decide, by decide, _, parsed, rfl⟩
  have isRoute' := fromRustee_eq_ok.2 ⟨by decide, by decide, _, parsed', rfl⟩
  have isOther := fromRustee_eq_ok.2 ⟨by decide, by decide, _, parsedOther, rfl⟩
  obtain ⟨-, -, alike⟩ := from_rustee_agrees
  refine ⟨_, _, _, isRoute, isRoute', isOther, ?_, fun same => ?_⟩
  · exact (alike _ _ _ _ _ _ isRoute isRoute' parsed parsed').2 rfl
  · have segments := (alike _ _ _ _ _ _ isRoute isOther parsed parsedOther).1 same
    exact absurd segments (by decide +kernel)

end OpenApiRoute

end Rustee.OpenApi
