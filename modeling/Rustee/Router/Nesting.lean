/-
# Rustee.Router.Nesting -- nested applications and the template they report

`rustee-router/src/nesting.rs`.  A request that goes into a nested service has the prefix
stripped from its path and kept among its extensions, so that the route that answers reports
the template as a client sees it.  The template is the prefixes joined with the route's own,
as text; `nesting_flattens` says that this text is a template again, and that it matches the
whole path exactly as the nested route matches what is left of it.
-/
import Rustee.Foundation.FieldSyntax
import Rustee.Router.Pattern

namespace Rustee.Router

open Rustee.Foundation

set_option autoImplicit false

/-! ## Requests and replies -/

/-- `http::Method` as its text, which is a token. -/
abbrev Method := { name : Text // name ≠ [] ∧ name.all isTokenChar = true }

/-- A request, as far as the router reads and writes it. -/
structure Request where
  method : Method
  path : Text
  /-- `NestedRoutePrefix` among the extensions. -/
  nestedPrefix : Option Text
  /-- `RouteTemplate` among the extensions. -/
  routeTemplate : Option Text
  deriving DecidableEq

inductive RouteClassification where
  | matched (template : Text)
  | fallback
  | methodNotAllowed
  | notFound
  deriving DecidableEq, Repr

/-- What becomes of a request: it is handed to a handler, whose response gets the
classification, or to a nested service, or it is answered with an error. -/
inductive Reply (Endpoint Service : Type) where
  | endpoint (endpoint : Endpoint) (request : Request) (params : RouteParams)
      (classification : RouteClassification)
  | service (service : Service) (request : Request)
  | error (status : Nat) (code message : String) (allow : Option Text)
      (classification : Option RouteClassification)

/-! ## Going into a nested service -/

def joinRoutePaths (front path : Text) : Text :=
  if front = ['/'] then path else if path = ['/'] then front else front ++ path

/-- The prefix that is visible below a nest. -/
def visiblePrefix (parent : Option Text) (nested : NestedPrefix) : Text :=
  match parent with
  | none => nested.value
  | some parent => joinRoutePaths parent nested.value

/-- `NestedRoute::call` up to the lock of the service.  The URI is put together again from the
stripped path, which is a path because the whole was. -/
def enter (request : Request) (nested : NestedPrefix) : Option Request :=
  (nested.strip request.path).map fun path =>
    { request with path, nestedPrefix := some (visiblePrefix request.nestedPrefix nested) }

structure NestedRoute (Service : Type) where
  nestedPrefix : NestedPrefix
  /-- The service behind its lock; nothing once the lock is poisoned. -/
  service : Option Service
  order : Nat

namespace NestedRoute

variable {Endpoint Service : Type}

/-- `matches`; the word is reserved. -/
def matches_ (self : NestedRoute Service) (path : Text) : Bool :=
  (self.nestedPrefix.strip path).isSome

def isMoreSpecificThan (self other : NestedRoute Service) : Bool :=
  (compare self.nestedPrefix.segmentCount other.nestedPrefix.segmentCount).then
    (compare other.order self.order) = .gt

def call (self : NestedRoute Service) (request : Request) : Reply Endpoint Service :=
  match enter request self.nestedPrefix with
  | none => .error 404 "not_found" "the requested route was not found" none none
  | some request =>
    match self.service with
    | none => .error 500 "nested_service_unavailable" "the nested service is unavailable" none none
    | some service => .service service request

end NestedRoute

def routeTemplateForRequest (request : Request) (template : Text) : Text :=
  match request.nestedPrefix with
  | none => template
  | some front => joinRoutePaths front template

/-! ## Chains of nests -/

/-- One nest after the other. -/
def enterAll (chain : List NestedPrefix) (request : Request) : Option Request :=
  chain.foldlM enter request

/-- What is visible below a chain of nests. -/
def visibleChain (chain : List NestedPrefix) : Option Text :=
  chain.foldl (fun parent nested => some (visiblePrefix parent nested)) none

/-- The template a chain of nests reports. -/
def reportedTemplate (chain : List NestedPrefix) (template : Text) : Text :=
  match visibleChain chain with
  | none => template
  | some front => joinRoutePaths front template

variable {chain : List NestedPrefix} {start : Request} {pieces : List Text} {groups : List (List Text)}

theorem enterAll_nestedPrefix {request : Request} (entered : enterAll chain start = some request) :
    request.nestedPrefix =
      chain.foldl (fun parent nested => some (visiblePrefix parent nested))
        start.nestedPrefix := by
  induction chain generalizing start with
  | nil =>
    cases entered
    rfl
  | cons nested rest ih =>
    rw [enterAll, List.foldlM_cons] at entered
    obtain ⟨next, first, later⟩ := Option.bind_eq_some_iff.1 entered
    obtain ⟨stripped, -, rfl⟩ := Option.map_eq_some_iff.1 first
    exact ih later

/-- Every request that goes through a chain reports its template. -/
theorem routeTemplateForRequest_enterAll {request : Request} (outside : start.nestedPrefix = none)
    (entered : enterAll chain start = some request) (template : Text) :
    routeTemplateForRequest request template = reportedTemplate chain template := by
  rw [routeTemplateForRequest, reportedTemplate, visibleChain, enterAll_nestedPrefix entered,
    outside]

/-! ## Chains as segments -/

/-- The prefix with these segments. -/
def ofPieces (pieces : List Text) : NestedPrefix := ⟨render '/' pieces, pieces.length⟩

/-- The segments of a chain, nest by nest. -/
structure IsChain (groups : List (List Text)) : Prop where
  nonempty : ∀ pieces ∈ groups, pieces ≠ []
  literal : ∀ pieces ∈ groups, ∀ piece ∈ pieces, NestedPrefix.IsLiteral piece

theorem exists_groups (accepted : ∀ nested ∈ chain, ∃ path, NestedPrefix.parse path = .ok nested) :
    ∃ groups, IsChain groups ∧ chain = groups.map ofPieces := by
  induction chain with
  | nil => exact ⟨[], ⟨by simp, by simp⟩, rfl⟩
  | cons nested rest ih =>
    obtain ⟨path, ok⟩ := accepted nested List.mem_cons_self
    obtain ⟨pieces, nonempty, literal, rfl⟩ := NestedPrefix.parse_ok ok
    obtain ⟨groups, isChain, rfl⟩ :=
      ih fun other member => accepted other (List.mem_cons_of_mem _ member)
    refine ⟨pieces :: groups, ⟨?_, ?_⟩, rfl⟩
    · exact List.forall_mem_cons.2 ⟨nonempty, isChain.nonempty⟩
    · exact List.forall_mem_cons.2 ⟨literal, isChain.literal⟩

theorem IsChain.tail (isChain : IsChain (pieces :: groups)) : IsChain groups :=
  ⟨(List.forall_mem_cons.1 isChain.nonempty).2, (List.forall_mem_cons.1 isChain.literal).2⟩

theorem IsChain.isLiteral (isChain : IsChain groups) :
    ∀ piece ∈ groups.flatten, NestedPrefix.IsLiteral piece := by
  intro piece member
  obtain ⟨pieces, inGroups, inPieces⟩ := List.mem_flatten.1 member
  exact isChain.literal pieces inGroups piece inPieces

theorem render_ne_slash (literal : ∀ piece ∈ pieces, NestedPrefix.IsLiteral piece) :
    render '/' pieces ≠ ['/'] := by
  cases pieces with
  | nil => simp
  | cons piece rest =>
    have nonempty := (literal piece List.mem_cons_self).isSegment.nonempty
    simp [nonempty]

/-- Joined prefixes are their segments rendered together. -/
theorem visibleChain_groups (isChain : IsChain groups) (nonempty : groups ≠ []) :
    visibleChain (groups.map ofPieces) = some (render '/' groups.flatten) := by
  have joined : ∀ (groups : List (List Text)), IsChain groups → ∀ before : List Text,
      (∀ piece ∈ before, NestedPrefix.IsLiteral piece) →
      (groups.map ofPieces).foldl (fun parent nested => some (visiblePrefix parent nested))
        (some (render '/' before)) = some (render '/' (before ++ groups.flatten)) := by
    intro groups
    induction groups with
    | nil => simp
    | cons pieces rest ih =>
      intro isChain before literal
      have mine := isChain.literal pieces List.mem_cons_self
      have step : visiblePrefix (some (render '/' before)) (ofPieces pieces) =
          render '/' (before ++ pieces) := by
        simp only [visiblePrefix, ofPieces, joinRoutePaths, render_ne_slash literal,
          render_ne_slash mine, if_false, render_append]
      rw [List.map_cons, List.foldl_cons, step, ih isChain.tail]
      · simp
      · exact List.forall_mem_append.2 ⟨literal, mine⟩
  cases groups with
  | nil => exact absurd rfl nonempty
  | cons pieces rest =>
    rw [visibleChain, List.map_cons, List.foldl_cons]
    exact joined rest isChain.tail pieces (isChain.literal pieces List.mem_cons_self)

/-! ## Flattening -/

/-- The pattern with literal segments in front. -/
def prepend (pieces : List Text) (pattern : RoutePattern) : RoutePattern :=
  ⟨pieces.map .static ++ pattern.segments, pieces.length + pattern.staticSegments⟩

theorem classify_literal (literal : ∀ piece ∈ pieces, NestedPrefix.IsLiteral piece) :
    pieces.map RoutePattern.classify = pieces.map .static ∧
      pieces.filterMap RoutePattern.paramName = [] := by
  constructor
  · refine List.map_congr_left fun piece member => ?_
    simp [RoutePattern.classify, (literal piece member).noName]
  · exact List.filterMap_eq_nil_iff.2 fun piece member => (literal piece member).noName

/-- A template behind literal segments is a template, with these segments in front. -/
theorem parse_render_append {template rest : Text} {pattern : RoutePattern}
    (literal : ∀ piece ∈ pieces, NestedPrefix.IsLiteral piece) (nonempty : pieces ≠ [])
    (isPattern : RoutePattern.parse template = .ok pattern) (continues : Continues '/' rest)
    (sameSegments : segments '/' rest = segments '/' template) (within : ∀ c ∈ rest, c ∈ template)
    (once : ¬Repeats '/' rest) :
    RoutePattern.parse (render '/' pieces ++ rest) = .ok (prepend pieces pattern) := by
  obtain ⟨-, noQuery, noFragment, -, names, nodup, rfl⟩ := RoutePattern.parse_eq_ok.1 isPattern
  have areSegments : ∀ piece ∈ pieces, IsSegment '/' piece :=
    fun piece member => (literal piece member).isSegment
  obtain ⟨kinds, noNames⟩ := classify_literal literal
  have isSegments : segmentsOf (render '/' pieces ++ rest) = pieces ++ segmentsOf template := by
    rw [segmentsOf_eq, segmentsOf_eq, segments_render_append areSegments continues, sameSegments]
  have absent {c : Char} (notSlash : c ≠ '/') (notPieces : ∀ piece ∈ pieces, c ∉ piece)
      (notTemplate : c ∉ template) : c ∉ render '/' pieces ++ rest := by
    rw [List.mem_append, not_or, render, List.mem_flatMap]
    refine ⟨?_, fun inside => notTemplate (within c inside)⟩
    rintro ⟨piece, member, inside⟩
    rcases List.mem_cons.1 inside with slash | inside
    · exact notSlash slash
    · exact notPieces piece member inside
  refine RoutePattern.parse_eq_ok.2 ⟨?_, ?_, ?_, ?_, ?_, ?_, ?_⟩
  · cases pieces with
    | nil => exact absurd rfl nonempty
    | cons piece others => rfl
  · exact absent (by decide) (fun piece member => (literal piece member).noQuery) noQuery
  · exact absent (by decide) (fun piece member => (literal piece member).noFragment) noFragment
  · rwa [repeats_render_append_iff areSegments]
  · rw [isSegments, List.filterMap_append, noNames]
    exact names
  · rw [isSegments, List.filterMap_append, noNames]
    exact nodup
  · rw [isSegments, List.map_append, kinds, List.countP_append]
    have allStatic : (pieces.map Segment.static).countP Segment.isStatic = pieces.length := by
      rw [List.countP_eq_length.2, List.length_map]
      intro kind member
      obtain ⟨piece, -, rfl⟩ := List.mem_map.1 member
      rfl
    rw [allStatic]
    rfl

/-- **The reported template is a template.** -/
theorem parse_reportedTemplate (isChain : IsChain groups) {template : Text} {pattern : RoutePattern}
    (isPattern : RoutePattern.parse template = .ok pattern) :
    RoutePattern.parse (reportedTemplate (groups.map ofPieces) template) =
      .ok (prepend groups.flatten pattern) := by
  cases groups with
  | nil =>
    rw [List.map_nil, reportedTemplate]
    simpa [prepend, visibleChain] using isPattern
  | cons pieces rest =>
    have literal := isChain.isLiteral
    obtain ⟨absolute, -, -, once, -⟩ := RoutePattern.parse_eq_ok.1 isPattern
    have nonempty : (pieces :: rest).flatten ≠ [] := by
      simp [isChain.nonempty pieces List.mem_cons_self]
    rw [reportedTemplate, visibleChain_groups isChain (List.cons_ne_nil pieces rest)]
    simp only [joinRoutePaths, render_ne_slash literal, if_false]
    split
    · rename_i root
      subst root
      have alone := parse_render_append literal nonempty isPattern (.inl rfl) (segments_cons []).symm
        (by simp) (by simp [Repeats])
      simpa using alone
    · obtain ⟨text, rfl⟩ := List.head?_eq_some_iff.1 absolute
      exact parse_render_append literal nonempty isPattern (.inr ⟨text, rfl⟩) rfl
        (fun _ inside => inside) once

/-- Through a chain, a pattern matches what it matches with the chain's segments in front. -/
theorem enterAll_matches (isChain : IsChain groups) (pattern : RoutePattern)
    (absolute : start.path.head? = some '/') {params : RouteParams} :
    (∃ request, enterAll (groups.map ofPieces) start = some request ∧
        pattern.matches_ request.path = some params) ↔
      (prepend groups.flatten pattern).matches_ start.path = some params := by
  induction groups generalizing start with
  | nil => simp [enterAll, prepend, RoutePattern.matches_]
  | cons pieces rest ih =>
    have areSegments : ∀ piece ∈ pieces, IsSegment '/' piece :=
      fun piece member => (isChain.literal pieces List.mem_cons_self piece member).isSegment
    have front : prepend (pieces :: rest).flatten pattern =
        ⟨pieces.map .static ++ (prepend rest.flatten pattern).segments,
          (prepend (pieces :: rest).flatten pattern).staticSegments⟩ := by
      simp [prepend]
    -- matching all segments at once is matching the first nest's and then the others
    rw [front, ← NestedPrefix.strip_matches areSegments pieces.length
      (prepend rest.flatten pattern) absolute]
    constructor
    · rintro ⟨request, entered, matched⟩
      rw [enterAll, List.map_cons, List.foldlM_cons] at entered
      obtain ⟨next, first, later⟩ := Option.bind_eq_some_iff.1 entered
      obtain ⟨remaining, stripped, rfl⟩ := Option.map_eq_some_iff.1 first
      exact ⟨remaining, stripped,
        (ih isChain.tail (NestedPrefix.strip_absolute stripped)).1 ⟨request, later, matched⟩⟩
    · rintro ⟨remaining, stripped, matched⟩
      obtain ⟨next, first, samePath⟩ : ∃ next, enter start (ofPieces pieces) = some next ∧
          next.path = remaining :=
        ⟨_, Option.map_eq_some_iff.2 ⟨remaining, stripped, rfl⟩, rfl⟩
      subst samePath
      obtain ⟨request, later, matched⟩ :=
        (ih isChain.tail (NestedPrefix.strip_absolute stripped)).2 matched
      refine ⟨request, ?_, matched⟩
      rw [enterAll, List.map_cons, List.foldlM_cons]
      exact Option.bind_eq_some_iff.2 ⟨_, first, later⟩

/-- **Nesting is flattening.**  Below any chain of nests, a route matches what is left of a
request's path exactly when the template it reports is a template that matches the whole path,
with the same parameters. -/
theorem nesting_flattens (chain : List NestedPrefix)
    (accepted : ∀ nested ∈ chain, ∃ path, NestedPrefix.parse path = .ok nested)
    (template : Text) (pattern : RoutePattern)
    (isPattern : RoutePattern.parse template = .ok pattern)
    (start : Request) (outside : start.nestedPrefix = none)
    (absolute : start.path.head? = some '/') (params : RouteParams) :
    (∀ request, enterAll chain start = some request →
        routeTemplateForRequest request template = reportedTemplate chain template) ∧
      ((∃ request, enterAll chain start = some request ∧
          pattern.matches_ request.path = some params) ↔
        ∃ flat, RoutePattern.parse (reportedTemplate chain template) = .ok flat ∧
          flat.matches_ start.path = some params) := by
  refine ⟨fun request entered => routeTemplateForRequest_enterAll outside entered template, ?_⟩
  obtain ⟨groups, isChain, rfl⟩ := exists_groups accepted
  rw [parse_reportedTemplate isChain isPattern, enterAll_matches isChain pattern absolute]
  simp

/-- `/users/:id` below `/api` and `/v1`, for a path with a slash at its end. -/
theorem nesting_flattens_apiV1 :
    ∃ inner, enterAll [⟨"/api".toList, 1⟩, ⟨"/v1".toList, 1⟩]
        ⟨⟨"GET".toList, by decide⟩, "/api/v1/users/7/".toList, none, none⟩ = some inner ∧
      RoutePattern.matches_ ⟨[.static "users".toList, .parameter "id".toList], 1⟩ inner.path =
        some [("id".toList, "7".toList)] := by
  have accepted : ∀ nested ∈ [NestedPrefix.mk "/api".toList 1, ⟨"/v1".toList, 1⟩],
      ∃ path, NestedPrefix.parse path = .ok nested := by
    intro nested member
    rcases List.mem_cons.1 member with rfl | member
    · exact ⟨"/api".toList, by decide +kernel⟩
    · rw [List.mem_singleton.1 member]
      exact ⟨"/v1/".toList, by decide +kernel⟩
  refine (nesting_flattens _ accepted "/users/:id".toList _ (by decide +kernel) _ rfl
    (by decide +kernel) _).2.2 ⟨⟨[.static "api".toList, .static "v1".toList,
      .static "users".toList, .parameter "id".toList], 3⟩, by decide +kernel, by decide +kernel⟩

end Rustee.Router
