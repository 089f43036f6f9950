/-
# Rustee.Router.Reachable -- no route is hidden behind others

A route loses to every matching route with more literal segments, and to every earlier one with
as many.  `no_route_shadowed` says that it still answers some request: the one that has the
route's literal segments, and for its parameters a text that is no literal of the application.
Whatever matches that has a literal only where the route has the same, so it has as many only if
it is equivalent, and `tryRoute` lets in no second equivalent route of one method.
-/
import Rustee.Router.App
import Mathlib.Data.List.Pairwise
import Mathlib.Algebra.Order.BigOperators.Group.List
import Mathlib.Algebra.Order.Ring.Nat

namespace Rustee.Router

open Rustee.Foundation

set_option autoImplicit false

/-! ## A request for a route -/

variable {Endpoint Service : Type}

/-- A text that is longer than every segment of the routes. -/
def filler (routes : List (Route Endpoint)) : Text :=
  List.replicate
    ((routes.flatMap fun route => route.pattern.segments.map fun segment =>
      segment.text.length).sum + 1) 'x'

def fill (filler : Text) : Segment → Text
  | .static text => text
  | .parameter _ => filler

/-- The path with the pattern's literals, and `filler` for its parameters. -/
def samplePath (filler : Text) (pattern : RoutePattern) : Text :=
  if pattern.segments = [] then ['/'] else render '/' (pattern.segments.map (fill filler))

theorem isSegment_filler (routes : List (Route Endpoint)) : IsSegment '/' (filler routes) := by
  refine ⟨by simp [filler], fun inside => ?_⟩
  exact absurd (List.eq_of_mem_replicate inside) (by decide)

variable {route : Route Endpoint}

/-- It is no literal of any route. -/
theorem filler_fresh {routes : List (Route Endpoint)} (isRoute : route ∈ routes) {text : Text}
    (literal : .static text ∈ route.pattern.segments) :
    text ≠ filler routes := by
  rintro rfl
  have member : (filler routes).length ∈ routes.flatMap fun route =>
      route.pattern.segments.map fun segment => segment.text.length :=
    List.mem_flatMap.2 ⟨route, isRoute, List.mem_map.2 ⟨_, literal, rfl⟩⟩
  have bounded := List.le_sum_of_mem member
  simp only [filler, List.length_replicate] at bounded
  omega

theorem segments_samplePath {filler : Text} {pattern : RoutePattern}
    (areSegments : ∀ piece ∈ pattern.segments.map (fill filler), IsSegment '/' piece) :
    ¬Repeats '/' (samplePath filler pattern) ∧
      segments '/' (samplePath filler pattern) = pattern.segments.map (fill filler) := by
  unfold samplePath
  split
  · rename_i empty
    rw [empty, List.map_nil]
    decide +kernel
  · have once : Repeats '/' (render '/' (pattern.segments.map (fill filler)) ++ []) ↔
        Repeats '/' [] := repeats_render_append_iff areSegments
    rw [List.append_nil] at once
    refine ⟨fun repeated => ?_, segments_render areSegments⟩
    simpa [Repeats] using once.1 repeated

theorem matchSegments_fill_self (filler : Text) (kinds : List Segment) (params : RouteParams) :
    ∃ result, RoutePattern.matchSegments kinds (kinds.map (fill filler)) params = some result := by
  induction kinds generalizing params with
  | nil => exact ⟨params, rfl⟩
  | cons kind rest ih =>
    cases kind with
    | static text => simpa [RoutePattern.matchSegments, fill] using ih params
    | parameter name => exact ih (params ++ [(name, filler)])

/-! ## What else matches it -/

/-- A literal only where the route has the same. -/
inductive Covers : Segment → Segment → Prop where
  | literal (text : Text) : Covers (.static text) (.static text)
  | wider (name text : Text) : Covers (.parameter name) (.static text)
  | parameter (name other : Text) : Covers (.parameter name) (.parameter other)

theorem covers_of_matchSegments {filler : Text} {others kinds : List Segment}
    (fresh : ∀ text, .static text ∈ others → text ≠ filler) {params : RouteParams}
    (matched : RoutePattern.matchSegments others (kinds.map (fill filler)) params ≠ none) :
    List.Forall₂ Covers others kinds := by
  induction others generalizing kinds params with
  | nil =>
    cases kinds with
    | nil => exact .nil
    | cons kind rest => exact absurd rfl matched
  | cons other others ih =>
    cases kinds with
    | nil =>
      cases other with
      | static text => exact absurd rfl matched
      | parameter name => exact absurd rfl matched
    | cons kind rest =>
      have later := fun text member => fresh text (List.mem_cons_of_mem other member)
      cases other with
      | parameter name =>
        refine .cons ?_ (ih later matched)
        cases kind with
        | static text => exact .wider name text
        | parameter mine => exact .parameter name mine
      | static text =>
        rw [List.map_cons, RoutePattern.matchSegments] at matched
        split at matched
        · rename_i same
          refine .cons ?_ (ih later matched)
          cases kind with
          | static mine =>
            rw [show text = mine from same]
            exact .literal mine
          | parameter name => exact absurd same (fresh text List.mem_cons_self)
        · exact absurd rfl matched

/-- It has no more literals, and with as many it is equivalent. -/
theorem covers_count {others kinds : List Segment} (covers : List.Forall₂ Covers others kinds) :
    others.countP Segment.isStatic ≤ kinds.countP Segment.isStatic ∧
      (others.countP Segment.isStatic = kinds.countP Segment.isStatic →
        List.Forall₂ (fun left right => RoutePattern.sameKind left right = true) others kinds) := by
  induction covers with
  | nil => exact ⟨le_rfl, fun _ => .nil⟩
  | cons covered _ ih =>
    obtain ⟨fewer, equivalent⟩ := ih
    cases covered with
    | literal text =>
      rw [List.countP_cons_of_pos rfl, List.countP_cons_of_pos rfl]
      refine ⟨Nat.succ_le_succ fewer, fun same => ?_⟩
      exact .cons (by simp [RoutePattern.sameKind]) (equivalent (Nat.succ.inj same))
    | wider name text =>
      rw [List.countP_cons_of_neg (by simp [Segment.isStatic]), List.countP_cons_of_pos rfl]
      exact ⟨by omega, fun same => absurd same (by omega)⟩
    | parameter name other =>
      rw [List.countP_cons_of_neg (by simp [Segment.isStatic]),
        List.countP_cons_of_neg (by simp [Segment.isStatic])]
      exact ⟨fewer, fun same => .cons rfl (equivalent same)⟩

theorem isEquivalentTo_iff {one other : RoutePattern} : one.isEquivalentTo other = true ↔
    List.Forall₂ (fun left right => RoutePattern.sameKind left right = true)
      one.segments other.segments := by
  rw [RoutePattern.isEquivalentTo, decide_eq_true_eq, List.all_eq_true, List.forall₂_iff_zip]
  simp

theorem sameKind_symm {left right : Segment} (same : RoutePattern.sameKind left right = true) :
    RoutePattern.sameKind right left = true := by
  cases left with
  | static text => cases right with
      | static other => simpa [RoutePattern.sameKind, eq_comm] using same
      | parameter name => cases same
  | parameter name => cases right with
      | static other => cases same
      | parameter other => rfl

theorem isEquivalentTo_symm {one other : RoutePattern}
    (equivalent : one.isEquivalentTo other = true) : other.isEquivalentTo one = true :=
  isEquivalentTo_iff.2 ((isEquivalentTo_iff.1 equivalent).flip.imp fun _ _ => sameKind_symm)

theorem Route.Distinct.symm {one other : Route Endpoint} (distinct : one.Distinct other) :
    other.Distinct one := by
  intro sameMethod
  cases equivalent : other.pattern.isEquivalentTo one.pattern with
  | false => rfl
  | true =>
    rw [← distinct sameMethod.symm]
    exact (isEquivalentTo_symm equivalent).symm

/-- Equivalent routes of one method are one route. -/
theorem App.eq_of_equivalent (app : App Endpoint Service) {one other : Route Endpoint}
    (isOne : one ∈ app.routes) (isOther : other ∈ app.routes)
    (sameMethod : one.method = other.method)
    (equivalent : one.pattern.isEquivalentTo other.pattern = true) : one = other := by
  by_contra differ
  have symmetric : Std.Symm (@Route.Distinct Endpoint) := ⟨fun _ _ => Route.Distinct.symm⟩
  have distinct := app.distinct.forall isOne isOther differ
  rw [distinct sameMethod] at equivalent
  cases equivalent

theorem App.pattern_eq (app : App Endpoint Service) (isRoute : route ∈ app.routes) :
    route.pattern.segments = (segments '/' route.template).map RoutePattern.classify ∧
      route.pattern.staticSegments = route.pattern.segments.countP Segment.isStatic := by
  obtain ⟨-, -, -, -, -, -, isPattern⟩ := RoutePattern.parse_eq_ok.1 (app.parsed route isRoute)
  rw [isPattern, segmentsOf_eq]
  exact ⟨rfl, rfl⟩

/-- The segments of a sample path are segments. -/
theorem App.isSegment_fill (app : App Endpoint Service) (isRoute : route ∈ app.routes) :
    ∀ piece ∈ route.pattern.segments.map (fill (filler app.routes)), IsSegment '/' piece := by
  rw [(app.pattern_eq isRoute).1]
  intro piece member
  obtain ⟨kind, isKind, rfl⟩ := List.mem_map.1 member
  obtain ⟨text, inTemplate, rfl⟩ := List.mem_map.1 isKind
  unfold RoutePattern.classify
  split
  · exact isSegment_filler app.routes
  · exact isSegment_of_mem_segments inTemplate

/-- A sample path has no characters but those of the template, slashes and the filler's. -/
theorem App.mem_samplePath (app : App Endpoint Service) (isRoute : route ∈ app.routes) {c : Char}
    (inside : c ∈ samplePath (filler app.routes) route.pattern) :
    c = '/' ∨ c = 'x' ∨ c ∈ route.template := by
  unfold samplePath at inside
  split at inside
  · exact .inl (List.mem_singleton.1 inside)
  · obtain ⟨piece, isPiece, inside⟩ := List.mem_flatMap.1 inside
    rcases List.mem_cons.1 inside with slash | inside
    · exact .inl slash
    · right
      rw [(app.pattern_eq isRoute).1] at isPiece
      obtain ⟨kind, isKind, rfl⟩ := List.mem_map.1 isPiece
      obtain ⟨text, inTemplate, rfl⟩ := List.mem_map.1 isKind
      unfold RoutePattern.classify at inside
      split at inside
      · exact .inl (List.eq_of_mem_replicate inside)
      · exact .inr (mem_of_mem_splitOn (List.mem_filter.1 inTemplate).1 inside)

theorem App.samplePath_plain (app : App Endpoint Service) (isRoute : route ∈ app.routes) :
    '?' ∉ samplePath (filler app.routes) route.pattern ∧
      '#' ∉ samplePath (filler app.routes) route.pattern := by
  obtain ⟨-, noQuery, noFragment, -⟩ := RoutePattern.parse_eq_ok.1 (app.parsed route isRoute)
  constructor
  · intro inside
    have cases_ := app.mem_samplePath isRoute inside
    simp [noQuery] at cases_
  · intro inside
    have cases_ := app.mem_samplePath isRoute inside
    simp [noFragment] at cases_

theorem samplePath_absolute (filler : Text) (pattern : RoutePattern) :
    (samplePath filler pattern).head? = some '/' := by
  unfold samplePath
  split
  · rfl
  · rename_i nonempty
    obtain ⟨kind, rest, isKinds⟩ := List.exists_cons_of_ne_nil nonempty
    rw [isKinds]
    rfl

/-- **No route is shadowed.**  For every route of an application there is a path for which its
method selects this route. -/
theorem no_route_shadowed (app : App Endpoint Service) (route : Route Endpoint)
    (isRoute : route ∈ app.routes) :
    ∃ path params, path.head? = some '/' ∧ '?' ∉ path ∧ '#' ∉ path ∧
      selectDirectRoute app.routes path route.method = .matched route params := by
  have fresh : ∀ other ∈ app.routes, ∀ text, .static text ∈ other.pattern.segments →
      text ≠ filler app.routes := fun other isOther text => filler_fresh isOther
  obtain ⟨once, isSegments⟩ := segments_samplePath (app.isSegment_fill isRoute)
  obtain ⟨params, matched⟩ :=
    matchSegments_fill_self (filler app.routes) route.pattern.segments []
  obtain ⟨noQuery, noFragment⟩ := app.samplePath_plain isRoute
  refine ⟨samplePath (filler app.routes) route.pattern, params,
    samplePath_absolute _ route.pattern, noQuery, noFragment, ?_⟩
  rw [selectDirectRoute_matched app.ordersDiffer]
  refine ⟨isRoute, RoutePattern.matches_eq_some.2 ⟨once, by rw [isSegments, matched]⟩, rfl, ?_⟩
  intro other isOther sameMethod otherMatches
  obtain ⟨otherParams, otherMatched⟩ := Option.ne_none_iff_exists'.1 otherMatches
  have covers : List.Forall₂ Covers other.pattern.segments route.pattern.segments := by
    have segmentsMatch := (RoutePattern.matches_eq_some.1 otherMatched).2
    rw [isSegments] at segmentsMatch
    exact covers_of_matchSegments (fresh other isOther) (by rw [segmentsMatch]; simp)
  obtain ⟨fewer, equivalent⟩ := covers_count covers
  rw [← (app.pattern_eq isOther).2, ← (app.pattern_eq isRoute).2] at fewer equivalent
  rcases fewer.lt_or_eq with fewer | same
  · exact .inl fewer
  · have sameRoute := app.eq_of_equivalent isOther isRoute sameMethod
      (isEquivalentTo_iff.2 (equivalent same))
    exact .inr ⟨same, by rw [sameRoute]⟩

/-- `/:kind/:id` next to `/users/:id`. -/
theorem no_route_shadowed_kind :
    ∃ one two : App Nat Nat,
      App.new.tryRoute ⟨"GET".toList, by decide⟩ "/users/:id".toList 0 = .ok one ∧
      one.tryRoute ⟨"GET".toList, by decide⟩ "/:kind/:id".toList 1 = .ok two ∧
      ∃ route ∈ two.routes, route.template = "/:kind/:id".toList ∧
        ∃ path params, path.head? = some '/' ∧ '?' ∉ path ∧ '#' ∉ path ∧
          selectDirectRoute two.routes path route.method = .matched route params := by
  obtain ⟨one, first, oneRoutes⟩ := (App.new : App Nat Nat).tryRoute_eq_ok
    ⟨"GET".toList, by decide⟩ "/users/:id".toList 0
    ⟨[.static "users".toList, .parameter "id".toList], 1⟩ (by decide +kernel) (by simp [App.new])
  obtain ⟨two, second, twoRoutes⟩ := one.tryRoute_eq_ok
    ⟨"GET".toList, by decide⟩ "/:kind/:id".toList 1
    ⟨[.parameter "kind".toList, .parameter "id".toList], 0⟩ (by decide +kernel)
    (by simp [oneRoutes, App.new, RoutePattern.isEquivalentTo, RoutePattern.sameKind])
  have member : _ ∈ two.routes := twoRoutes ▸ List.mem_append_right _ (List.mem_singleton_self _)
  exact ⟨one, two, first, second, _, member, rfl, no_route_shadowed two _ member⟩

end Rustee.Router
