/-
# Rustee.Router.App -- an application's routes, and which of them a request selects

`App` of `rustee-router/src/app.rs` and the selection of `dispatch.rs`.  An application carries
what its builders guarantee: routes are numbered in the order in which they were registered,
have the pattern of their template, and no two of one method are equivalent.

`selectDirectRoute_matched`, `selectDirectRoute_methodNotAllowed` and `selectNestedRoute_eq_some`
say what the scans select, in terms of the routes alone.
-/
import Rustee.Foundation.Select
import Rustee.Router.Nesting
import Mathlib.Data.Char
import Mathlib.Data.List.Lex
import Mathlib.Data.Prod.Lex

namespace Rustee.Router

open Rustee.Foundation

set_option autoImplicit false

structure Route (Endpoint : Type) where
  method : Method
  pattern : RoutePattern
  template : Text
  endpoint : Endpoint
  order : Nat

/-- Whether two routes can stand next to each other. -/
def Route.Distinct {Endpoint : Type} (one other : Route Endpoint) : Prop :=
  one.method = other.method → one.pattern.isEquivalentTo other.pattern = false

structure App (Endpoint Service : Type) where
  routes : List (Route Endpoint)
  nestedRoutes : List (NestedRoute Service)
  fallback : Option Endpoint
  numbered : routes.map Route.order = List.range routes.length
  parsed : ∀ route ∈ routes, RoutePattern.parse route.template = .ok route.pattern
  distinct : routes.Pairwise Route.Distinct
  nestedNumbered : nestedRoutes.map NestedRoute.order = List.range nestedRoutes.length

namespace App

variable {Endpoint Service : Type}

def new : App Endpoint Service := ⟨[], [], none, rfl, by simp, .nil, rfl⟩

theorem numbered_concat {α : Type} {items : List α} {number : α → Nat}
    (numbered : items.map number = List.range items.length) {item : α}
    (last : number item = items.length) :
    (items ++ [item]).map number = List.range (items ++ [item]).length := by
  rw [List.map_append, numbered, List.length_append, List.length_singleton, List.range_succ,
    List.map_singleton, last]

def tryRoute (self : App Endpoint Service) (method : Method) (path : Text) (handler : Endpoint) :
    Except RouteError (App Endpoint Service) :=
  match isPattern : RoutePattern.parse path with
  | .error error => .error error
  | .ok pattern =>
    if registered : self.routes.any
        (fun route => route.method = method && route.pattern.isEquivalentTo pattern) = true then
      .error ⟨"a route for this method and path pattern is already registered"⟩
    else
      let route : Route Endpoint := ⟨method, pattern, path, handler, self.routes.length⟩
      .ok { self with
        routes := self.routes ++ [route]
        numbered := numbered_concat self.numbered rfl
        parsed := List.forall_mem_append.2 ⟨self.parsed, by simpa [route] using isPattern⟩
        distinct := by
          refine List.pairwise_append.2 ⟨self.distinct, List.pairwise_singleton _ _, ?_⟩
          intro one member other isRoute sameMethod
          rw [List.mem_singleton.1 isRoute] at sameMethod ⊢
          have notAny := List.any_eq_true.not.1 registered
          cases equivalent : one.pattern.isEquivalentTo pattern with
          | false => rfl
          | true =>
            exact absurd ⟨one, member, by simp [sameMethod, route, equivalent]⟩ notAny }

/-- What is registered: a template, unless an equivalent one has the method. -/
theorem tryRoute_eq_ok (self : App Endpoint Service) (method : Method) (path : Text)
    (handler : Endpoint) (pattern : RoutePattern) (isPattern : RoutePattern.parse path = .ok pattern)
    (notRegistered : ∀ route ∈ self.routes, route.method = method →
      route.pattern.isEquivalentTo pattern = false) :
    ∃ next, self.tryRoute method path handler = .ok next ∧
      next.routes = self.routes ++ [⟨method, pattern, path, handler, self.routes.length⟩] := by
  unfold tryRoute
  split
  · rename_i failed
    rw [failed] at isPattern
    cases isPattern
  · rename_i parsed same
    obtain rfl : parsed = pattern := by
      rw [same] at isPattern
      exact Except.ok.inj isPattern
    rw [dif_neg]
    · exact ⟨_, rfl, rfl⟩
    · intro registered
      obtain ⟨route, isRoute, both⟩ := List.any_eq_true.1 registered
      rw [Bool.and_eq_true, decide_eq_true_eq] at both
      rw [notRegistered route isRoute both.1] at both
      cases both.2

def tryNest (self : App Endpoint Service) (path : Text) (service : Service) :
    Except RouteError (App Endpoint Service) :=
  match NestedPrefix.parse path with
  | .error error => .error error
  | .ok nestedPrefix =>
    .ok { self with
      nestedRoutes :=
        self.nestedRoutes ++ [⟨nestedPrefix, some service, self.nestedRoutes.length⟩]
      nestedNumbered := numbered_concat self.nestedNumbered rfl }

/-- `App::fallback`. -/
def withFallback (self : App Endpoint Service) (handler : Endpoint) : App Endpoint Service :=
  { self with fallback := some handler }

end App

/-! ## Selecting -/

inductive DirectRouteSelection (Endpoint : Type) where
  | matched (route : Route Endpoint) (params : RouteParams)
  | methodNotAllowed (allowed : List Text)
  | noMatch

section Selecting

variable {Endpoint Service : Type}

def compareRoutes (left right : Route Endpoint) : Ordering :=
  (compare left.pattern.staticSegments right.pattern.staticSegments).then
    (compare right.order left.order)

/-- The locals of `select_direct_route`. -/
structure Scan (Endpoint : Type) where
  allowedMethods : List Text
  candidate : Option (Route Endpoint × RouteParams)

def scanRoute (path : Text) (method : Method) (scan : Scan Endpoint) (route : Route Endpoint) :
    Scan Endpoint :=
  match route.pattern.matches_ path with
  | none => scan
  | some params =>
    let allowedMethods := insertOrdered scan.allowedMethods route.method.val
    if route.method ≠ method then { scan with allowedMethods }
    else if scan.candidate.all fun current => compareRoutes route current.1 = .gt then
      ⟨allowedMethods, some (route, params)⟩
    else { scan with allowedMethods }

def selectDirectRoute (routes : List (Route Endpoint)) (path : Text) (method : Method) :
    DirectRouteSelection Endpoint :=
  let scan := routes.foldl (scanRoute path method) ⟨[], none⟩
  match scan.candidate with
  | some (route, params) => .matched route params
  | none =>
    if scan.allowedMethods.isEmpty then .noMatch else .methodNotAllowed scan.allowedMethods

def selectNestedRoute (routes : List (NestedRoute Service)) (path : Text) :
    Option (NestedRoute Service) :=
  routes.foldl (fun candidate route =>
    if route.matches_ path then keepBetter NestedRoute.isMoreSpecificThan candidate route
    else candidate) none

/-! ## What a scan selects -/

/-- More specific is better, and then earlier. -/
def rank (specificity order : Nat) : Nat ×ₗ Natᵒᵈ := toLex (specificity, OrderDual.toDual order)

variable {one other order otherOrder : Nat} {routes : List (Route Endpoint)} {path : Text} {method : Method}
  {nested : NestedRoute Service}

theorem then_eq_gt_iff :
    (compare one other).then (compare otherOrder order) = .gt ↔
      rank other otherOrder < rank one order := by
  rw [Ordering.then_eq_gt, compare_gt_iff_gt, compare_eq_iff_eq, compare_gt_iff_gt, rank, rank,
    Prod.Lex.toLex_lt_toLex]
  simp [eq_comm]

theorem rank_le_iff :
    rank other otherOrder ≤ rank one order ↔
      other < one ∨ other = one ∧ order ≤ otherOrder := by
  rw [rank, rank, Prod.Lex.toLex_le_toLex]
  simp

theorem rank_inj (same : rank one order = rank other otherOrder) : order = otherOrder :=
  (Prod.mk.inj (toLex.injective same)).2

/-- The routes that match a path, with what they match. -/
def matching (routes : List (Route Endpoint)) (path : Text) :
    List (Route Endpoint × RouteParams) :=
  routes.filterMap fun route => (route.pattern.matches_ path).map (Prod.mk route)

/-- The routes that match a request. -/
def candidates (routes : List (Route Endpoint)) (path : Text) (method : Method) :
    List (Route Endpoint × RouteParams) :=
  (matching routes path).filter fun pair => pair.1.method = method

theorem mem_matching {pair : Route Endpoint × RouteParams} : pair ∈ matching routes path ↔
      pair.1 ∈ routes ∧ pair.1.pattern.matches_ path = some pair.2 := by
  rw [matching, List.mem_filterMap]
  constructor
  · rintro ⟨route, member, isPair⟩
    obtain ⟨params, matched, rfl⟩ := Option.map_eq_some_iff.1 isPair
    exact ⟨member, matched⟩
  · rintro ⟨member, matched⟩
    exact ⟨pair.1, member, Option.map_eq_some_iff.2 ⟨pair.2, matched, rfl⟩⟩

theorem mem_candidates {pair : Route Endpoint × RouteParams} : pair ∈ candidates routes path method ↔
      pair.1 ∈ routes ∧ pair.1.pattern.matches_ path = some pair.2 ∧ pair.1.method = method := by
  rw [candidates, List.mem_filter, mem_matching, decide_eq_true_eq, and_assoc]

def isBetter (next current : Route Endpoint × RouteParams) : Bool :=
  compareRoutes next.1 current.1 = .gt

def Route.rank (route : Route Endpoint) : Nat ×ₗ Natᵒᵈ :=
  Router.rank route.pattern.staticSegments route.order

theorem isBetter_iff (next current : Route Endpoint × RouteParams) :
    isBetter next current = true ↔ current.1.rank < next.1.rank := by
  rw [isBetter, decide_eq_true_eq, compareRoutes, then_eq_gt_iff]
  rfl

def allowedMethods (routes : List (Route Endpoint)) (path : Text) : List Text :=
  orderedSet ((matching routes path).map fun pair => pair.1.method.val)

/-- The scan finds the methods and the candidate, each as if it looked for nothing else. -/
theorem foldl_scanRoute (routes : List (Route Endpoint)) (path : Text) (method : Method) :
    routes.foldl (scanRoute path method) ⟨[], none⟩ =
      ⟨allowedMethods routes path, selectBest isBetter (candidates routes path method)⟩ := by
  induction routes using List.reverseRecOn with
  | nil => rfl
  | append_singleton routes route ih =>
    rw [List.foldl_concat, ih, scanRoute]
    cases matched : route.pattern.matches_ path with
    | none => simp [allowedMethods, candidates, matching, matched]
    | some params =>
      have methods : allowedMethods (routes ++ [route]) path =
          insertOrdered (allowedMethods routes path) route.method.val := by
        simp [allowedMethods, matching, matched, orderedSet]
      by_cases sameMethod : route.method = method
      · have found : candidates (routes ++ [route]) path method =
            candidates routes path method ++ [(route, params)] := by
          simp [candidates, matching, matched, sameMethod]
        rw [methods, found, selectBest_concat, keepBetter]
        simp only [sameMethod, ne_eq, not_true_eq_false, if_false, isBetter]
        by_cases better : (selectBest isBetter (candidates routes path method)).all
            fun current => compareRoutes route current.1 = .gt
        · simp only [better, if_true]
        · simp only [better, if_false, Bool.false_eq_true]
      · have found : candidates (routes ++ [route]) path method =
            candidates routes path method := by
          simp [candidates, matching, matched, sameMethod]
        rw [methods, found]
        simp only [ne_eq, sameMethod, not_false_eq_true, if_true]

theorem selectNestedRoute_eq (routes : List (NestedRoute Service)) (path : Text) :
    selectNestedRoute routes path = selectBest NestedRoute.isMoreSpecificThan
      (routes.filter fun route => route.matches_ path) := by
  rw [selectBest, List.foldl_filter]
  rfl

/-! ## The selected route -/

/-- The route a request runs: one that matches, with the most literal segments, and of these the
one that was registered first. -/
structure IsSelected (routes : List (Route Endpoint)) (path : Text) (method : Method)
    (route : Route Endpoint) (params : RouteParams) : Prop where
  member : route ∈ routes
  matched : route.pattern.matches_ path = some params
  sameMethod : route.method = method
  best : ∀ other ∈ routes, other.method = method → other.pattern.matches_ path ≠ none →
    other.pattern.staticSegments < route.pattern.staticSegments ∨
      other.pattern.staticSegments = route.pattern.staticSegments ∧ route.order ≤ other.order

theorem isBest_candidates_iff (pair : Route Endpoint × RouteParams) :
    IsBest (fun pair => pair.1.rank) (candidates routes path method) pair ↔
      IsSelected routes path method pair.1 pair.2 := by
  constructor
  · rintro ⟨member, greatest⟩
    obtain ⟨inRoutes, matched, sameMethod⟩ := mem_candidates.1 member
    refine ⟨inRoutes, matched, sameMethod, ?_⟩
    intro other isRoute otherMethod matches_
    obtain ⟨params, otherMatched⟩ := Option.ne_none_iff_exists'.1 matches_
    exact rank_le_iff.1
      (greatest (other, params) (mem_candidates.2 ⟨isRoute, otherMatched, otherMethod⟩))
  · rintro ⟨member, matched, sameMethod, best⟩
    refine ⟨mem_candidates.2 ⟨member, matched, sameMethod⟩, ?_⟩
    intro other isCandidate
    obtain ⟨isRoute, otherMatched, otherMethod⟩ := mem_candidates.1 isCandidate
    exact rank_le_iff.2 (best other.1 isRoute otherMethod (by simp [otherMatched]))

/-- The order of a route says which it is. -/
def OrdersDiffer (routes : List (Route Endpoint)) : Prop :=
  ∀ one ∈ routes, ∀ other ∈ routes, one.order = other.order → one = other

theorem candidates_differ (ordersDiffer : OrdersDiffer routes) (path : Text) (method : Method) :
    ∀ one ∈ candidates routes path method, ∀ other ∈ candidates routes path method,
      one.1.rank = other.1.rank → one = other := by
  intro one isOne other isOther sameRank
  obtain ⟨oneRoute, oneMatched, -⟩ := mem_candidates.1 isOne
  obtain ⟨otherRoute, otherMatched, -⟩ := mem_candidates.1 isOther
  have sameRoute := ordersDiffer one.1 oneRoute other.1 otherRoute (rank_inj sameRank)
  rw [sameRoute, otherMatched] at oneMatched
  exact Prod.ext sameRoute (Option.some.inj oneMatched.symm)

theorem selectDirectRoute_eq (routes : List (Route Endpoint)) (path : Text) (method : Method) :
    selectDirectRoute routes path method =
      match selectBest isBetter (candidates routes path method) with
      | some (route, params) => .matched route params
      | none => if (allowedMethods routes path).isEmpty then .noMatch
          else .methodNotAllowed (allowedMethods routes path) := by
  rw [selectDirectRoute, foldl_scanRoute]

/-- **The route that is selected.** -/
theorem selectDirectRoute_matched (ordersDiffer : OrdersDiffer routes) {route : Route Endpoint}
    {params : RouteParams} :
    selectDirectRoute routes path method = .matched route params ↔
      IsSelected routes path method route params := by
  have found := selectBest_eq_some isBetter_iff (candidates_differ ordersDiffer path method)
    (route, params)
  rw [← isBest_candidates_iff (route, params), ← found, selectDirectRoute_eq]
  cases selectBest isBetter (candidates routes path method) with
  | none =>
    by_cases empty : (allowedMethods routes path).isEmpty
    · simp [empty]
    · simp [empty]
  | some pair => simp [Prod.ext_iff]

/-- The methods that a path allows, in order and once each. -/
structure IsAllow (routes : List (Route Endpoint)) (path : Text) (allowed : List Text) : Prop where
  ordered : allowed.Pairwise (· < ·)
  methods : ∀ name, name ∈ allowed ↔
    ∃ route ∈ routes, route.pattern.matches_ path ≠ none ∧ route.method.val = name

theorem isAllow_iff {allowed : List Text} :
    IsAllow routes path allowed ↔ allowed = allowedMethods routes path := by
  have methods : ∀ name, name ∈ (matching routes path).map (fun pair => pair.1.method.val) ↔
      ∃ route ∈ routes, route.pattern.matches_ path ≠ none ∧ route.method.val = name := by
    intro name
    rw [List.mem_map]
    constructor
    · rintro ⟨pair, member, isName⟩
      obtain ⟨isRoute, matched⟩ := mem_matching.1 member
      exact ⟨pair.1, isRoute, by simp [matched], isName⟩
    · rintro ⟨route, isRoute, matches_, isName⟩
      obtain ⟨params, matched⟩ := Option.ne_none_iff_exists'.1 matches_
      exact ⟨(route, params), mem_matching.2 ⟨isRoute, matched⟩, isName⟩
  constructor
  · rintro ⟨ordered, members⟩
    exact orderedSet_unique ordered fun name => (members name).trans (methods name).symm
  · rintro rfl
    exact ⟨pairwise_orderedSet _, fun name => mem_orderedSet.trans (methods name)⟩

theorem selectBest_candidates_eq_none : selectBest isBetter (candidates routes path method) = none ↔
      ∀ route ∈ routes, route.method = method → route.pattern.matches_ path = none := by
  rw [selectBest_eq_none isBetter_iff, List.eq_nil_iff_forall_not_mem]
  constructor
  · intro none route isRoute sameMethod
    by_contra matches_
    obtain ⟨params, matched⟩ := Option.ne_none_iff_exists'.1 matches_
    exact none (route, params) (mem_candidates.2 ⟨isRoute, matched, sameMethod⟩)
  · intro none pair isCandidate
    obtain ⟨isRoute, matched, sameMethod⟩ := mem_candidates.1 isCandidate
    rw [none pair.1 isRoute sameMethod] at matched
    cases matched

theorem allowedMethods_eq_nil :
    allowedMethods routes path = [] ↔ ∀ route ∈ routes, route.pattern.matches_ path = none := by
  have isAllow := isAllow_iff.2 (rfl : allowedMethods routes path = _)
  rw [List.eq_nil_iff_forall_not_mem]
  constructor
  · intro empty route isRoute
    by_contra matches_
    exact empty _ ((isAllow.methods _).2 ⟨route, isRoute, matches_, rfl⟩)
  · intro none name member
    obtain ⟨route, isRoute, matches_, -⟩ := (isAllow.methods name).1 member
    exact matches_ (none route isRoute)

/-- **When the method is the reason**, and what is allowed instead. -/
theorem selectDirectRoute_methodNotAllowed {allowed : List Text} :
    selectDirectRoute routes path method = .methodNotAllowed allowed ↔
      (∀ route ∈ routes, route.method = method → route.pattern.matches_ path = none) ∧
      (∃ route ∈ routes, route.pattern.matches_ path ≠ none) ∧ IsAllow routes path allowed := by
  rw [← selectBest_candidates_eq_none, isAllow_iff, selectDirectRoute_eq]
  have some_iff : (∃ route ∈ routes, route.pattern.matches_ path ≠ none) ↔
      allowedMethods routes path ≠ [] := by
    simp [allowedMethods_eq_nil]
  rw [some_iff]
  cases selectBest isBetter (candidates routes path method) with
  | some pair => simp
  | none =>
    by_cases empty : allowedMethods routes path = []
    · simp [empty]
    · rw [if_neg (by simpa using empty), DirectRouteSelection.methodNotAllowed.injEq]
      simp only [ne_eq, empty, not_false_eq_true, true_and]
      exact eq_comm

theorem selectDirectRoute_noMatch {routes : List (Route Endpoint)} {path : Text}
    {method : Method} : selectDirectRoute routes path method = .noMatch ↔
      ∀ route ∈ routes, route.pattern.matches_ path = none := by
  rw [← allowedMethods_eq_nil, selectDirectRoute_eq]
  cases found : selectBest isBetter (candidates routes path method) with
  | some pair =>
    simp only [reduceCtorEq, false_iff, allowedMethods_eq_nil]
    intro none
    have nothing := selectBest_candidates_eq_none.2
      fun route isRoute (_ : route.method = method) => none route isRoute
    rw [nothing] at found
    cases found
  | none => by_cases empty : allowedMethods routes path = [] <;> simp [empty]

/-- The order of the scan does not matter. -/
theorem selectDirectRoute_perm {others : List (Route Endpoint)} (ordersDiffer : OrdersDiffer routes)
    (same : others.Perm routes) (path : Text) (method : Method) :
    selectDirectRoute others path method = selectDirectRoute routes path method := by
  have sameMatching : (matching others path).Perm (matching routes path) := same.filterMap _
  have sameBest := selectBest_perm isBetter_iff (candidates_differ ordersDiffer path method)
    (sameMatching.filter fun pair => pair.1.method = method)
  have sameAllowed : allowedMethods others path = allowedMethods routes path := by
    refine orderedSet_unique (pairwise_orderedSet _) fun name => ?_
    exact mem_orderedSet.trans (sameMatching.map _).mem_iff
  rw [selectDirectRoute_eq, selectDirectRoute_eq, sameAllowed]
  rw [candidates, sameBest, candidates]

/-! ## The selected nest -/

/-- The nest a request goes into: one whose prefix it has, with the most segments, and of these
the one that was mounted first. -/
structure IsSelectedNest (routes : List (NestedRoute Service)) (path : Text)
    (nested : NestedRoute Service) : Prop where
  member : nested ∈ routes
  matched : nested.nestedPrefix.strip path ≠ none
  best : ∀ other ∈ routes, other.nestedPrefix.strip path ≠ none →
    other.nestedPrefix.segmentCount < nested.nestedPrefix.segmentCount ∨
      other.nestedPrefix.segmentCount = nested.nestedPrefix.segmentCount ∧
        nested.order ≤ other.order

def NestedRoute.rank (nested : NestedRoute Service) : Nat ×ₗ Natᵒᵈ :=
  Router.rank nested.nestedPrefix.segmentCount nested.order

theorem isMoreSpecificThan_iff (next current : NestedRoute Service) :
    next.isMoreSpecificThan current = true ↔ current.rank < next.rank := by
  rw [NestedRoute.isMoreSpecificThan, decide_eq_true_eq, then_eq_gt_iff]
  rfl

theorem NestedRoute.matches_iff :
    nested.matches_ path = true ↔ nested.nestedPrefix.strip path ≠ none := by
  rw [NestedRoute.matches_, Option.isSome_iff_ne_none]

theorem isBest_nested_iff {routes : List (NestedRoute Service)} :
    IsBest NestedRoute.rank (routes.filter fun route => route.matches_ path) nested ↔
      IsSelectedNest routes path nested := by
  constructor
  · rintro ⟨member, greatest⟩
    obtain ⟨isRoute, matched⟩ := List.mem_filter.1 member
    refine ⟨isRoute, NestedRoute.matches_iff.1 matched, fun other isOther otherMatched => ?_⟩
    exact rank_le_iff.1
      (greatest other (List.mem_filter.2 ⟨isOther, NestedRoute.matches_iff.2 otherMatched⟩))
  · rintro ⟨isRoute, matched, best⟩
    refine ⟨List.mem_filter.2 ⟨isRoute, NestedRoute.matches_iff.2 matched⟩, ?_⟩
    intro other member
    obtain ⟨isOther, otherMatched⟩ := List.mem_filter.1 member
    exact rank_le_iff.2 (best other isOther (NestedRoute.matches_iff.1 otherMatched))

def NestsDiffer (routes : List (NestedRoute Service)) : Prop :=
  ∀ one ∈ routes, ∀ other ∈ routes, one.order = other.order → one = other

theorem nests_differ {routes : List (NestedRoute Service)} (nestsDiffer : NestsDiffer routes)
    (path : Text) : ∀ one ∈ routes.filter (fun route => route.matches_ path),
      ∀ other ∈ routes.filter (fun route => route.matches_ path),
        one.rank = other.rank → one = other := by
  intro one isOne other isOther sameRank
  exact nestsDiffer one (List.mem_filter.1 isOne).1 other (List.mem_filter.1 isOther).1
    (rank_inj sameRank)

/-- **The nest that is selected.** -/
theorem selectNestedRoute_eq_some {routes : List (NestedRoute Service)}
    (nestsDiffer : NestsDiffer routes) :
    selectNestedRoute routes path = some nested ↔ IsSelectedNest routes path nested := by
  rw [selectNestedRoute_eq, ← isBest_nested_iff]
  exact selectBest_eq_some isMoreSpecificThan_iff (nests_differ nestsDiffer path) nested

theorem selectNestedRoute_eq_none {routes : List (NestedRoute Service)} :
    selectNestedRoute routes path = none ↔
      ∀ nested ∈ routes, nested.nestedPrefix.strip path = none := by
  rw [selectNestedRoute_eq, selectBest_eq_none isMoreSpecificThan_iff, List.filter_eq_nil_iff]
  refine forall₂_congr fun nested _ => ?_
  rw [NestedRoute.matches_iff, not_not]

theorem selectNestedRoute_perm {routes others : List (NestedRoute Service)}
    (nestsDiffer : NestsDiffer routes) (same : others.Perm routes) (path : Text) :
    selectNestedRoute others path = selectNestedRoute routes path := by
  rw [selectNestedRoute_eq, selectNestedRoute_eq]
  exact selectBest_perm isMoreSpecificThan_iff (nests_differ nestsDiffer path) (same.filter _)

end Selecting

namespace App

variable {Endpoint Service : Type}

theorem number_injective {α : Type} {items : List α} {number : α → Nat}
    (numbered : items.map number = List.range items.length) :
    ∀ one ∈ items, ∀ other ∈ items, number one = number other → one = other := by
  have nodup : (items.map number).Nodup := numbered ▸ List.nodup_range
  intro one isOne other isOther same
  exact List.inj_on_of_nodup_map nodup isOne isOther same

theorem ordersDiffer (self : App Endpoint Service) : OrdersDiffer self.routes :=
  number_injective self.numbered

theorem nestsDiffer (self : App Endpoint Service) : NestsDiffer self.nestedRoutes :=
  number_injective self.nestedNumbered

end App

end Rustee.Router
