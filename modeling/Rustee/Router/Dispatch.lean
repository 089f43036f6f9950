/-
# Rustee.Router.Dispatch -- what becomes of a request

`dispatch` of `rustee-router/src/dispatch.rs`: direct routes first, then nests, then the
fallback.  `Dispatched` says what should become of a request without saying how it is found,
and `dispatch_spec` that this is what does.
-/
import Rustee.Router.App

namespace Rustee.Router

open Rustee.Foundation

set_option autoImplicit false

variable {Endpoint Service : Type}

/-! ## The code -/

/-- `HeaderValue::from_str`: visible ASCII, spaces and tabs. -/
def headerValueFromStr (text : Text) : Option Text :=
  if text.all fun c => 32 ≤ c.toNat && c.toNat < 127 || c = '\t' then some text else none

def dispatch (app : App Endpoint Service) (request : Request) : Reply Endpoint Service :=
  match selectDirectRoute app.routes request.path request.method with
  | .matched route params =>
    let template := routeTemplateForRequest request route.template
    .endpoint route.endpoint { request with routeTemplate := some template } params
      (.matched template)
  | .methodNotAllowed allowed =>
    .error 405 "method_not_allowed" "the route does not support this HTTP method"
      (headerValueFromStr ([',', ' '].intercalate allowed)) (some .methodNotAllowed)
  | .noMatch =>
    match selectNestedRoute app.nestedRoutes request.path with
    | some nested => nested.call request
    | none =>
      match app.fallback with
      | some handler => .endpoint handler request [] .fallback
      | none =>
        .error 404 "not_found" "the requested route was not found" none (some .notFound)

/-! ## What should become of a request -/

/-- `text` is the names, with a comma and a space between them. -/
inductive Joined : List Text → Text → Prop where
  | last (name : Text) : Joined [name] name
  | more (name : Text) {names : List Text} {text : Text} (rest : Joined names text) :
      Joined (name :: names) (name ++ ',' :: ' ' :: text)

inductive Dispatched (app : App Endpoint Service) (request : Request) :
    Reply Endpoint Service → Prop where
  /-- The selected route runs, with the template that a client sees. -/
  | direct {route : Route Endpoint} {params : RouteParams}
      (selected : IsSelected app.routes request.path request.method route params) :
      Dispatched app request (.endpoint route.endpoint
        { request with routeTemplate := some (routeTemplateForRequest request route.template) }
        params (.matched (routeTemplateForRequest request route.template)))
  /-- Routes match, of other methods. -/
  | methodNotAllowed {allowed : List Text} {allow : Text}
      (noRoute : ∀ route ∈ app.routes, route.method = request.method →
        route.pattern.matches_ request.path = none)
      (someRoute : ∃ route ∈ app.routes, route.pattern.matches_ request.path ≠ none)
      (isAllow : IsAllow app.routes request.path allowed) (joined : Joined allowed allow) :
      Dispatched app request (.error 405 "method_not_allowed"
        "the route does not support this HTTP method" (some allow) (some .methodNotAllowed))
  /-- No route matches, and a nest does. -/
  | nested {nested : NestedRoute Service} {service : Service} {inner : Request}
      (noRoute : ∀ route ∈ app.routes, route.pattern.matches_ request.path = none)
      (selected : IsSelectedNest app.nestedRoutes request.path nested)
      (entered : enter request nested.nestedPrefix = some inner)
      (available : nested.service = some service) :
      Dispatched app request (.service service inner)
  /-- The same, and the lock of its service is poisoned. -/
  | unavailable {nested : NestedRoute Service}
      (noRoute : ∀ route ∈ app.routes, route.pattern.matches_ request.path = none)
      (selected : IsSelectedNest app.nestedRoutes request.path nested)
      (poisoned : nested.service = none) :
      Dispatched app request (.error 500 "nested_service_unavailable"
        "the nested service is unavailable" none none)
  | fallback {handler : Endpoint}
      (noRoute : ∀ route ∈ app.routes, route.pattern.matches_ request.path = none)
      (noNest : ∀ nested ∈ app.nestedRoutes, nested.nestedPrefix.strip request.path = none)
      (isFallback : app.fallback = some handler) :
      Dispatched app request (.endpoint handler request [] .fallback)
  | notFound
      (noRoute : ∀ route ∈ app.routes, route.pattern.matches_ request.path = none)
      (noNest : ∀ nested ∈ app.nestedRoutes, nested.nestedPrefix.strip request.path = none)
      (noFallback : app.fallback = none) :
      Dispatched app request
        (.error 404 "not_found" "the requested route was not found" none (some .notFound))

/-! ## The header -/

theorem joined_iff {names : List Text} {text : Text} :
    Joined names text ↔ names ≠ [] ∧ text = [',', ' '].intercalate names := by
  constructor
  · intro joined
    induction joined with
    | last name => simp
    | @more name names text rest ih =>
      obtain ⟨nonempty, rfl⟩ := ih
      obtain ⟨first, others, rfl⟩ := List.exists_cons_of_ne_nil nonempty
      simp [List.intercalate]
  · rintro ⟨nonempty, rfl⟩
    induction names with
    | nil => exact absurd rfl nonempty
    | cons name rest ih =>
      cases rest with
      | nil => simpa using Joined.last name
      | cons next others =>
        have more := Joined.more name (ih (List.cons_ne_nil next others))
        simpa [List.intercalate] using more

variable {allowed : List Text}

/-- Joined methods are a header value. -/
theorem headerValueFromStr_joined (tokens : ∀ name ∈ allowed, name.all isTokenChar = true) {allow : Text}
    (joined : Joined allowed allow) : headerValueFromStr allow = some allow := by
  have visible : ∀ c ∈ allow, 32 ≤ c.toNat ∧ c.toNat < 127 := by
    have token {name : Text} (isToken : name.all isTokenChar = true) :
        ∀ c ∈ name, 32 ≤ c.toNat ∧ c.toNat < 127 := by
      intro c inside
      have codes := isTokenChar_visible (List.all_eq_true.1 isToken c inside)
      omega
    induction joined with
    | last name => exact token (tokens name List.mem_cons_self)
    | @more name names text rest ih =>
      have later := ih fun other member => tokens other (List.mem_cons_of_mem name member)
      rw [List.forall_mem_append, List.forall_mem_cons, List.forall_mem_cons]
      exact ⟨token (tokens name List.mem_cons_self), by decide, by decide, later⟩
  rw [headerValueFromStr, if_pos]
  rw [List.all_eq_true]
  intro c inside
  simp [visible c inside]

theorem IsAllow.tokens {routes : List (Route Endpoint)} {path : Text}
    (isAllow : IsAllow routes path allowed) : ∀ name ∈ allowed, name.all isTokenChar = true := by
  intro name member
  obtain ⟨route, -, -, rfl⟩ := (isAllow.methods name).1 member
  exact route.method.property.2

theorem IsAllow.ne_nil {routes : List (Route Endpoint)} {path : Text}
    (isAllow : IsAllow routes path allowed)
    (someRoute : ∃ route ∈ routes, route.pattern.matches_ path ≠ none) : allowed ≠ [] := by
  obtain ⟨route, isRoute, matched⟩ := someRoute
  exact List.ne_nil_of_mem ((isAllow.methods _).2 ⟨route, isRoute, matched, rfl⟩)

/-! ## The code does it -/

/-- The code gives nothing else. -/
theorem dispatched_dispatch (app : App Endpoint Service) (request : Request) :
    Dispatched app request (dispatch app request) := by
  unfold dispatch
  cases selection : selectDirectRoute app.routes request.path request.method with
  | matched route params =>
    exact .direct ((selectDirectRoute_matched app.ordersDiffer).1 selection)
  | methodNotAllowed allowed =>
    obtain ⟨noRoute, someRoute, isAllow⟩ := selectDirectRoute_methodNotAllowed.1 selection
    have joined := joined_iff.2 ⟨isAllow.ne_nil someRoute, rfl⟩
    simp only [headerValueFromStr_joined isAllow.tokens joined]
    exact .methodNotAllowed noRoute someRoute isAllow joined
  | noMatch =>
    have noRoute := selectDirectRoute_noMatch.1 selection
    cases nest : selectNestedRoute app.nestedRoutes request.path with
    | some nested =>
      have selected := (selectNestedRoute_eq_some app.nestsDiffer).1 nest
      obtain ⟨path, stripped⟩ := Option.ne_none_iff_exists'.1 selected.matched
      have entered : enter request nested.nestedPrefix = some _ :=
        Option.map_eq_some_iff.2 ⟨path, stripped, rfl⟩
      simp only [NestedRoute.call, entered]
      cases available : nested.service with
      | none => exact .unavailable noRoute selected available
      | some service => exact .nested noRoute selected entered available
    | none =>
      have noNest := selectNestedRoute_eq_none.1 nest
      cases isFallback : app.fallback with
      | some handler => exact .fallback noRoute noNest isFallback
      | none => exact .notFound noRoute noNest isFallback

/-- And one reply is all that can become of a request. -/
theorem dispatch_eq_of_dispatched {app : App Endpoint Service} {request : Request}
    {reply : Reply Endpoint Service} (dispatched : Dispatched app request reply) :
    dispatch app request = reply := by
  have direct := @selectDirectRoute_noMatch Endpoint app.routes request.path request.method
  cases dispatched with
  | direct selected =>
    simp only [dispatch, (selectDirectRoute_matched app.ordersDiffer).2 selected]
  | methodNotAllowed noRoute someRoute isAllow joined =>
    simp only [dispatch, selectDirectRoute_methodNotAllowed.2 ⟨noRoute, someRoute, isAllow⟩,
      ← (joined_iff.1 joined).2, headerValueFromStr_joined isAllow.tokens joined]
  | nested noRoute selected entered available =>
    simp only [dispatch, direct.2 noRoute, (selectNestedRoute_eq_some app.nestsDiffer).2 selected,
      NestedRoute.call, entered, available]
  | unavailable noRoute selected poisoned =>
    obtain ⟨path, stripped⟩ := Option.ne_none_iff_exists'.1 selected.matched
    simp only [dispatch, direct.2 noRoute, (selectNestedRoute_eq_some app.nestsDiffer).2 selected,
      NestedRoute.call, enter, stripped, Option.map_some, poisoned]
  | fallback noRoute noNest isFallback =>
    simp only [dispatch, direct.2 noRoute, selectNestedRoute_eq_none.2 noNest, isFallback]
  | notFound noRoute noNest noFallback =>
    simp only [dispatch, direct.2 noRoute, selectNestedRoute_eq_none.2 noNest, noFallback]

/-- **What becomes of a request**, for every application: the best direct route of its method,
405 with the methods of the direct routes that match, the best nest, the fallback, 404; and the
order in which routes are looked at does not matter. -/
theorem dispatch_spec (app : App Endpoint Service) (request : Request) :
    (∀ reply, dispatch app request = reply ↔ Dispatched app request reply) ∧
      (∀ routes, List.Perm routes app.routes →
        selectDirectRoute routes request.path request.method =
          selectDirectRoute app.routes request.path request.method) ∧
      ∀ nestedRoutes, List.Perm nestedRoutes app.nestedRoutes →
        selectNestedRoute nestedRoutes request.path =
          selectNestedRoute app.nestedRoutes request.path := by
  refine ⟨fun reply => ⟨?_, dispatch_eq_of_dispatched⟩, ?_, ?_⟩
  · rintro rfl
    exact dispatched_dispatch app request
  · intro routes same
    exact selectDirectRoute_perm app.ordersDiffer same request.path request.method
  · intro nestedRoutes same
    exact selectNestedRoute_perm app.nestsDiffer same request.path

end Rustee.Router
