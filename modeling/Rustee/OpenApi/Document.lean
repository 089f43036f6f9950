/-
# Rustee.OpenApi.Document -- the operations of a document

`OpenApiDocument` of `rustee-openapi/src/document.rs`.  A document refuses a second operation for a
method and a *rendered* path, while the router refuses a second route for a method and an
*equivalent* pattern.  The name of a parameter is part of the rendered path and no part of the
pattern, so a document can hold two operations that the router takes for one, as in
`two_names_accepted`.

`document_unambiguous_iff` says that this is the only difference: a document can be registered as
one application exactly when equal templates up to names are given equal names.
-/
import Rustee.OpenApi.Route
import Rustee.Router.App

namespace Rustee.OpenApi

open Rustee.Foundation
open Rustee.Router (Segment RoutePattern App RouteError)

set_option autoImplicit false

inductive OpenApiMethod where
  | get
  | post
  | put
  | patch
  | delete
  | head
  | options
  deriving DecidableEq, Repr

/-- The method of the router's routes. -/
def OpenApiMethod.asMethod : OpenApiMethod → Router.Method
  | .get => ⟨"GET".toList, by decide +kernel⟩
  | .post => ⟨"POST".toList, by decide +kernel⟩
  | .put => ⟨"PUT".toList, by decide +kernel⟩
  | .patch => ⟨"PATCH".toList, by decide +kernel⟩
  | .delete => ⟨"DELETE".toList, by decide +kernel⟩
  | .head => ⟨"HEAD".toList, by decide +kernel⟩
  | .options => ⟨"OPTIONS".toList, by decide +kernel⟩

theorem OpenApiMethod.asMethod_inj {one other : OpenApiMethod} (same : one.asMethod = other.asMethod) :
    one = other := by
  cases one <;> cases other <;> first | rfl | exact absurd same (by decide +kernel)

/-! ## Security requirements -/

structure OpenApiOAuthFlow where
  scopes : List Text
  deriving DecidableEq

inductive OpenApiSecurityScheme where
  | httpBasic
  | httpBearer
  | apiKey
  | openIdConnect
  | oAuth2 (flows : List OpenApiOAuthFlow)
  | mutualTls
  deriving DecidableEq

def OpenApiSecurityScheme.validateRequiredScopes (self : OpenApiSecurityScheme) (scopes : List Text) :
    Except OpenApiError Unit :=
  if scopes.isEmpty || self = .openIdConnect then .ok ()
  else
    match self with
    | .oAuth2 flows =>
      if scopes.all fun scope => flows.any fun flow => scope ∈ flow.scopes then .ok ()
      else .error .unknownOAuthScope
    | _ => .error .securityScopesNotAllowed

structure OpenApiSecurityRequirement where
  schemes : List (Text × List Text)
  deriving DecidableEq

/-! ## Operations -/

inductive OpenApiParameterLocation where
  | path
  | query
  | header
  deriving DecidableEq

structure OpenApiParameter where
  name : Text
  location : OpenApiParameterLocation
  deriving DecidableEq

structure OpenApiOperation where
  operationId : Text
  parameters : List OpenApiParameter
  security : Option (List OpenApiSecurityRequirement)
  deriving DecidableEq

def OpenApiOperation.pathParameterNames (self : OpenApiOperation) : Finset Text :=
  ((self.parameters.filter fun parameter => parameter.location = .path).map
    OpenApiParameter.name).toFinset

structure OpenApiDocument where
  paths : Text → OpenApiMethod → Option OpenApiOperation
  operationIds : Finset Text
  securitySchemes : Text → Option OpenApiSecurityScheme
  security : List OpenApiSecurityRequirement

namespace OpenApiDocument

def new : OpenApiDocument := ⟨fun _ _ => none, ∅, fun _ => none, []⟩

def validateIdentifier (value : Text) (field : String) : Except OpenApiError Unit :=
  if value.isEmpty || value.length > 1024 ||
      !value.all (fun c => c.isAlphanum || c = '.' || c = '-' || c = '_') then
    .error (.invalidIdentifier field)
  else .ok ()

def securityScheme (self : OpenApiDocument) (name : Text) (scheme : OpenApiSecurityScheme) :
    Except OpenApiError OpenApiDocument := do
  validateIdentifier name "security scheme name"
  if (self.securitySchemes name).isSome then .error .duplicateSecurityScheme
  else .ok { self with securitySchemes := Function.update self.securitySchemes name (some scheme) }

def validateSecurityRequirements (self : OpenApiDocument)
    (requirements : List OpenApiSecurityRequirement) : Except OpenApiError Unit :=
  requirements.forM fun requirement => requirement.schemes.forM fun (name, scopes) =>
    match self.securitySchemes name with
    | none => .error .unknownSecurityScheme
    | some scheme => scheme.validateRequiredScopes scopes

def globalSecurityRequirement (self : OpenApiDocument) (requirement : OpenApiSecurityRequirement) :
    Except OpenApiError OpenApiDocument := do
  self.validateSecurityRequirements [requirement]
  return { self with security := self.security ++ [requirement] }

/-- The tables after an operation was added. -/
def withOperation (self : OpenApiDocument) (path : Text) (method : OpenApiMethod)
    (operation : OpenApiOperation) : OpenApiDocument :=
  { self with
    paths := Function.update self.paths path
      (Function.update (self.paths path) method (some operation))
    operationIds := insert operation.operationId self.operationIds }

def operation (self : OpenApiDocument) (route : OpenApiRoute) (method : OpenApiMethod)
    (operation : OpenApiOperation) : Except OpenApiError OpenApiDocument :=
  if route.parameters ≠ operation.pathParameterNames then
    .error (if route.parameters ⊆ operation.pathParameterNames then .extraneousPathParameter
      else .missingPathParameter)
  else
    match self.validateSecurityRequirements (operation.security.getD []) with
    | .error error => .error error
    | .ok _ =>
      if (self.paths route.path method).isSome then .error .duplicateOperation
      else if operation.operationId ∈ self.operationIds then .error .duplicateOperationId
      else .ok (self.withOperation route.path method operation)

/-! ## Building a document -/

/-- An operation for a route template. -/
structure Registration where
  template : Text
  method : OpenApiMethod
  operation : OpenApiOperation

inductive Call where
  | securityScheme (name : Text) (scheme : OpenApiSecurityScheme)
  | globalSecurityRequirement (requirement : OpenApiSecurityRequirement)
  | operation (registration : Registration)

def Call.apply (self : OpenApiDocument) : Call → Except OpenApiError OpenApiDocument
  | .securityScheme name scheme => self.securityScheme name scheme
  | .globalSecurityRequirement requirement => self.globalSecurityRequirement requirement
  | .operation registration =>
    match OpenApiRoute.fromRustee registration.template with
    | .error error => .error error
    | .ok route => self.operation route registration.method registration.operation

def build (calls : List Call) : Except OpenApiError OpenApiDocument := calls.foldlM Call.apply new

def registrations (calls : List Call) : List Registration :=
  calls.filterMap fun
    | .operation registration => some registration
    | _ => none

/-- The same operations as the routes of an application. -/
def registerRoutes {Endpoint Service : Type} (handler : Registration → Endpoint)
    (app : App Endpoint Service) (registrations : List Registration) :
    Except RouteError (App Endpoint Service) :=
  registrations.foldlM (fun app registration =>
    app.tryRoute registration.method.asMethod registration.template (handler registration)) app

/-! ## What a document holds -/

variable {after document : OpenApiDocument} {template path : Text} {entries : List Registration}

theorem operation_eq_ok {self : OpenApiDocument} {route : OpenApiRoute} {method : OpenApiMethod}
    {operation : OpenApiOperation} (added : self.operation route method operation = .ok after) :
    self.paths route.path method = none ∧ after = self.withOperation route.path method operation := by
  unfold OpenApiDocument.operation at added
  split at added
  · cases added
  · split at added
    · cases added
    · split at added
      · cases added
      · rename_i absent
        split at added
        · cases added
        · cases added
          exact ⟨by simpa using absent, rfl⟩

/-- A template is rendered as this path. -/
def Renders (template path : Text) : Prop :=
  ∃ route, OpenApiRoute.fromRustee template = .ok route ∧ route.path = path

theorem Renders.unique {path' : Text} (one : Renders template path) (other : Renders template path') :
    path = path' := by
  obtain ⟨route, isRoute, rfl⟩ := one
  obtain ⟨route', isRoute', rfl⟩ := other
  cases isRoute.symm.trans isRoute'
  rfl

/-- What the registrations left in a document. -/
structure Recorded (entries : List Registration) (document : OpenApiDocument) : Prop where
  rendered : ∀ entry ∈ entries, ∃ path, Renders entry.template path
  listed : ∀ path method, (document.paths path method).isSome = true ↔
    ∃ entry ∈ entries, entry.method = method ∧ Renders entry.template path
  apart : entries.Pairwise fun one other => one.method = other.method →
    ∀ path, Renders one.template path → ¬Renders other.template path

/-- Nothing else touches the paths. -/
theorem Recorded.congr (recorded : Recorded entries document) (same : after.paths = document.paths) :
    Recorded entries after :=
  ⟨recorded.rendered, by rw [same]; exact recorded.listed, recorded.apart⟩

theorem Recorded.withOperation (recorded : Recorded entries document) {entry : Registration}
    (renders : Renders entry.template path) (absent : document.paths path entry.method = none) :
    Recorded (entries ++ [entry]) (document.withOperation path entry.method entry.operation) where
  rendered := List.forall_mem_append.2 ⟨recorded.rendered, by simpa using ⟨path, renders⟩⟩
  listed other method := by
    simp only [OpenApiDocument.withOperation, Function.update_apply, List.mem_append,
      List.mem_singleton, or_and_right, exists_or, exists_eq_left, ← recorded.listed]
    by_cases same : other = path
    · subst same
      by_cases sameMethod : method = entry.method
      · simp [sameMethod, renders]
      · simp [sameMethod, Ne.symm sameMethod]
    · have elsewhere : ¬Renders entry.template other := fun renders' => same (renders'.unique renders)
      simp [same, elsewhere]
  apart := by
    refine List.pairwise_append.2 ⟨recorded.apart, List.pairwise_singleton _ _, ?_⟩
    rintro one member other isEntry sameMethod path' renders' mine
    rw [List.mem_singleton.1 isEntry] at sameMethod mine
    have taken := (recorded.listed path' one.method).2 ⟨one, member, rfl, renders'⟩
    rw [mine.unique renders, sameMethod, absent] at taken
    cases taken

theorem Recorded.apply (recorded : Recorded entries document) {call : Call}
    (applied : call.apply document = .ok after) :
    Recorded (entries ++ registrations [call]) after := by
  cases call with
  | securityScheme name scheme =>
    simp only [Call.apply, OpenApiDocument.securityScheme, bind_eq_ok] at applied
    obtain ⟨-, -, applied⟩ := applied
    split at applied
    · cases applied
    · cases applied
      exact (List.append_nil entries).symm ▸ recorded.congr rfl
  | globalSecurityRequirement requirement =>
    simp only [Call.apply, OpenApiDocument.globalSecurityRequirement, bind_eq_ok] at applied
    obtain ⟨-, -, applied⟩ := applied
    cases applied
    exact (List.append_nil entries).symm ▸ recorded.congr rfl
  | operation entry =>
    simp only [Call.apply] at applied
    split at applied
    · cases applied
    · rename_i route isRoute
      obtain ⟨absent, rfl⟩ := operation_eq_ok applied
      exact recorded.withOperation ⟨route, isRoute, rfl⟩ absent

/-- Every document that was built holds its registrations. -/
theorem recorded_build {calls : List Call} (built : build calls = .ok document) :
    Recorded (registrations calls) document := by
  induction calls using List.reverseRecOn generalizing document with
  | nil =>
    cases built
    exact ⟨by simp [registrations], by simp [registrations, new], .nil⟩
  | append_singleton calls call ih =>
    rw [build, List.foldlM_append, bind_eq_ok] at built
    obtain ⟨before, built, applied⟩ := built
    rw [List.foldlM_cons, bind_eq_ok] at applied
    obtain ⟨after, applied, finished⟩ := applied
    cases finished
    simpa [registrations] using (ih built).apply applied

/-! ## Ambiguity -/

/-- The path stands for the paths that this pattern matches. -/
def StandsFor (path : Text) (pattern : RoutePattern) : Prop :=
  ∃ template, Renders template path ∧ RoutePattern.parse template = .ok pattern

/-- No two operations of a method match the same request paths. -/
def Unambiguous (document : OpenApiDocument) : Prop :=
  ∀ method path path' pattern pattern', (document.paths path method).isSome = true →
    (document.paths path' method).isSome = true → StandsFor path pattern →
    StandsFor path' pattern' → pattern.isEquivalentTo pattern' = true → path = path'

/-- Templates of one method that are equal up to the names of parameters are equal. -/
def NamedAlike (entries : List Registration) : Prop :=
  ∀ one ∈ entries, ∀ other ∈ entries, one.method = other.method → ∀ pattern pattern',
    RoutePattern.parse one.template = .ok pattern → RoutePattern.parse other.template = .ok pattern' →
    pattern.isEquivalentTo pattern' = true → pattern.segments = pattern'.segments

theorem Renders.exists_pattern (renders : Renders template path) :
    ∃ pattern, RoutePattern.parse template = .ok pattern ∧
      path = OpenApiRoute.pathOf pattern.segments := by
  obtain ⟨route, isRoute, rfl⟩ := renders
  obtain ⟨-, -, pattern, isPattern, rfl⟩ := OpenApiRoute.fromRustee_eq_ok.1 isRoute
  exact ⟨pattern, isPattern, rfl⟩

/-- A path says which segments it stands for. -/
theorem segments_eq_of_renders {template' : Text} {pattern pattern' : RoutePattern}
    (renders : Renders template path) (renders' : Renders template' path)
    (isPattern : RoutePattern.parse template = .ok pattern)
    (isPattern' : RoutePattern.parse template' = .ok pattern') :
    pattern.segments = pattern'.segments := by
  obtain ⟨route, isRoute, rfl⟩ := renders
  obtain ⟨route', isRoute', same⟩ := renders'
  obtain ⟨noOpen, -, found, isFound, rfl⟩ := OpenApiRoute.fromRustee_eq_ok.1 isRoute
  obtain ⟨noOpen', -, found', isFound', rfl⟩ := OpenApiRoute.fromRustee_eq_ok.1 isRoute'
  cases isPattern.symm.trans isFound
  cases isPattern'.symm.trans isFound'
  exact (OpenApiRoute.pathOf_inj (OpenApiRoute.isPlain_of_parse noOpen' isPattern')
    (OpenApiRoute.isPlain_of_parse noOpen isPattern) same).symm

theorem isEquivalentTo_congr {one one' other other' : RoutePattern} (same : one.segments = one'.segments)
    (same' : other.segments = other'.segments) :
    one.isEquivalentTo other = one'.isEquivalentTo other' := by
  rw [RoutePattern.isEquivalentTo, RoutePattern.isEquivalentTo, same, same']

theorem unambiguous_iff (recorded : Recorded entries document) :
    document.Unambiguous ↔ NamedAlike entries := by
  constructor
  · intro unambiguous one isOne other isOther sameMethod pattern pattern' isPattern isPattern' equivalent
    obtain ⟨path, renders⟩ := recorded.rendered one isOne
    obtain ⟨path', renders'⟩ := recorded.rendered other isOther
    have same : path = path' := unambiguous other.method path path' pattern pattern'
      ((recorded.listed _ _).2 ⟨one, isOne, sameMethod, renders⟩)
      ((recorded.listed _ _).2 ⟨other, isOther, rfl, renders'⟩)
      ⟨_, renders, isPattern⟩ ⟨_, renders', isPattern'⟩ equivalent
    exact segments_eq_of_renders renders (same ▸ renders') isPattern isPattern'
  · rintro alike method path path' pattern pattern' listed listed' ⟨template, stands, isPattern⟩
      ⟨template', stands', isPattern'⟩ equivalent
    obtain ⟨one, isOne, rfl, renders⟩ := (recorded.listed _ _).1 listed
    obtain ⟨other, isOther, sameMethod, renders'⟩ := (recorded.listed _ _).1 listed'
    obtain ⟨found, isFound, rfl⟩ := renders.exists_pattern
    obtain ⟨found', isFound', rfl⟩ := renders'.exists_pattern
    refine congrArg OpenApiRoute.pathOf
      (alike one isOne other isOther sameMethod.symm _ _ isFound isFound' ?_)
    rwa [isEquivalentTo_congr (segments_eq_of_renders renders stands isFound isPattern)
      (segments_eq_of_renders renders' stands' isFound' isPattern')]

/-! ## One application -/

/-- Two registrations that one application takes. -/
def Separate (one other : Registration) : Prop :=
  one.method = other.method → ∀ pattern pattern', RoutePattern.parse one.template = .ok pattern →
    RoutePattern.parse other.template = .ok pattern' → pattern.isEquivalentTo pattern' = false

theorem separate_of_namedAlike (recorded : Recorded entries document) (alike : NamedAlike entries) :
    entries.Pairwise Separate := by
  refine recorded.apart.imp_of_mem ?_
  intro one other isOne isOther apart sameMethod pattern pattern' isPattern isPattern'
  by_contra equivalent
  rw [Bool.not_eq_false] at equivalent
  have same := alike one isOne other isOther sameMethod pattern pattern' isPattern isPattern' equivalent
  obtain ⟨path, renders⟩ := recorded.rendered one isOne
  obtain ⟨path', renders'⟩ := recorded.rendered other isOther
  obtain ⟨found, isFound, rfl⟩ := renders.exists_pattern
  obtain ⟨found', isFound', rfl⟩ := renders'.exists_pattern
  cases isPattern.symm.trans isFound
  cases isPattern'.symm.trans isFound'
  exact apart sameMethod _ renders (same ▸ renders')

/-- Routes that are pairwise separate are all taken. -/
theorem registerRoutes_ok {Endpoint Service : Type} (handler : Registration → Endpoint)
    (parsed : ∀ entry ∈ entries, ∃ pattern, RoutePattern.parse entry.template = .ok pattern)
    (separate : entries.Pairwise Separate) (app : App Endpoint Service)
    (free : ∀ route ∈ app.routes, ∀ entry ∈ entries, route.method = entry.method.asMethod →
      ∀ pattern, RoutePattern.parse entry.template = .ok pattern →
      route.pattern.isEquivalentTo pattern = false) :
    ∃ after, registerRoutes handler app entries = .ok after := by
  induction entries generalizing app with
  | nil => exact ⟨app, rfl⟩
  | cons entry rest ih =>
    obtain ⟨mine, others⟩ := List.forall_mem_cons.1 parsed
    obtain ⟨apart, separate⟩ := List.pairwise_cons.1 separate
    obtain ⟨pattern, isPattern⟩ := mine
    obtain ⟨next, taken, routes⟩ := app.tryRoute_eq_ok entry.method.asMethod entry.template
      (handler entry) pattern isPattern fun route isRoute sameMethod =>
        free route isRoute entry List.mem_cons_self sameMethod pattern isPattern
    obtain ⟨after, registered⟩ := ih others separate next (by
      rw [routes]
      refine List.forall_mem_append.2 ⟨fun route isRoute other isOther =>
        free route isRoute other (List.mem_cons_of_mem _ isOther), ?_⟩
      intro route isRoute other isOther sameMethod pattern' isPattern'
      rw [List.mem_singleton.1 isRoute] at sameMethod ⊢
      exact apart other isOther (OpenApiMethod.asMethod_inj sameMethod) _ _ isPattern isPattern')
    refine ⟨after, ?_⟩
    rw [registerRoutes, List.foldlM_cons, taken]
    exact registered

/-- **When a document is unambiguous.**  Its operations can then be registered as one application. -/
theorem document_unambiguous_iff {Endpoint Service : Type} (handler : Registration → Endpoint)
    {calls : List Call} {document : OpenApiDocument} (built : build calls = .ok document) :
    (document.Unambiguous ∧ ∃ app : App Endpoint Service,
      registerRoutes handler App.new (registrations calls) = .ok app) ↔
    NamedAlike (registrations calls) := by
  have recorded := recorded_build built
  rw [unambiguous_iff recorded]
  refine and_iff_left_of_imp fun alike => ?_
  refine registerRoutes_ok handler (fun entry member => ?_) (separate_of_namedAlike recorded alike)
    App.new (by simp [App.new])
  obtain ⟨path, renders⟩ := recorded.rendered entry member
  obtain ⟨pattern, isPattern, -⟩ := renders.exists_pattern
  exact ⟨pattern, isPattern⟩

/-- `GET` of a template with one parameter. -/
def getOne (operationId template name : String) : Call :=
  .operation ⟨template.toList, .get, ⟨operationId.toList, [⟨name.toList, .path⟩], none⟩⟩

theorem parse_users_id : RoutePattern.parse "/users/:id".toList =
    .ok ⟨[.static "users".toList, .parameter "id".toList], 1⟩ := by decide +kernel

theorem document_unambiguous_iff_users : ∃ document : OpenApiDocument,
    build [getOne "getUser" "/users/:id" "id", getOne "getTodo" "/todos/:id" "id"] = .ok document ∧
      document.Unambiguous := by
  have isTodo : RoutePattern.parse "/todos/:id".toList =
      .ok ⟨[.static "todos".toList, .parameter "id".toList], 1⟩ := by decide +kernel
  have built : (build [getOne "getUser" "/users/:id" "id", getOne "getTodo" "/todos/:id" "id"]).isOk =
      true := by decide +kernel
  cases isDocument : build [getOne "getUser" "/users/:id" "id", getOne "getTodo" "/todos/:id" "id"] with
  | error error => simp [isDocument, Except.isOk, Except.toBool] at built
  | ok document =>
    refine ⟨document, rfl, ((@document_unambiguous_iff Unit Unit (fun _ => ()) _ _ isDocument).2 ?_).1⟩
    intro one isOne other isOther sameMethod pattern pattern' isPattern isPattern' equivalent
    simp only [registrations, getOne, List.filterMap_cons, List.filterMap_nil, List.mem_cons,
      List.not_mem_nil, or_false] at isOne isOther
    rcases isOne with rfl | rfl <;> rcases isOther with rfl | rfl
    · cases isPattern.symm.trans isPattern'
      rfl
    · cases isPattern.symm.trans parse_users_id
      cases isPattern'.symm.trans isTodo
      exact absurd equivalent (by decide +kernel)
    · cases isPattern.symm.trans isTodo
      cases isPattern'.symm.trans parse_users_id
      exact absurd equivalent (by decide +kernel)
    · cases isPattern.symm.trans isPattern'
      rfl

/-- Two operations for the same requests: the second parameter has another name. -/
theorem two_names_accepted : ∃ document : OpenApiDocument,
    build [getOne "getUser" "/users/:id" "id", getOne "findUser" "/users/:name" "name"] =
        .ok document ∧ ¬document.Unambiguous ∧
      (registerRoutes (fun _ => ()) (App.new : App Unit Unit) (registrations
        [getOne "getUser" "/users/:id" "id", getOne "findUser" "/users/:name" "name"])).isOk = false := by
  have isName : RoutePattern.parse "/users/:name".toList =
      .ok ⟨[.static "users".toList, .parameter "name".toList], 1⟩ := by decide +kernel
  have built : (build [getOne "getUser" "/users/:id" "id",
      getOne "findUser" "/users/:name" "name"]).isOk = true := by decide +kernel
  cases isDocument : build [getOne "getUser" "/users/:id" "id",
      getOne "findUser" "/users/:name" "name"] with
  | error error => simp [isDocument, Except.isOk, Except.toBool] at built
  | ok document =>
    refine ⟨document, rfl, fun unambiguous => ?_, by decide +kernel⟩
    have alike := (unambiguous_iff (recorded_build isDocument)).1 unambiguous
    have same := alike _ List.mem_cons_self _ (List.mem_cons_of_mem _ List.mem_cons_self) rfl _ _
      parse_users_id isName (by decide +kernel)
    exact absurd same (by decide +kernel)

end OpenApiDocument

end Rustee.OpenApi
