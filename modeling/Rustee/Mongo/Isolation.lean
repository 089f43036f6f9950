/-
# Rustee.Mongo.Isolation -- what a tenant's operations leave alone

A collection, and the operations that a scope makes of a caller's filters and bodies.  The
server is a parameter: `Server.Documented` says the four things about it that the boundary
rests on, all of the tenant field alone.  An operation on many documents is one step for each
document it gets to, in the server's order; an operation that fails has no step.

A string in a filter also matches an array that has it.  So a document whose tenant field is an
array with the scope's tenant in it can be replaced, and then has another tenant field
(`array_tenant_replaced`).  From every collection without such documents, and over every run, what
other tenants have stays as it is, no document changes its tenant field, and what is new is the
scope's (`tenant_isolation`).
-/
import Rustee.Foundation.Machine
import Rustee.Mongo.TenantScope

namespace Rustee.Mongo

open Rustee.Foundation

set_option autoImplicit false
set_option linter.unusedSectionVars false

/-! ## The server -/

/-- What a MongoDB server does with filters and updates. -/
structure Server (Id Leaf : Type) where
  isMatch : Document Leaf → Id → Document Leaf → Bool
  /-- An update on a document, or on one that an upsert inserts. -/
  applyUpdate : (inserting : Bool) → Document Leaf → Document Leaf → Option (Document Leaf)
  /-- The document that an upsert begins with. -/
  upsertSeed : Document Leaf → Option (Document Leaf)

/-- The documented behaviour that the boundary rests on. -/
structure Server.Documented {Id Leaf : Type} (server : Server Id Leaf) : Prop where
  /-- `$and` is conjunction. -/
  conjunction : ∀ one other id document,
    server.isMatch [("$and".toList, .array [.document one, .document other])] id document =
      (server.isMatch one id document && server.isMatch other id document)
  /-- A string matches that string, and arrays that have it. -/
  equality : ∀ tenant id document,
    server.isMatch [(mongoTenantField, .string tenant)] id document = true →
      document.get mongoTenantField = some (.string tenant) ∨
        ∃ values, document.get mongoTenantField = some (.array values) ∧ .string tenant ∈ values
  /-- Update operators change only the paths they name. -/
  named : ∀ inserting update before after,
    server.applyUpdate inserting update before = some after →
      (∀ path ∈ namedPaths update, topField path ≠ mongoTenantField) →
        after.get mongoTenantField = before.get mongoTenantField
  /-- An upsert takes equality fields from the filter. -/
  seeded : ∀ tenant other seed,
    server.upsertSeed [("$and".toList, .array [.document [(mongoTenantField, .string tenant)],
      .document other])] = some seed → seed.get mongoTenantField = some (.string tenant)

/-! ## Operations of a scope -/

abbrev Collection (Id Leaf : Type) := Id → Option (Document Leaf)

inductive Operation (Id Leaf : Type) where
  | insert (id : Id) (body : Document Leaf)
  /-- Replaces the document `id`, which matches. -/
  | replace (filter : Document Leaf) (id : Id) (body : Document Leaf)
  /-- A replacement that found nothing to replace. -/
  | upsertReplace (filter : Document Leaf) (id : Id) (body : Document Leaf)
  | update (filter : Document Leaf) (id : Id) (update : Document Leaf)
  | upsertUpdate (filter : Document Leaf) (id : Id) (update : Document Leaf)
  | delete (filter : Document Leaf) (id : Id)

section Operations

variable {Id Leaf : Type} [DecidableEq Id]

/-- Creates the document `id`. -/
def create (collection : Collection Id Leaf) (id : Id) (document : Document Leaf) :
    Option (Collection Id Leaf × Unit) :=
  match collection id with
  | none => some (Function.update collection id (some document), ())
  | some _ => none

/-- Changes the document `id`, if the filter of the scope matches it. -/
def modify (server : Server Id Leaf) (scope : MongoTenantScope) (collection : Collection Id Leaf)
    (filter : Document Leaf) (id : Id) (change : Document Leaf → Option (Option (Document Leaf))) :
    Option (Collection Id Leaf × Unit) :=
  match collection id with
  | none => none
  | some old =>
    if server.isMatch (scope.filter filter) id old then
      (change old).map fun document => (Function.update collection id document, ())
    else none

def step (server : Server Id Leaf) (scope : MongoTenantScope) (collection : Collection Id Leaf) :
    Operation Id Leaf → Option (Collection Id Leaf × Unit)
  | .insert id body =>
    match scope.document body with
    | .error _ => none
    | .ok document => create collection id document
  | .replace filter id body =>
    match scope.document body with
    | .error _ => none
    | .ok document => modify server scope collection filter id fun _ => some (some document)
  | .upsertReplace _ id body =>
    match scope.document body with
    | .error _ => none
    | .ok document => create collection id document
  | .update filter id update =>
    match scope.update update with
    | .error _ => none
    | .ok update => modify server scope collection filter id fun old =>
      (server.applyUpdate false update old).map some
  | .upsertUpdate filter id update =>
    match scope.update update with
    | .error _ => none
    | .ok update =>
      match server.upsertSeed (scope.filter filter) with
      | none => none
      | some seed => (server.applyUpdate true update seed).bind (create collection id)
  | .delete filter id => modify server scope collection filter id fun _ => some none

/-- No document has the tenant as one of several. -/
def Protected (tenant : Text) (collection : Collection Id Leaf) : Prop :=
  ∀ id document values, collection id = some document →
    document.get mongoTenantField = some (.array values) → .string tenant ∉ values

def tenantMachine (server : Server Id Leaf) (scope : MongoTenantScope) :
    Machine (Collection Id Leaf) (Operation Id Leaf) Unit where
  initial := Protected scope.tenant
  step := step server scope

/-! ## Isolation -/

/-- What may be different between two states of a collection. -/
structure Isolated (tenant : Text) (before after : Collection Id Leaf) : Prop where
  /-- Documents of other tenants are as they were. -/
  others : ∀ id document, before id = some document → document.tenant ≠ some tenant →
    after id = some document
  /-- A document has the tenant field that it had. -/
  kept : ∀ id document later, before id = some document → after id = some later →
    later.get mongoTenantField = document.get mongoTenantField
  /-- What is new belongs to the tenant. -/
  created : ∀ id document, before id = none → after id = some document →
    document.tenant = some tenant

/-- With `Isolated`, the field and the tenant say the same. -/
theorem Document.tenant_congr {one other : Document Leaf}
    (same : one.get mongoTenantField = other.get mongoTenantField) : one.tenant = other.tenant := by
  rw [Document.tenant, Document.tenant, same]

variable {tenant : Text} {before after : Collection Id Leaf} {id : Id} {server : Server Id Leaf}
  {scope : MongoTenantScope}

theorem Document.get_congr {one other : Document Leaf} (isOne : one.tenant = some tenant)
    (isOther : other.tenant = some tenant) :
    one.get mongoTenantField = other.get mongoTenantField := by
  rw [Document.tenant_eq_some.1 isOne, Document.tenant_eq_some.1 isOther]

theorem Isolated.refl (tenant : Text) (collection : Collection Id Leaf) :
    Isolated tenant collection collection := by
  refine ⟨fun id document found _ => found, ?_, ?_⟩
  · intro id document later found foundLater
    rw [found] at foundLater
    cases foundLater
    rfl
  · intro id document absent found
    rw [absent] at found
    cases found

/-- Between the two, a document may have gone and come back: it was the tenant's. -/
theorem Isolated.trans {middle : Collection Id Leaf} (first : Isolated tenant before middle)
    (second : Isolated tenant middle after) :
    Isolated tenant before after := by
  refine ⟨?_, ?_, ?_⟩
  · intro id document found other
    exact second.others id document (first.others id document found other) other
  · intro id document later found foundLater
    cases between : middle id with
    | some same =>
      exact (second.kept id same later between foundLater).trans
        (first.kept id document same found between)
    | none =>
      refine Document.get_congr (second.created id later between foundLater) ?_
      by_contra other
      rw [first.others id document found other] at between
      cases between
  · intro id document absent found
    cases between : middle id with
    | none => exact second.created id document between found
    | some same =>
      rw [Document.tenant_congr (second.kept id same document between found)]
      exact first.created id same absent between

/-! ## One step -/

theorem isolated_create {document : Document Leaf}
    (created : create before id document = some (after, ()))
    (belongs : document.tenant = some tenant) : Isolated tenant before after := by
  unfold create at created
  split at created
  · rename_i fresh
    cases created
    have elsewhere : ∀ other found, before other = some found →
        Function.update before id (some document) other = before other := by
      intro other found isFound
      refine Function.update_of_ne ?_ _ _
      rintro rfl
      rw [fresh] at isFound
      cases isFound
    refine ⟨?_, ?_, ?_⟩
    · intro other found isFound _
      rw [elsewhere other found isFound, isFound]
    · intro other found later isFound isLater
      rw [elsewhere other found isFound, isFound] at isLater
      cases isLater
      rfl
    · intro other later absent isLater
      rw [Function.update_apply] at isLater
      split at isLater
      · cases isLater
        exact belongs
      · rw [absent] at isLater
        cases isLater
  · cases created

/-- The scope's filter matches documents of its tenant. -/
theorem tenant_of_isMatch (documented : server.Documented) {collection : Collection Id Leaf}
    (isProtected : Protected scope.tenant collection) {filter document : Document Leaf}
    (found : collection id = some document)
    (matched : server.isMatch (scope.filter filter) id document = true) :
    document.tenant = some scope.tenant := by
  rw [MongoTenantScope.filter, documented.conjunction, Bool.and_eq_true] at matched
  rcases documented.equality scope.tenant id document matched.1 with mine | ⟨values, isArray, among⟩
  · exact Document.tenant_eq_some.2 mine
  · exact absurd among (isProtected id document values found isArray)

theorem isolated_modify (documented : server.Documented) (isProtected : Protected scope.tenant before)
    {filter : Document Leaf} {change : Document Leaf → Option (Option (Document Leaf))}
    (keeps : ∀ old new, old.tenant = some scope.tenant → change old = some (some new) →
      new.tenant = some scope.tenant)
    (modified : modify server scope before filter id change = some (after, ())) :
    Isolated scope.tenant before after := by
  unfold modify at modified
  split at modified
  · cases modified
  · rename_i old isOld
    split at modified
    · rename_i matched
      obtain ⟨result, changed, isAfter⟩ := Option.map_eq_some_iff.1 modified
      cases isAfter
      have mine := tenant_of_isMatch documented isProtected isOld matched
      refine ⟨?_, ?_, ?_⟩
      · intro other document found notMine
        have elsewhere : other ≠ id := by
          rintro rfl
          rw [isOld] at found
          cases found
          exact notMine mine
        rw [Function.update_of_ne elsewhere, found]
      · intro other document later found isLater
        rw [Function.update_apply] at isLater
        split at isLater
        · rename_i here
          subst here
          subst isLater
          rw [isOld] at found
          cases found
          exact Document.get_congr (keeps old later mine changed) mine
        · rw [found] at isLater
          cases isLater
          rfl
      · intro other document absent isLater
        have elsewhere : other ≠ id := by
          rintro rfl
          rw [isOld] at absent
          cases absent
        rw [Function.update_of_ne elsewhere, absent] at isLater
        cases isLater
    · cases modified

/-- An accepted update leaves the tenant field alone. -/
theorem applyUpdate_tenant (documented : server.Documented) {update checked : Document Leaf}
    (ok : scope.update update = .ok checked) {inserting : Bool} {before after : Document Leaf}
    (applied : server.applyUpdate inserting checked before = some after) :
    after.tenant = before.tenant :=
  Document.tenant_congr (documented.named inserting checked before after applied (update_names ok))

theorem isolated_step (documented : server.Documented) (isProtected : Protected scope.tenant before)
    {operation : Operation Id Leaf} (stepped : step server scope before operation = some (after, ())) :
    Isolated scope.tenant before after := by
  cases operation with
  | insert id body =>
    simp only [step] at stepped
    split at stepped
    · cases stepped
    · rename_i document ok
      exact isolated_create stepped (MongoTenantScope.document_tenant ok)
  | replace filter id body =>
    simp only [step] at stepped
    split at stepped
    · cases stepped
    · rename_i document ok
      refine isolated_modify documented isProtected ?_ stepped
      intro old new _ changed
      cases changed
      exact MongoTenantScope.document_tenant ok
  | upsertReplace filter id body =>
    simp only [step] at stepped
    split at stepped
    · cases stepped
    · rename_i document ok
      exact isolated_create stepped (MongoTenantScope.document_tenant ok)
  | update filter id update =>
    simp only [step] at stepped
    split at stepped
    · cases stepped
    · rename_i checked ok
      refine isolated_modify documented isProtected ?_ stepped
      intro old new mine changed
      obtain ⟨result, applied, same⟩ := Option.map_eq_some_iff.1 changed
      cases same
      rw [applyUpdate_tenant documented ok applied, mine]
  | upsertUpdate filter id update =>
    simp only [step] at stepped
    split at stepped
    · cases stepped
    · rename_i checked ok
      split at stepped
      · cases stepped
      · rename_i seed isSeed
        obtain ⟨document, applied, created⟩ := Option.bind_eq_some_iff.1 stepped
        refine isolated_create created ?_
        rw [applyUpdate_tenant documented ok applied, Document.tenant_eq_some]
        exact documented.seeded _ _ seed isSeed
  | delete filter id =>
    refine isolated_modify documented isProtected ?_ stepped
    intro old new _ changed
    cases changed

theorem Isolated.isProtected (isolated : Isolated tenant before after)
    (isProtected : Protected tenant before) : Protected tenant after := by
  intro id document values found isArray
  cases earlier : before id with
  | none =>
    have mine := Document.tenant_eq_some.1 (isolated.created id document earlier found)
    rw [isArray] at mine
    cases mine
  | some old =>
    refine isProtected id old values earlier ?_
    rw [← isolated.kept id old document earlier found, isArray]

/-! ## Every run -/

theorem protected_run (documented : server.Documented) {collection : Collection Id Leaf}
    {trace : List (Operation Id Leaf × Unit)}
    (run : (tenantMachine server scope).Reaches collection trace) :
    Protected scope.tenant collection := by
  induction run with
  | start initial => exact initial
  | next _ _ stepped ih => exact (isolated_step documented ih stepped).isProtected ih

/-- **Tenant isolation.**  Between any two states of any run of a scope's operations, documents
of other tenants are the same, documents keep their tenant, and new ones are the scope's. -/
theorem tenant_isolation (server : Server Id Leaf) (documented : server.Documented)
    (scope : MongoTenantScope) {earlier later : Collection Id Leaf}
    {trace operations : List (Operation Id Leaf × Unit)}
    (run : (tenantMachine server scope).Reaches earlier trace)
    (path : (tenantMachine server scope).Path earlier operations later) :
    Isolated scope.tenant earlier later := by
  have both : Isolated scope.tenant earlier later ∧ Protected scope.tenant later := by
    induction path with
    | refl => exact ⟨.refl scope.tenant _, protected_run documented run⟩
    | next path stepped ih =>
      obtain ⟨isolated, isProtected⟩ := ih
      have one := isolated_step documented isProtected stepped
      exact ⟨isolated.trans one, one.isProtected isProtected⟩
  exact both.1

end Operations

/-! ## A server -/

def isText (value : Text) : Bson Unit → Bool
  | .string held => held = value
  | _ => false

def holdsText (value : Text) : Bson Unit → Bool
  | .array values => values.any (isText value)
  | held => isText value held

theorem eq_of_isText {value : Text} {held : Bson Unit} (same : isText value held = true) :
    held = .string value := by
  cases held with
  | string text => rw [of_decide_eq_true same]
  | document | array | leaf => cases same

mutual

/-- Equality with strings, also among the values of an array, and `$and`. -/
def matchFields (document : Document Unit) : List (Text × Bson Unit) → Bool
  | [] => true
  | (field, value) :: rest => matchField document field value && matchFields document rest

def matchField (document : Document Unit) (field : Text) : Bson Unit → Bool
  | .array values => if field = "$and".toList then matchAll document values else false
  | .string value => (document.get field).any (holdsText value)
  | .document _ => false
  | .leaf _ => false

def matchAll (document : Document Unit) : List (Bson Unit) → Bool
  | [] => true
  | .document fields :: rest => matchFields document fields && matchAll document rest
  | _ :: _ => false

end

/-- `$set` of whole fields. -/
def setFields (document : Document Unit) (entry : Text × Bson Unit) : Option (Document Unit) :=
  match entry.2 with
  | .document fields =>
    if entry.1 = "$set".toList ∧ ∀ field ∈ fields, '.' ∉ field.1 then
      some (fields.foldl (fun document field => document.insert field.1 field.2) document)
    else none
  | _ => none

/-- The one equality field of a scope's filter around an empty one. -/
def seedOf : Document Unit → Option (Document Unit)
  | [(_, .array [.document [(field, .string value)], .document []])] =>
    some [(field, .string value)]
  | _ => none

/-- What MongoDB does with equality filters, `$set` and upserts by a bare scope. -/
def plainServer : Server Nat Unit where
  isMatch filter _ document := matchFields document filter
  applyUpdate _ update document := update.foldlM setFields document
  upsertSeed := seedOf

theorem get_foldl_insert (fields : List (Text × Bson Unit)) (document : Document Unit)
    {field : Text} (unnamed : ∀ entry ∈ fields, entry.1 ≠ field) :
    Document.get (fields.foldl (fun document field => document.insert field.1 field.2) document)
      field = document.get field := by
  induction fields generalizing document with
  | nil => rfl
  | cons entry rest ih =>
    obtain ⟨notHere, notLater⟩ := List.forall_mem_cons.1 unnamed
    rw [List.foldl_cons, ih _ notLater, Document.get_insert, if_neg (Ne.symm notHere)]

theorem topField_of_plain {path : Text} (plain : '.' ∉ path) : topField path = path := by
  unfold topField
  induction path with
  | nil => rfl
  | cons first rest ih =>
    rw [List.mem_cons, not_or] at plain
    rw [List.takeWhile_cons_of_pos (by simpa using Ne.symm plain.1), ih plain.2]

theorem plainServer_named {update before after : Document Unit} {field : Text}
    (applied : update.foldlM setFields before = some after)
    (unnamed : ∀ path ∈ namedPaths update, topField path ≠ field) :
    after.get field = before.get field := by
  induction update generalizing before with
  | nil =>
    cases applied
    rfl
  | cons entry rest ih =>
    rw [List.foldlM_cons] at applied
    obtain ⟨next, first, later⟩ := Option.bind_eq_some_iff.1 applied
    rw [namedPaths, List.flatMap_cons, List.forall_mem_append] at unnamed
    rw [ih later unnamed.2]
    unfold setFields at first
    split at first
    · rename_i fields isFields
      split at first
      · rename_i plain
        cases first
        refine get_foldl_insert fields before fun named member => ?_
        have path : named.1 ∈ operatorPaths entry.1 entry.2 := by
          rw [isFields]
          exact List.mem_append_left _ (List.mem_map_of_mem member)
        have differs := unnamed.1 named.1 path
        rwa [topField_of_plain (plain.2 named member)] at differs
      · cases first
    · cases first

theorem plainServer_documented : plainServer.Documented := by
  refine ⟨?_, ?_, ?_, ?_⟩
  · intro one other id document
    simp [plainServer, matchFields, matchField, matchAll]
  · intro tenant id document matched
    have isHeld : (document.get mongoTenantField).any (holdsText tenant) = true := by
      simpa [plainServer, matchFields, matchField] using matched
    obtain ⟨held, isField, holds⟩ := (Option.any_eq_true _ _).1 isHeld
    rw [isField]
    cases held with
    | array values =>
      obtain ⟨value, member, same⟩ := List.any_eq_true.1 holds
      exact .inr ⟨values, rfl, eq_of_isText same ▸ member⟩
    | string | document | leaf => exact .inl (congrArg some (eq_of_isText holds))
  · intro inserting update before after applied unnamed
    exact plainServer_named applied unnamed
  · intro tenant other seed isSeed
    cases other with
    | nil =>
      cases isSeed
      simp [Document.get]
    | cons entry rest => cases isSeed

/-- A document of another tenant, and one without any. -/
def neighbour : Collection Nat Unit := fun id =>
  if id = 0 then some [(mongoTenantField, .string "b".toList)]
  else if id = 1 then some [("x".toList, .leaf ())] else none

theorem neighbour_protected : Protected "a".toList neighbour := by
  intro id document values found isArray
  unfold neighbour at found
  split at found
  · rw [← Option.some.inj found] at isArray
    simp [Document.get] at isArray
  · split at found
    · have absent : Document.get [("x".toList, (.leaf () : Bson Unit))] mongoTenantField = none := rfl
      rw [← Option.some.inj found, absent] at isArray
      cases isArray
    · cases found

def setX : Document Unit := [("$set".toList, .document [("x".toList, .string "y".toList)])]

/-- Tenant `a` inserts, updates and deletes next to them, and upserts when it has none. -/
theorem tenant_isolation_neighbour :
    ∃ later, (tenantMachine plainServer ⟨"a".toList⟩).Path neighbour
        [(.insert 2 [], ()), (.update [] 2 setX, ()), (.delete [] 2, ()),
          (.upsertUpdate [] 3 setX, ())] later ∧ Isolated "a".toList neighbour later := by
  have performed : ∃ later, (tenantMachine plainServer ⟨"a".toList⟩).Path neighbour
      [(.insert 2 [], ()), (.update [] 2 setX, ()), (.delete [] 2, ()),
        (.upsertUpdate [] 3 setX, ())] later :=
    ⟨_, .next (.next (.next (.next (.refl neighbour) rfl) rfl) rfl) rfl⟩
  obtain ⟨later, path⟩ := performed
  exact ⟨later, path,
    tenant_isolation plainServer plainServer_documented _ (.start neighbour_protected) path⟩

/-- A document that two tenants share. -/
def shared : Collection Nat Unit
  | 0 => some [(mongoTenantField, .array [.string "a".toList, .string "b".toList])]
  | _ => none

/-- **A shared document is taken over.**  The filter of tenant `a` matches it, and what replaces it
is of tenant `a` alone. -/
theorem array_tenant_replaced :
    plainServer.Documented ∧
      ∃ later, step plainServer ⟨"a".toList⟩ shared (.replace [] 0 []) = some (later, ()) ∧
        ∃ old new, shared 0 = some old ∧ later 0 = some new ∧ old.tenant ≠ some "a".toList ∧
          new.get mongoTenantField ≠ old.get mongoTenantField := by
  refine ⟨plainServer_documented, _, rfl, _, _, rfl, rfl, ?_, ?_⟩
  · simp [Document.tenant, Document.get]
  · simp [Document.get, Document.insert]

end Rustee.Mongo
