/-
# Rustee.Mongo.TenantScope -- the tenant boundary around BSON

`rustee-mongodb/src/tenant_scope.rs`: the filter that a scope puts around a caller's, and its
checks of documents and of updates.  The caller's BSON is arbitrary; the code looks into strings,
documents and arrays only, so every other kind of value is a `leaf`.

`update_names` says what the check of an update is for: no path that an operator names begins
with the tenant field.
-/
import Rustee.Foundation.Chars

namespace Rustee.Mongo

open Rustee.Foundation

set_option autoImplicit false

inductive Bson (Leaf : Type) where
  | string (value : Text)
  | document (fields : List (Text × Bson Leaf))
  | array (values : List (Bson Leaf))
  | leaf (value : Leaf)

abbrev Document (Leaf : Type) := List (Text × Bson Leaf)

variable {Leaf : Type}

def Document.get (document : Document Leaf) (field : Text) : Option (Bson Leaf) :=
  document.lookup field

/-- `Document::insert`: in place of the field's value, or at the end. -/
def Document.insert (document : Document Leaf) (field : Text) (value : Bson Leaf) :
    Document Leaf :=
  if (document.lookup field).isSome then
    document.map fun entry => if entry.1 = field then (field, value) else entry
  else document ++ [(field, value)]

theorem lookup_replace (fields : Document Leaf) (field other : Text) (value : Bson Leaf) :
    (fields.map fun entry => if entry.1 = field then (field, value) else entry).lookup other =
      if other = field then (fields.lookup field).map fun _ => value else fields.lookup other := by
  induction fields with
  | nil => simp
  | cons entry rest ih =>
    obtain ⟨name, old⟩ := entry
    by_cases here : name = field
    · subst here
      by_cases asked : other = name
      · simp [asked]
      · have differs : (other == name) = false := beq_eq_false_iff_ne.2 asked
        simp [List.lookup_cons, asked, differs, ih]
    · by_cases asked : other = field
      · subst asked
        have differs : (other == name) = false := beq_eq_false_iff_ne.2 (Ne.symm here)
        simpa [List.lookup_cons, here, differs] using ih
      · simp [List.lookup_cons, here, asked, ih]

/-- An insert changes the field, and no other. -/
theorem Document.get_insert (document : Document Leaf) (field other : Text) (value : Bson Leaf) :
    (document.insert field value).get other =
      if other = field then some value else document.get other := by
  unfold Document.get Document.insert
  cases found : document.lookup field with
  | some old =>
    rw [Option.isSome_some, if_pos rfl, lookup_replace, found]
    rfl
  | none =>
    rw [Option.isSome_none, if_neg (by simp), List.lookup_append]
    by_cases asked : other = field
    · simp [asked, found]
    · have differs : (other == field) = false := beq_eq_false_iff_ne.2 asked
      simp [List.lookup_cons, asked, differs]

/-! ## The scope -/

def mongoTenantField : Text := "tenant_id".toList

inductive TenantScopeError where
  | tenantMismatch
  | replacementRequiresDocument
  | tenantFieldMutation
  | invalidAggregationIdentifier
  deriving DecidableEq, Repr

/-- `MongoTenantScope`, with the identifier of its `TenantContext`. -/
structure MongoTenantScope where
  tenant : Text

/-- A field that is the tenant field or a path below it. -/
def isTenantPath (field : Text) : Bool :=
  field = mongoTenantField ||
    (field.dropPrefix? mongoTenantField).any fun suffix => suffix.head? = some '.'

mutual

def containsTenantField : List (Text × Bson Leaf) → Bool
  | [] => false
  | (field, value) :: rest =>
    isTenantPath field || valueContainsTenantField value || containsTenantField rest

def valueContainsTenantField : Bson Leaf → Bool
  | .document fields => containsTenantField fields
  | .array values => valuesContainTenantField values
  | .string _ => false
  | .leaf _ => false

def valuesContainTenantField : List (Bson Leaf) → Bool
  | [] => false
  | value :: rest => valueContainsTenantField value || valuesContainTenantField rest

end

namespace MongoTenantScope

def filter (self : MongoTenantScope) (filter : Document Leaf) : Document Leaf :=
  [("$and".toList, .array [.document [(mongoTenantField, .string self.tenant)], .document filter])]

def document (self : MongoTenantScope) (document : Document Leaf) :
    Except TenantScopeError (Document Leaf) :=
  match document.get mongoTenantField with
  | none => .ok (document.insert mongoTenantField (.string self.tenant))
  | some (.string value) => if value = self.tenant then .ok document else .error .tenantMismatch
  | some _ => .error .tenantMismatch

def update (_self : MongoTenantScope) (update : Document Leaf) :
    Except TenantScopeError (Document Leaf) :=
  if update.any fun entry => entry.1.head? ≠ some '$' then .error .replacementRequiresDocument
  else if (update.any fun entry => entry.1 = "$rename".toList) || containsTenantField update then
    .error .tenantFieldMutation
  else .ok update

end MongoTenantScope

/-! ## What the checks are for -/

/-- The string in the tenant field. -/
def Document.tenant (document : Document Leaf) : Option Text :=
  match document.get mongoTenantField with
  | some (.string value) => some value
  | _ => none

theorem Document.tenant_eq_some {document : Document Leaf} {tenant : Text} :
    document.tenant = some tenant ↔ document.get mongoTenantField = some (.string tenant) := by
  unfold Document.tenant
  split
  · rename_i value found
    simp [found]
  · rename_i notString
    constructor
    · intro impossible
      cases impossible
    · intro found
      exact absurd found (notString tenant)

/-- A checked document belongs to the tenant. -/
theorem MongoTenantScope.document_tenant {scope : MongoTenantScope} {body checked : Document Leaf}
    (ok : scope.document body = .ok checked) : checked.tenant = some scope.tenant := by
  unfold MongoTenantScope.document at ok
  rw [Document.tenant_eq_some]
  split at ok
  · cases ok
    rw [Document.get_insert, if_pos rfl]
  · rename_i value found
    split at ok
    · rename_i same
      cases ok
      rw [found, same]
    · cases ok
  · cases ok

/-- The field that a path begins with. -/
def topField (path : Text) : Text := path.takeWhile fun c => c ≠ '.'

theorem isTenantPath_of_topField {path : Text} (isTenant : topField path = mongoTenantField) :
    isTenantPath path = true := by
  have whole : mongoTenantField ++ path.dropWhile (fun c => c ≠ '.') = path := by
    rw [← isTenant]
    exact List.takeWhile_append_dropWhile
  rw [isTenantPath, Bool.or_eq_true]
  cases rest : path.dropWhile (fun c => c ≠ '.') with
  | nil =>
    left
    rw [rest, List.append_nil] at whole
    simpa using whole.symm
  | cons first more =>
    right
    rw [rest] at whole
    have isDot : first = '.' := by
      have stopped := List.head_dropWhile_not (fun c : Char => decide (c ≠ '.'))
        (by rw [rest]; simp : path.dropWhile (fun c => decide (c ≠ '.')) ≠ [])
      simp only [rest, List.head_cons] at stopped
      simpa using stopped
    rw [dropPrefix?_eq_some.2 whole.symm, Option.any_some, isDot]
    rfl

/-- The paths that one operator names; a rename names its targets too. -/
def operatorPaths (operator : Text) : Bson Leaf → List Text
  | .document fields => fields.map Prod.fst ++
      if operator = "$rename".toList then
        fields.filterMap fun entry =>
          match entry.2 with
          | .string target => some target
          | _ => none
      else []
  | _ => []

def namedPaths (update : Document Leaf) : List Text :=
  update.flatMap fun entry => operatorPaths entry.1 entry.2

theorem not_isTenantPath_of_mem {fields : List (Text × Bson Leaf)}
    (checked : containsTenantField fields = false) {entry : Text × Bson Leaf}
    (member : entry ∈ fields) :
    isTenantPath entry.1 = false ∧ valueContainsTenantField entry.2 = false := by
  induction fields with
  | nil => cases member
  | cons first rest ih =>
    simp only [containsTenantField, Bool.or_eq_false_iff] at checked
    rcases List.mem_cons.1 member with rfl | member
    · exact checked.1
    · exact ih checked.2 member

/-- **What an accepted update names**: no path of the tenant field. -/
theorem update_names {scope : MongoTenantScope} {update checked : Document Leaf}
    (ok : scope.update update = .ok checked) :
    ∀ path ∈ namedPaths checked, topField path ≠ mongoTenantField := by
  unfold MongoTenantScope.update at ok
  split at ok
  · cases ok
  · split at ok
    · cases ok
    · rename_i accepted
      cases ok
      rw [Bool.or_eq_true, not_or, Bool.not_eq_true, Bool.not_eq_true] at accepted
      obtain ⟨noRename, noTenant⟩ := accepted
      intro path named isTenant
      obtain ⟨entry, member, isPath⟩ := List.mem_flatMap.1 named
      have notRename : entry.1 ≠ "$rename".toList := by
        intro isRename
        exact List.any_eq_false.1 noRename entry member (decide_eq_true isRename)
      have inside := (not_isTenantPath_of_mem noTenant member).2
      obtain ⟨operator, argument⟩ := entry
      cases argument with
      | document fields =>
        rw [operatorPaths, if_neg notRename, List.append_nil] at isPath
        obtain ⟨field, isField, rfl⟩ := List.mem_map.1 isPath
        have notTenant := (not_isTenantPath_of_mem inside isField).1
        rw [isTenantPath_of_topField isTenant] at notTenant
        cases notTenant
      | string value => cases isPath
      | array values => cases isPath
      | leaf value => cases isPath

end Rustee.Mongo
