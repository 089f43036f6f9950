/-
# Rustee.Auth.Principal -- bounded identities

`Principal` of `rustee-auth/src/principal/model.rs` with the admission rules of `admission.rs`.
Every text of a principal is admitted before it is stored, so the types carry the rules: an
identifier is neither blank nor too long, and an authorization set has at most
`maxPrincipalAuthorizationValues` such values.
-/
import Rustee.Foundation.RustStd
import Mathlib.Data.Finset.Card

namespace Rustee.Auth

open Rustee.Foundation

set_option autoImplicit false

/-- The errors of an authenticator. -/
inductive AuthError where
  | missingBearerToken
  | invalidBearerToken
  | rejectedBearerToken
  | providerUnavailable
  deriving DecidableEq, Repr

/-! ## Admission -/

def maxPrincipalIdentifierBytes : Nat := 1024

def maxPrincipalAuthorizationValueBytes : Nat := 256

def maxPrincipalAuthorizationValues : Nat := 64

inductive PrincipalError where
  | blankField (field : String)
  | valueTooLong (field : String) (maxBytes : Nat)
  | tooManyValues (field : String) (maxValues : Nat)
  deriving DecidableEq, Repr

/-- A text that is not blank and has at most `maxBytes` bytes. -/
def AdmittedText (maxBytes : Nat) : Type :=
  { text : String // isBlank text = false ∧ byteLen text ≤ maxBytes }

instance (maxBytes : Nat) : DecidableEq (AdmittedText maxBytes) :=
  inferInstanceAs (DecidableEq { _text : String // _ })

/-- `ensure_not_blank`, then `ensure_within_byte_limit`. -/
def ensureText (value field : String) (maxBytes : Nat) :
    Except PrincipalError (AdmittedText maxBytes) :=
  if blank : isBlank value = true then .error (.blankField field)
  else if long : byteLen value > maxBytes then .error (.valueTooLong field maxBytes)
  else .ok ⟨value, Bool.eq_false_iff.2 blank, Nat.le_of_not_lt long⟩

abbrev Identifier : Type := AdmittedText maxPrincipalIdentifierBytes

abbrev AuthorizationValue : Type := AdmittedText maxPrincipalAuthorizationValueBytes

abbrev AuthorizationSet : Type :=
  { values : Finset AuthorizationValue // values.card ≤ maxPrincipalAuthorizationValues }

def validateIdentifier (value field : String) : Except PrincipalError Identifier :=
  ensureText value field maxPrincipalIdentifierBytes

/-- A value that is already there may be added to a full set. -/
theorem card_insert_le_of_room {values : Finset AuthorizationValue} {value : AuthorizationValue}
    (few : values.card ≤ maxPrincipalAuthorizationValues)
    (room : ¬ (value ∉ values ∧ values.card = maxPrincipalAuthorizationValues)) :
    (insert value values).card ≤ maxPrincipalAuthorizationValues := by
  by_cases present : value ∈ values
  · rwa [Finset.insert_eq_of_mem present]
  · have notFull : values.card ≠ maxPrincipalAuthorizationValues := fun full => room ⟨present, full⟩
    rw [Finset.card_insert_of_notMem present]
    exact Nat.lt_of_le_of_ne few notFull

def insertAuthorizationValue (values : AuthorizationSet) (value field : String) :
    Except PrincipalError AuthorizationSet := do
  let value ← ensureText value field maxPrincipalAuthorizationValueBytes
  if full : value ∉ values.1 ∧ values.1.card = maxPrincipalAuthorizationValues then
    .error (.tooManyValues field maxPrincipalAuthorizationValues)
  else .ok ⟨insert value values.1, card_insert_le_of_room values.2 full⟩

/-! ## Principals -/

structure Principal where
  subject : Identifier
  issuer : Option Identifier
  tenant : Option Identifier
  scopes : AuthorizationSet
  roles : AuthorizationSet
  permissions : AuthorizationSet
  deriving DecidableEq

namespace Principal

def noValues : AuthorizationSet := ⟨∅, Nat.zero_le _⟩

def new (subject : String) : Except PrincipalError Principal := do
  let subject ← validateIdentifier subject "subject"
  .ok ⟨subject, none, none, noValues, noValues, noValues⟩

def withIssuer (principal : Principal) (issuer : String) : Except PrincipalError Principal := do
  let issuer ← validateIdentifier issuer "issuer"
  .ok { principal with issuer := some issuer }

def withTenant (principal : Principal) (tenant : String) : Except PrincipalError Principal := do
  let tenant ← validateIdentifier tenant "tenant"
  .ok { principal with tenant := some tenant }

def withScope (principal : Principal) (scope : String) : Except PrincipalError Principal := do
  let scopes ← insertAuthorizationValue principal.scopes scope "scopes"
  .ok { principal with scopes }

def withRole (principal : Principal) (role : String) : Except PrincipalError Principal := do
  let roles ← insertAuthorizationValue principal.roles role "roles"
  .ok { principal with roles }

def withPermission (principal : Principal) (permission : String) :
    Except PrincipalError Principal := do
  let permissions ← insertAuthorizationValue principal.permissions permission "permissions"
  .ok { principal with permissions }

def fromVerifiedClaims (subject issuer : String) (tenant : Option String)
    (scopes roles permissions : List String) : Except PrincipalError Principal := do
  let principal ← new subject
  let principal ← principal.withIssuer issuer
  let principal ← match tenant with
    | some tenant => principal.withTenant tenant
    | none => .ok principal
  let principal ← scopes.foldlM withScope principal
  let principal ← roles.foldlM withRole principal
  permissions.foldlM withPermission principal

end Principal

end Rustee.Auth
