/-
# Rustee.Auth.Credential -- API-key credentials and what a registration stores

`rustee-auth-sqlx`: `src/model.rs`, `registration_storage` of `src/store/registration.rs` and
the columns and checks of its two migrations.  Instants are microseconds of the database
clock.  The principal is any type with the two directions of its JSON codec and the text
that `PostgreSQL` gives back for a stored document.
-/
import Rustee.Foundation.RustStd

namespace Rustee.Auth

open Rustee.Foundation

set_option autoImplicit false

abbrev Fingerprint := BitVec 256

/-- How a principal is written, kept and read. -/
structure PrincipalCodec (Principal : Type) where
  /-- `serde_json::to_string`. -/
  serialize : Principal → Option String
  /-- The `principal::text` of a stored document; not every text can be stored. -/
  stored : String → Option String
  /-- `serde_json::from_str`. -/
  parse : String → Option Principal

/-- `PostgresApiKeyStoreError`, with the two errors of `authenticate_fingerprint`. -/
inductive StoreError where
  | duplicateFingerprint
  | missingActiveRecord
  | invalidExpiry
  | invalidPrincipal
  | storage
  | rejectedApiKey
  | providerUnavailable
  deriving DecidableEq, Repr

/-- `ApiKeyRegistration`; the expiry is a `SystemTime`, in nanoseconds from the epoch. -/
structure ApiKeyRegistration (Principal : Type) where
  fingerprint : Fingerprint
  principal : Principal
  expiresAt : Option Int

def maxSerializedPrincipalBytes : Nat := 512 * 1024

/-- `system_time_unix_seconds`. -/
def systemTimeUnixSeconds (nanos : Int) : Except StoreError Int :=
  if nanos < 0 then .error .invalidExpiry
  else
    match checkedI64 (nanos / 1000000000) with
    | some seconds => .ok seconds
    | none => .error .invalidExpiry

/-- What `registration_storage` binds. -/
structure StoredRegistration where
  fingerprint : Fingerprint
  principal : String
  expiresAt : Option Int

/-- `registration_storage`. -/
def registrationStorage {Principal : Type} (codec : PrincipalCodec Principal)
    (registration : ApiKeyRegistration Principal) : Except StoreError StoredRegistration :=
  match codec.serialize registration.principal with
  | none => .error .invalidPrincipal
  | some principal =>
    if byteLen principal > maxSerializedPrincipalBytes then .error .invalidPrincipal
    else
      match registration.expiresAt.mapM systemTimeUnixSeconds with
      | .error error => .error error
      | .ok expiresAt => .ok ⟨registration.fingerprint, principal, expiresAt⟩

/-! ## Rows -/

/-- The columns that the table's last check ties together. -/
inductive CredentialStatus where
  | active
  | revoked (revokedAt : Int)
  deriving DecidableEq, Repr

/-- A row of `rustee_api_key_credentials` under its `key_id`. -/
structure Credential where
  fingerprint : Fingerprint
  principal : String
  status : CredentialStatus
  expiresAt : Option Int
  lastUsedAt : Option Int
  lastUsedCount : Nat
  deriving DecidableEq, Repr

/-- The first second that a `timestamptz` cannot hold. -/
def endOfTimestamps : Int := 9224318016000

/-- The row an insert adds; `none` when a check of the table or `to_timestamp` refuses it. -/
def newCredential {Principal : Type} (codec : PrincipalCodec Principal)
    (registration : StoredRegistration) : Option Credential :=
  (codec.stored registration.principal).bind fun text =>
    if byteLen text ≤ maxSerializedPrincipalBytes ∧
        ∀ seconds ∈ registration.expiresAt, seconds < endOfTimestamps then
      some ⟨registration.fingerprint, text, .active, registration.expiresAt.map (· * 1000000), none, 0⟩
    else none

namespace Credential

/-- `status = 'active'`. -/
def isActive (row : Credential) : Bool := row.status = .active

/-- `expires_at IS NULL OR expires_at > clock_timestamp()`. -/
def unexpired (now : Int) (row : Credential) : Bool := ∀ expiry ∈ row.expiresAt, now < expiry

/-- Active, unexpired, and of a bounded principal. -/
def eligible (now : Int) (row : Credential) : Bool :=
  row.isActive && row.unexpired now && decide (byteLen row.principal ≤ maxSerializedPrincipalBytes)

end Credential

end Rustee.Auth
