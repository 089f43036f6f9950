/-
# Rustee.McpOAuth.Records -- the two records that are stored encrypted

`McpOAuthPendingAuthorization` of `rustee-ai-mcp-oauth/src/authorization/transaction.rs` and
`McpOAuthTokenSecrets` of `src/tokens.rs`, with their `Serialize` and `Deserialize`.  Both carry the
checks that every way to make one goes through, and both readers make them again.

The reader of a transaction also asks the clock: an expiry more than an hour ahead is refused.  So a
transaction is read back as long as it is not that far ahead (`pending_fromJson`), and tokens always
(`secrets_fromJson`).  `url::Url` is a parameter; a URL is read back from its text.
-/
import Rustee.Foundation.FieldSyntax
import Rustee.Foundation.Json
import Rustee.Foundation.Utf8

namespace Rustee.McpOAuth

open Rustee.Foundation

set_option autoImplicit false

def maxUrlBytes : Nat := 2 * 1024

def maxHttpBearerTokenBytes : Nat := 16 * 1024

/-- `MAX_TRANSACTION_TTL.as_secs()`. -/
def maxTransactionTtlSeconds : Nat := 60 * 60

def i64Max : Nat := 9223372036854775807

/-! ## URLs -/

inductive Host where
  | domain (name : String)
  | ipv4 (first second third fourth : UInt8)
  | ipv6 (address : Nat)
  deriving DecidableEq, Repr

/-- What the records use of `url::Url`. -/
structure UrlApi (Url : Type) where
  parse : String → Option Url
  asStr : Url → String
  scheme : Url → String
  host : Url → Option Host
  username : Url → String
  password : Url → Option String
  query : Url → Option String
  fragment : Url → Option String
  parse_asStr : ∀ url, parse (asStr url) = some url

def isLoopbackHost : Option Host → Bool
  | some (.domain name) => Text.toAsciiLowercase name.toList == "localhost".toList
  | some (.ipv4 first _ _ _) => first == 127
  | some (.ipv6 address) => address == 1
  | none => false

variable {Url : Type} (api : UrlApi Url)

def validResourceUrl (value : Url) : Bool :=
  decide (byteLen (api.asStr value) ≤ maxUrlBytes) &&
    (api.scheme value == "http" || api.scheme value == "https") &&
    (api.host value).isSome &&
    (api.username value).isEmpty &&
    (api.password value).isNone &&
    (api.query value).isNone &&
    (api.fragment value).isNone &&
    (api.scheme value == "https" || isLoopbackHost (api.host value))

/-- A URL as a field. -/
def readUrl (value : Json) : Option Url := value.asString.bind api.parse

/-! ## Transactions -/

def isValidOauthAuthorizationValue (value : String) : Bool :=
  decide (43 ≤ byteLen value ∧ byteLen value ≤ 128) &&
    value.toList.all fun c => c.isAlphanum || "-._~".toList.contains c

/-- The expiry is past, or an hour ahead at most. -/
def validExpiry (now expiresAtUnixSeconds : UInt64) : Bool :=
  (checkedSub expiresAtUnixSeconds.toNat now.toNat).all fun remaining =>
    remaining ≤ maxTransactionTtlSeconds

/-- `has_valid_fields`, but for the expiry. -/
def validFields (state codeVerifier : String) (tokenEndpoint resource : Url) : Bool :=
  isValidOauthAuthorizationValue state && isValidOauthAuthorizationValue codeVerifier &&
    validResourceUrl api tokenEndpoint && validResourceUrl api resource

/-- `begin` makes one with fields it has checked, and so does the reader. -/
structure McpOAuthPendingAuthorization where
  state : String
  codeVerifier : String
  tokenEndpoint : Url
  resource : Url
  expiresAtUnixSeconds : UInt64
  valid : validFields api state codeVerifier tokenEndpoint resource = true

namespace McpOAuthPendingAuthorization

variable {api}

def toJson (value : McpOAuthPendingAuthorization api) : Json :=
  .object [("state", .string value.state), ("code_verifier", .string value.codeVerifier),
    ("token_endpoint", .string (api.asStr value.tokenEndpoint)),
    ("resource", .string (api.asStr value.resource)),
    ("expires_at_unix_seconds", .ofU64 value.expiresAtUnixSeconds)]

/-- `deserialize`, at a time of the clock. -/
def fromJson (now : UInt64) (json : Json) : Option (McpOAuthPendingAuthorization api) := do
  match ← json.structFields
      ["state", "code_verifier", "token_endpoint", "resource", "expires_at_unix_seconds"] with
  | [state, codeVerifier, tokenEndpoint, resource, expiresAt] =>
    let state ← Json.required Json.asString state
    let codeVerifier ← Json.required Json.asString codeVerifier
    let tokenEndpoint ← Json.required (readUrl api) tokenEndpoint
    let resource ← Json.required (readUrl api) resource
    let expiresAt ← Json.required Json.asU64 expiresAt
    if valid : validFields api state codeVerifier tokenEndpoint resource = true then
      if validExpiry now expiresAt then some ⟨state, codeVerifier, tokenEndpoint, resource, expiresAt, valid⟩
      else none
    else none
  | _ => none

/-- A transaction is read back as long as its expiry is not too far ahead of the clock. -/
theorem pending_fromJson (now : UInt64) (value : McpOAuthPendingAuthorization api) :
    fromJson now value.toJson = if validExpiry now value.expiresAtUnixSeconds then some value else none := by
  have fields : value.toJson.structFields
      ["state", "code_verifier", "token_endpoint", "resource", "expires_at_unix_seconds"] =
      some [some (.string value.state), some (.string value.codeVerifier),
        some (.string (api.asStr value.tokenEndpoint)), some (.string (api.asStr value.resource)),
        some (.ofU64 value.expiresAtUnixSeconds)] := rfl
  simp [fromJson, fields, readUrl, api.parse_asStr, value.valid]

end McpOAuthPendingAuthorization

/-! ## Tokens -/

def isValidHttpBearerValue (value : String) : Bool :=
  !isBlank value && decide (byteLen value ≤ maxHttpBearerTokenBytes) &&
    (Text.bytes ("Bearer ".toList ++ value.toList)).all isHeaderByte

def isValidOpaqueToken (value : String) : Bool :=
  !isBlank value && decide (byteLen value ≤ maxHttpBearerTokenBytes) &&
    (Text.bytes value.toList).all fun byte => 32 ≤ byte && byte != 127

/-- `validate`: the fields, and an expiry that a `SystemTime` can hold. -/
def validSecrets (resource : Url) (accessToken : String) (expiresAtUnixSeconds : Option UInt64)
    (refreshToken : Option String) : Bool :=
  validResourceUrl api resource && isValidHttpBearerValue accessToken &&
    refreshToken.all isValidOpaqueToken && expiresAtUnixSeconds.all fun seconds => seconds.toNat ≤ i64Max

/-- `into_secrets` makes one of a token set that was checked, and so does the reader. -/
structure McpOAuthTokenSecrets where
  resource : Url
  accessToken : String
  expiresAtUnixSeconds : Option UInt64
  refreshToken : Option String
  valid : validSecrets api resource accessToken expiresAtUnixSeconds refreshToken = true

namespace McpOAuthTokenSecrets

variable {api}

def toJson (value : McpOAuthTokenSecrets api) : Json :=
  .object [("resource", .string (api.asStr value.resource)), ("access_token", .string value.accessToken),
    ("expires_at_unix_seconds", value.expiresAtUnixSeconds.elim .null .ofU64),
    ("refresh_token", .ofOption value.refreshToken)]

def fromJson (json : Json) : Option (McpOAuthTokenSecrets api) := do
  match ← json.structFields
      ["resource", "access_token", "expires_at_unix_seconds", "refresh_token"] with
  | [resource, accessToken, expiresAt, refreshToken] =>
    let resource ← Json.required (readUrl api) resource
    let accessToken ← Json.required Json.asString accessToken
    let expiresAt ← Json.optional Json.asU64 expiresAt
    let refreshToken ← Json.optional Json.asString refreshToken
    if valid : validSecrets api resource accessToken expiresAt refreshToken = true then
      some ⟨resource, accessToken, expiresAt, refreshToken, valid⟩
    else none
  | _ => none

theorem secrets_fromJson (value : McpOAuthTokenSecrets api) : fromJson value.toJson = some value := by
  have fields : value.toJson.structFields
      ["resource", "access_token", "expires_at_unix_seconds", "refresh_token"] =
      some [some (.string (api.asStr value.resource)), some (.string value.accessToken),
        some (value.expiresAtUnixSeconds.elim .null .ofU64), some (.ofOption value.refreshToken)] := rfl
  have expiry : Json.optional Json.asU64 (some (value.expiresAtUnixSeconds.elim .null .ofU64)) =
      some value.expiresAtUnixSeconds := by
    cases value.expiresAtUnixSeconds <;> rfl
  simp [fromJson, fields, readUrl, api.parse_asStr, expiry, value.valid]

end McpOAuthTokenSecrets

end Rustee.McpOAuth
