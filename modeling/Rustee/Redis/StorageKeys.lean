/-
# Rustee.Redis.StorageKeys -- the keys of the adapters that share a Redis

The keys of `rustee-rate-limit-redis`, `rustee-jobs-redis` and `rustee-ai-mcp-oauth-redis`: the
name of the format, two texts behind their lengths, and for the records of a retry what kind they
are.  The texts may hold colons and digits; the lengths say where each of them ends
(`delimited_injective`), and the names of the formats differ within their first twenty characters.
-/
import Rustee.RateLimit.Redis

namespace Rustee.Redis

open Rustee.Foundation
open Rustee.RateLimit (RedisFixedWindowStore RateLimitKey isValidKeyNamespace)

set_option autoImplicit false

/-! ## Retried jobs -/

/-- What `validate_key` and `validate_group_or_consumer` admit, each with its bound. -/
def isBoundedName (maxBytes : Nat) (value : String) : Bool :=
  !(isBlank value || decide (maxBytes < byteLen value) || value.toList.any isWhitespace)

/-- The stream and the group of a `RedisStreamsWorkerConfig`. -/
structure StreamGroup where
  stream : String
  group : String
  validStream : isBoundedName 512 stream = true
  validGroup : isBoundedName 255 group = true

inductive RecordKind where
  | schedule
  | payload
  | attempt
  deriving DecidableEq

def RecordKind.text : RecordKind → String
  | .schedule => "schedule"
  | .payload => "payload"
  | .attempt => "attempt"

def retryKey (names : StreamGroup) (kind : RecordKind) : String :=
  "rustee:jobs:retry:v1" ++ ":" ++ lengthDelimited names.stream ++ ":" ++
    lengthDelimited names.group ++ ":" ++ kind.text

/-! ## OAuth records -/

structure OAuthNamespace where
  value : String
  valid : isValidKeyNamespace value = true

/-- What `McpOAuthTokenStoreKey::new` admits. -/
def isTokenStoreKey (value : String) : Bool :=
  !(isBlank value || decide (1024 < byteLen value) ||
    (utf8 value).any fun byte => byte < 32 || byte == 127)

structure McpOAuthTokenStoreKey where
  value : String
  valid : isTokenStoreKey value = true

def transactionStorageKey (namespace_ : OAuthNamespace) (state : String) : String :=
  "rustee:mcp:oauth:transaction-key:v1" ++ ":" ++ lengthDelimited namespace_.value ++ ":" ++
    lengthDelimited state

def tokenStorageKey (namespace_ : OAuthNamespace) (key : McpOAuthTokenStoreKey) : String :=
  "rustee:mcp:oauth:token-key:v1" ++ ":" ++ lengthDelimited namespace_.value ++ ":" ++
    lengthDelimited key.value

/-! ## All of them -/

/-- A key with its arguments. -/
inductive StorageKey where
  | rateLimit (store : RedisFixedWindowStore) (key : RateLimitKey)
  | retry (names : StreamGroup) (kind : RecordKind)
  | transaction (namespace_ : OAuthNamespace) (state : String)
  | token (namespace_ : OAuthNamespace) (key : McpOAuthTokenStoreKey)

namespace StorageKey

def text : StorageKey → String
  | .rateLimit store key => RateLimit.storageKey store key
  | .retry names kind => retryKey names kind
  | .transaction namespace_ state => transactionStorageKey namespace_ state
  | .token namespace_ key => tokenStorageKey namespace_ key

inductive Format where
  | rateLimit
  | retry
  | transaction
  | token
  deriving DecidableEq

def Format.name : Format → String
  | .rateLimit => "rustee:rate-limit:v1"
  | .retry => "rustee:jobs:retry:v1"
  | .transaction => "rustee:mcp:oauth:transaction-key:v1"
  | .token => "rustee:mcp:oauth:token-key:v1"

def format : StorageKey → Format
  | .rateLimit _ _ => .rateLimit
  | .retry _ _ => .retry
  | .transaction _ _ => .transaction
  | .token _ _ => .token

/-- The two texts, and what follows them. -/
def parts : StorageKey → String × String × String
  | .rateLimit store key => (store.namespace_, key.value, "")
  | .retry names kind => (names.stream, names.group, ":" ++ kind.text)
  | .transaction namespace_ state => (namespace_.value, state, "")
  | .token namespace_ key => (namespace_.value, key.value, "")

theorem text_eq (key : StorageKey) : key.text = key.format.name ++ delimited key.parts := by
  cases key with
  | rateLimit store key => exact RateLimit.storageKey_eq store key
  | retry names kind => exact (String.append_assoc ..).trans (append_delimited _ _ _ (":" ++ kind.text))
  | transaction namespace_ state => exact String.append_empty.symm.trans (append_delimited _ _ _ "")
  | token namespace_ key => exact String.append_empty.symm.trans (append_delimited _ _ _ "")

/-- The formats differ where all their names are long enough. -/
theorem format_eq_of_text {one other : StorageKey} (same : one.text = other.text) :
    one.format = other.format := by
  have long (format : Format) : 20 ≤ format.name.toList.length := by cases format <;> decide +kernel
  have apart (one other : Format)
      (starts : one.name.toList.take 20 = other.name.toList.take 20) : one = other := by
    revert starts
    cases one <;> cases other <;> decide +kernel
  have starts := congrArg (fun text => text.toList.take 20) same
  simp only [text_eq, String.toList_append, List.take_append_of_le_length (long _)] at starts
  exact apart _ _ starts

theorem eq_of_parts {one other : StorageKey} (formats : one.format = other.format)
    (same : one.parts = other.parts) : one = other := by
  cases one <;> cases other <;> cases formats <;>
    simp only [parts, Prod.mk.injEq, String.append_right_inj, and_true] at same
  case rateLimit store key store' key' =>
    cases store
    cases key
    cases same.1
    cases same.2
    rfl
  case retry names kind names' kind' =>
    cases names
    obtain ⟨rfl, rfl, sameKind⟩ := same
    have kinds (one other : RecordKind) (sameText : one.text = other.text) : one = other := by
      revert sameText
      cases one <;> cases other <;> decide +kernel
    cases kinds _ _ sameKind
    rfl
  case transaction namespace_ state namespace' state' =>
    cases namespace_
    obtain ⟨rfl, rfl⟩ := same
    rfl
  case token namespace_ key namespace' key' =>
    cases namespace_
    cases key
    cases same.1
    cases same.2
    rfl

/-- **No two keys coincide**, of one kind or of two. -/
theorem storage_keys_injective : Function.Injective text := by
  intro one other same
  have formats := format_eq_of_text same
  rw [text_eq, text_eq other, formats, String.append_right_inj] at same
  exact eq_of_parts formats (delimited_injective same)

end StorageKey

end Rustee.Redis
