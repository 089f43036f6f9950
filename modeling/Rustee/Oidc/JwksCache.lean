/-
# Rustee.Oidc.JwksCache -- looking keys up, and refreshing them

`JwksAuthenticator::refresh`, `key_for`, `cache_lookup` and `fetch_and_store` of
`rustee-auth-oidc/src/jwks.rs`, as calls on clones of one authenticator.  A step is what a call
does between two points at which it can wait: for the cache's lock, for the gate, for the
fetcher.  Between steps other calls go on, time passes, and a call may be dropped.

A fetch starts when its attempt is recorded and is complete when its result is stored, so the
time until the fetcher is really called, and from its answer until the lock, is part of it.  A
lookup reads the clock twice, for the age of the keys and for that of an attempt; the first
reading only matters when it ends the lookup or when the second finds the keys no fresher, so one
reading serves for both.
-/
import Rustee.Foundation.Machine
import Rustee.Oidc.Jwks

namespace Rustee.Oidc

open Rustee.Foundation

set_option autoImplicit false

/-! ## The cache -/

structure JwksCache (Key : Type) where
  keys : Text → Option Key
  lastSuccessfulRefresh : Option Nat
  lastRefreshAttempt : Option Nat
  lastUnknownKeyRefresh : Option Nat
  lastRefreshFailed : Bool

inductive RefreshReason where
  | explicit
  | expiredCache
  | unknownKey
  deriving DecidableEq, Repr

inductive CacheLookup (Key : Type) where
  | key (key : Key)
  | missing
  | refresh (reason : RefreshReason)
  | unavailable

/-- The configuration, and the library's `DecodingKey::from_jwk`. -/
structure Authenticator (Material Key : Type) where
  algorithm : Algorithm
  cacheTtl : Nat
  minimumRefreshInterval : Nat
  fromJwk : Jwk Material → Option Key

variable {Material Error Key : Type}

namespace JwksCache

def empty : JwksCache Key := ⟨fun _ => none, none, none, none, false⟩

def refreshAllowed (self : JwksCache Key) (minimumRefreshInterval now : Nat) : Bool :=
  self.lastRefreshAttempt.all fun attemptedAt => minimumRefreshInterval ≤ now - attemptedAt

def unknownKeyRefreshAllowed (self : JwksCache Key) (minimumRefreshInterval now : Nat) : Bool :=
  self.lastUnknownKeyRefresh.all fun attemptedAt => minimumRefreshInterval ≤ now - attemptedAt

end JwksCache

def cacheLookup (auth : Authenticator Material Key) (cache : JwksCache Key) (now : Nat)
    (kid : Text) : CacheLookup Key :=
  let fresh := cache.lastSuccessfulRefresh.any fun refreshedAt => now - refreshedAt < auth.cacheTtl
  match cache.keys kid with
  | some key =>
    if fresh then .key key
    else if !cache.refreshAllowed auth.minimumRefreshInterval now then .unavailable
    else .refresh .expiredCache
  | none =>
    if !cache.unknownKeyRefreshAllowed auth.minimumRefreshInterval now then
      if cache.lastRefreshFailed then .unavailable else .missing
    else .refresh .unknownKey

/-! ## Calls -/

/-- What a call is for. -/
inductive Purpose where
  | keyFor (kid : Text)
  | refresh
  deriving DecidableEq, Repr

inductive Phase (Material Error : Type) where
  | idle
  /-- Before the first lookup. -/
  | looking (kid : Text)
  /-- For the gate. -/
  | waiting (purpose : Purpose)
  /-- Behind the gate, before the second lookup. -/
  | locked (kid : Text)
  /-- Before the attempt is recorded. -/
  | starting (purpose : Purpose) (reason : RefreshReason)
  | fetching (purpose : Purpose)
  /-- With the fetcher's answer, before it is stored. -/
  | fetched (purpose : Purpose) (result : Except Error (List (Jwk Material)))
  /-- Before the last look at the new keys. -/
  | reading (kid : Text)
  | done

/-- The phases behind the gate. -/
def Phase.isInside : Phase Material Error → Bool
  | .locked _ | .starting .. | .fetching _ | .fetched .. | .reading _ => true
  | _ => false

structure State (Material Error Key : Type) where
  now : Nat
  cache : JwksCache Key
  gate : Option Nat
  calls : Nat → Phase Material Error

inductive Input (Material Error : Type) where
  | tick (later : Nat)
  | keyFor (call : Nat) (kid : Text)
  | refresh (call : Nat)
  | lookup (call : Nat)
  | lock (call : Nat)
  | recheck (call : Nat)
  | begin (call : Nat)
  | respond (call : Nat) (result : Except Error (List (Jwk Material)))
  | store (call : Nat)
  | read (call : Nat)
  /-- The call's future is dropped. -/
  | drop (call : Nat)

inductive Output (Material Error Key : Type) where
  | quiet
  | found (call : Nat) (kid : Text) (key : Key)
  | missing (call : Nat)
  | unavailable (call : Nat)
  | started (reason : RefreshReason) (at_ : Nat)
  | stored (call : Nat) (set : List (Jwk Material)) (at_ : Nat)
  | fetchFailed (call : Nat) (error : Error)

namespace State

def setCall (s : State Material Error Key) (call : Nat) (phase : Phase Material Error) :
    State Material Error Key :=
  { s with calls := Function.update s.calls call phase }

/-- The call returns, and its guard of the gate goes. -/
def finish (s : State Material Error Key) (call : Nat) : State Material Error Key :=
  { s.setCall call .done with gate := if s.gate = some call then none else s.gate }

end State

section Steps

variable (auth : Authenticator Material Key)

/-- A call comes to a lookup; `next` is where it goes on to refresh. -/
def answer (s : State Material Error Key) (call : Nat) (kid : Text)
    (next : RefreshReason → Phase Material Error) :
    State Material Error Key × Output Material Error Key :=
  match cacheLookup auth s.cache s.now kid with
  | .key key => (s.finish call, .found call kid key)
  | .missing => (s.finish call, .missing call)
  | .unavailable => (s.finish call, .unavailable call)
  | .refresh reason => (s.setCall call (next reason), .quiet)

/-- The first half of `fetch_and_store`. -/
def recordAttempt (s : State Material Error Key) (reason : RefreshReason) : JwksCache Key :=
  { s.cache with
    lastRefreshAttempt := some s.now
    lastUnknownKeyRefresh :=
      if reason = .unknownKey then some s.now else s.cache.lastUnknownKeyRefresh }

/-- The second half, for a set. -/
def storeSet (s : State Material Error Key) (set : List (Jwk Material)) : JwksCache Key :=
  { s.cache with
    keys := compatibleKeys auth.fromJwk auth.algorithm set
    lastSuccessfulRefresh := some s.now
    lastRefreshFailed := false }

def step (s : State Material Error Key) :
    Input Material Error → Option (State Material Error Key × Output Material Error Key)
  | .tick later => some ({ s with now := s.now + later }, .quiet)
  | .keyFor call kid =>
    match s.calls call with
    | .idle => some (s.setCall call (.looking kid), .quiet)
    | _ => none
  | .refresh call =>
    match s.calls call with
    | .idle => some (s.setCall call (.waiting .refresh), .quiet)
    | _ => none
  | .lookup call =>
    match s.calls call with
    | .looking kid => some (answer auth s call kid fun _ => .waiting (.keyFor kid))
    | _ => none
  | .lock call =>
    match s.gate, s.calls call with
    | none, .waiting (.keyFor kid) =>
      some ({ s.setCall call (.locked kid) with gate := some call }, .quiet)
    | none, .waiting .refresh =>
      some ({ s.setCall call (.starting .refresh .explicit) with gate := some call }, .quiet)
    | _, _ => none
  | .recheck call =>
    match s.calls call with
    | .locked kid => some (answer auth s call kid fun reason => .starting (.keyFor kid) reason)
    | _ => none
  | .begin call =>
    match s.calls call with
    | .starting purpose reason =>
      some ({ s.setCall call (.fetching purpose) with cache := recordAttempt s reason },
        .started reason s.now)
    | _ => none
  | .respond call result =>
    match s.calls call with
    | .fetching purpose => some (s.setCall call (.fetched purpose result), .quiet)
    | _ => none
  | .store call =>
    match s.calls call with
    | .fetched (.keyFor kid) (.ok set) =>
      some ({ s.setCall call (.reading kid) with cache := storeSet auth s set },
        .stored call set s.now)
    | .fetched .refresh (.ok set) =>
      some ({ s.finish call with cache := storeSet auth s set }, .stored call set s.now)
    | .fetched _ (.error error) =>
      some ({ s.finish call with cache := { s.cache with lastRefreshFailed := true } },
        .fetchFailed call error)
    | _ => none
  | .read call =>
    match s.calls call with
    | .reading kid =>
      match s.cache.keys kid with
      | some key => some (s.finish call, .found call kid key)
      | none => some (s.finish call, .missing call)
    | _ => none
  | .drop call =>
    match s.calls call with
    | .idle => none
    | .done => none
    | _ => some (s.finish call, .quiet)

end Steps

/-- A new authenticator, at any time. -/
def machine (auth : Authenticator Material Key) :
    Machine (State Material Error Key) (Input Material Error) (Output Material Error Key) where
  initial s := s.cache = .empty ∧ s.gate = none ∧ s.calls = fun _ => .idle
  step := step auth

end Rustee.Oidc
