/-
# Rustee.McpOAuth.Refresh -- refreshing and revoking one stored token set

`refresh` and `revoke_and_remove` of `rustee-ai-mcp-oauth/src/authorization/flow.rs`, any
number of calls at once through clones of one flow, on one key of the token store.  Each
access to the store takes effect at one moment of the call that makes it, or never: one that
fails, or whose call is dropped first, changes nothing.  The exchanger and the revocation
endpoint answer when and how they like, and a call can be dropped wherever it waits.  However
a call ends, its guard goes first, then its lease, then the lease's `Arc`.

The texts of tokens matter only for equality and for the two tests that read them, on the
resource and on the refresh token.
-/
import Rustee.McpOAuth.RefreshGate
import Rustee.Foundation.Machine

namespace Rustee.McpOAuth

open Rustee.Foundation

set_option autoImplicit false

/-- The errors of the two calls. -/
inductive McpOAuthError where
  | resourceMismatch
  | tokenExchangeUnavailable
  | tokenStoreUnavailable
  | tokenUnavailable
  | refreshTokenUnavailable
  | revocationUnsupported
  | revocationUnavailable
  deriving DecidableEq, Repr

/-- A URL, as far as `canonical_resource` takes it apart. -/
structure Url where
  base : String
  query : Option String
  fragment : Option String
  deriving DecidableEq, Repr

/-- `canonical_resource`: the text without query and fragment. -/
def canonicalResource (value : Url) : String := value.base

structure McpOAuthAccessToken where
  value : String
  expiresAt : Option Int
  deriving DecidableEq, Repr

structure McpOAuthTokenSet where
  resource : Url
  accessToken : McpOAuthAccessToken
  refreshToken : Option String
  deriving DecidableEq, Repr

structure McpOAuthRefreshRequest where
  clientId : String
  refreshToken : String
  resource : Url
  deriving DecidableEq, Repr

/-- `refresh_request`. -/
def McpOAuthTokenSet.refreshRequest (tokens : McpOAuthTokenSet) (clientId : String) :
    Except McpOAuthError McpOAuthRefreshRequest :=
  match tokens.refreshToken with
  | none => .error .refreshTokenUnavailable
  | some refreshToken => .ok ⟨clientId, refreshToken, tokens.resource⟩

/-- What the two calls read of the flow's configuration. -/
structure McpOAuthAuthorizationFlow where
  resource : Url
  clientId : String
  revocationEndpoint : Option Url
  deriving DecidableEq, Repr

namespace McpOAuthAuthorizationFlow

def ensureResource (flow : McpOAuthAuthorizationFlow) (resource : Url) :
    Except McpOAuthError Unit :=
  if canonicalResource resource = canonicalResource flow.resource then .ok ()
  else .error .resourceMismatch

/-- `load_bound_token`: what the store holds when the load takes effect, or `none` when the
store fails. -/
def loadBoundToken (flow : McpOAuthAuthorizationFlow)
    (loaded : Option (Option McpOAuthTokenSet)) : Except McpOAuthError McpOAuthTokenSet :=
  match loaded with
  | none => .error .tokenStoreUnavailable
  | some none => .error .tokenUnavailable
  | some (some tokens) => (flow.ensureResource tokens.resource).map fun _ => tokens

theorem loadBoundToken_eq_ok {flow : McpOAuthAuthorizationFlow}
    {loaded : Option (Option McpOAuthTokenSet)} {tokens : McpOAuthTokenSet}
    (ok : flow.loadBoundToken loaded = .ok tokens) : loaded = some (some tokens) := by
  unfold loadBoundToken at ok
  split at ok
  · cases ok
  · cases ok
  · rename_i held
    cases bound : flow.ensureResource held.resource with
    | error error => simp [bound, Except.map] at ok
    | ok value =>
      simp only [bound, Except.map, Except.ok.injEq] at ok
      rw [ok]

end McpOAuthAuthorizationFlow

/-! ## Calls -/

inductive Call where
  | refresh
  | revokeAndRemove
  deriving DecidableEq, Repr

/-- How a call ended. -/
inductive Outcome where
  | dropped
  | refreshed (tokens : McpOAuthTokenSet)
  | removed
  | failed (error : McpOAuthError)
  deriving DecidableEq, Repr

/-- Where a call is. -/
inductive Stage where
  | idle
  /-- The set it loaded before it asked for the gate. -/
  | observed (tokens : McpOAuthTokenSet)
  | leased (observed : McpOAuthTokenSet) (gate : Nat)
  | locked (observed : McpOAuthTokenSet) (gate : Nat)
  /-- It found the observed set again. -/
  | current (tokens : McpOAuthTokenSet) (gate : Nat)
  | exchanging (given : McpOAuthTokenSet) (gate : Nat)
  | exchanged (given refreshed : McpOAuthTokenSet) (gate : Nat)
  | saved (tokens : McpOAuthTokenSet) (gate : Nat)
  /-- Its locals go: it still has the guard, only the lease, only the `Arc`. -/
  | leaving (outcome : Outcome) (gate : Nat)
  | unguarded (outcome : Outcome) (gate : Nat)
  | unleased (outcome : Outcome) (gate : Nat)
  /-- The revocation request is under way; the token is revoked; its record is removed. -/
  | revoking
  | revoked
  | removed
  | done (outcome : Outcome)
  deriving DecidableEq, Repr

/-- What a stage holds of the gate. -/
def Stage.hold : Stage → Option Hold
  | .leased _ gate => some (.waiting gate)
  | .locked _ gate | .current _ gate | .exchanging _ gate | .exchanged _ _ gate
  | .saved _ gate | .leaving _ gate => some (.inside gate)
  | .unguarded _ gate => some (.outside gate)
  | .unleased _ gate => some (.dropping gate)
  | _ => none

structure State where
  stored : Option McpOAuthTokenSet
  registry : RefreshGateRegistry
  stage : Nat → Stage

inductive Input where
  /-- The first load of a call; `reachable` says whether the store answers. -/
  | start (call : Nat) (reachable : Bool)
  | lease (call : Nat)
  | lock (call : Nat)
  | load (call : Nat) (reachable : Bool)
  | request (call : Nat)
  /-- The exchanger answers, with a token set or an error. -/
  | respond (call : Nat) (reply : Option McpOAuthTokenSet)
  | save (call : Nat) (reachable : Bool)
  | return_ (call : Nat)
  | unlock (call : Nat)
  | dropLease (call : Nat)
  | dropGate (call : Nat)
  /-- The revocation endpoint answers. -/
  | confirm (call : Nat) (accepted : Bool)
  | remove (call : Nat) (reachable : Bool)
  /-- The future of the call is dropped. -/
  | drop (call : Nat)
  deriving DecidableEq, Repr

inductive Output where
  | quiet
  /-- An exchange begins with this set. -/
  | requested (given : McpOAuthTokenSet)
  /-- The set an exchange made of `given` is stored. -/
  | saved (given tokens : McpOAuthTokenSet)
  | finished (outcome : Outcome)
  deriving DecidableEq, Repr

def State.at_ (s : State) (call : Nat) (stage : Stage) : State :=
  { s with stage := Function.update s.stage call stage }

def State.finishes (s : State) (call : Nat) (outcome : Outcome) : State × Output :=
  (s.at_ call (.done outcome), .finished outcome)

/-! ## Steps -/

section

variable (flow : McpOAuthAuthorizationFlow)

/-- What a load takes from the store. -/
def State.loads (s : State) (reachable : Bool) : Option (Option McpOAuthTokenSet) :=
  if reachable then some s.stored else none

def startRefresh (s : State) (call : Nat) (reachable : Bool) : State × Output :=
  match flow.loadBoundToken (s.loads reachable) with
  | .ok tokens => (s.at_ call (.observed tokens), .quiet)
  | .error error => s.finishes call (.failed error)

def startRevoke (s : State) (call : Nat) (reachable : Bool) : State × Output :=
  match flow.revocationEndpoint with
  | none => s.finishes call (.failed .revocationUnsupported)
  | some _ =>
    match flow.loadBoundToken (s.loads reachable) with
    | .ok _ => (s.at_ call .revoking, .quiet)
    | .error error => s.finishes call (.failed error)

/-- The second load, under the guard, and the comparison. -/
def loadCurrent (s : State) (observed : McpOAuthTokenSet) (gate : Nat)
    (reachable : Bool) : Stage :=
  match flow.loadBoundToken (s.loads reachable) with
  | .ok current =>
    if current ≠ observed then .leaving (.refreshed current) gate else .current current gate
  | .error error => .leaving (.failed error) gate

def sendRequest (s : State) (call : Nat) (tokens : McpOAuthTokenSet) (gate : Nat) :
    State × Output :=
  match tokens.refreshRequest flow.clientId with
  | .ok _ => (s.at_ call (.exchanging tokens gate), .requested tokens)
  | .error error => (s.at_ call (.leaving (.failed error) gate), .quiet)

/-- The exchanger's answer and the test of its resource. -/
def takeReply (given : McpOAuthTokenSet) (gate : Nat) : Option McpOAuthTokenSet → Stage
  | none => .leaving (.failed .tokenExchangeUnavailable) gate
  | some refreshed =>
    match flow.ensureResource refreshed.resource with
    | .ok () => .exchanged given refreshed gate
    | .error error => .leaving (.failed error) gate

def saveRefreshed (s : State) (call : Nat) (given refreshed : McpOAuthTokenSet) (gate : Nat)
    (reachable : Bool) : State × Output :=
  if reachable then
    ({ s.at_ call (.saved refreshed gate) with stored := some refreshed }, .saved given refreshed)
  else (s.at_ call (.leaving (.failed .tokenStoreUnavailable) gate), .quiet)

def removeRevoked (s : State) (call : Nat) (reachable : Bool) : State × Output :=
  if reachable then ({ s.at_ call .removed with stored := none }, .quiet)
  else s.finishes call (.failed .tokenStoreUnavailable)

/-- A dropped call leaves from where it is. -/
def dropFrom (s : State) (call : Nat) : Stage → Option (State × Output)
  | .observed _ | .revoking | .revoked | .removed => some (s.finishes call .dropped)
  | .leased _ gate => some (s.at_ call (.unguarded .dropped gate), .quiet)
  | .locked _ gate | .current _ gate | .exchanging _ gate | .exchanged _ _ gate
  | .saved _ gate => some (s.at_ call (.leaving .dropped gate), .quiet)
  | _ => none

def step (calls : Nat → Call) (s : State) : Input → Option (State × Output)
  | .start call reachable =>
    match s.stage call, calls call with
    | .idle, .refresh => some (startRefresh flow s call reachable)
    | .idle, .revokeAndRemove => some (startRevoke flow s call reachable)
    | _, _ => none
  | .lease call =>
    match s.stage call with
    | .observed tokens =>
      let (registry, gate) := s.registry.lease call
      some ({ s.at_ call (.leased tokens gate) with registry }, .quiet)
    | _ => none
  | .lock call =>
    match s.stage call with
    | .leased observed gate =>
      (s.registry.lock call gate).map fun registry =>
        ({ s.at_ call (.locked observed gate) with registry }, .quiet)
    | _ => none
  | .load call reachable =>
    match s.stage call with
    | .locked observed gate =>
      some (s.at_ call (loadCurrent flow s observed gate reachable), .quiet)
    | _ => none
  | .request call =>
    match s.stage call with
    | .current tokens gate => some (sendRequest flow s call tokens gate)
    | _ => none
  | .respond call reply =>
    match s.stage call with
    | .exchanging given gate => some (s.at_ call (takeReply flow given gate reply), .quiet)
    | _ => none
  | .save call reachable =>
    match s.stage call with
    | .exchanged given refreshed gate => some (saveRefreshed s call given refreshed gate reachable)
    | _ => none
  | .return_ call =>
    match s.stage call with
    | .saved tokens gate => some (s.at_ call (.leaving (.refreshed tokens) gate), .quiet)
    | .removed => some (s.finishes call .removed)
    | _ => none
  | .unlock call =>
    match s.stage call with
    | .leaving outcome gate =>
      some ({ s.at_ call (.unguarded outcome gate) with registry := s.registry.unlock gate },
        .quiet)
    | _ => none
  | .dropLease call =>
    match s.stage call with
    | .unguarded outcome gate =>
      some ({ s.at_ call (.unleased outcome gate) with
        registry := s.registry.dropLease gate }, .quiet)
    | _ => none
  | .dropGate call =>
    match s.stage call with
    | .unleased outcome gate =>
      some ({ s.at_ call (.done outcome) with registry := s.registry.dropGate call gate },
        .finished outcome)
    | _ => none
  | .confirm call accepted =>
    match s.stage call with
    | .revoking =>
      if accepted then some (s.at_ call .revoked, .quiet)
      else some (s.finishes call (.failed .revocationUnavailable))
    | _ => none
  | .remove call reachable =>
    match s.stage call with
    | .revoked => some (removeRevoked s call reachable)
    | _ => none
  | .drop call => dropFrom s call (s.stage call)

/-- Any calls through one flow, over any content of the store. -/
def tokenLifecycle (calls : Nat → Call) : Machine State Input Output where
  initial s := s.registry = .empty ∧ s.stage = fun _ => .idle
  step := step flow calls

end

end Rustee.McpOAuth
