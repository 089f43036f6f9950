/-
# Rustee.Auth.Session -- server-side sessions and the requests they authenticate

`InMemorySessionStore` of `rustee-auth-session/src/model/in_memory.rs`, and the layers that a request
passes: `SessionService` of `src/middleware.rs` around `CsrfService` of `src/middleware/csrf.rs`.  A call
of the store holds its lock, so any number of managers and requests make one list of calls.

`keptSessions` is the store as it is meant, which forgets nothing by itself.  No caller can tell the
two apart, and a request is served for a session exactly while it has that session.
-/
import Rustee.Foundation.Expiring
import Rustee.Foundation.Machine
import Rustee.Testing.CookieJar

namespace Rustee.Auth

set_option autoImplicit false

open Rustee.Foundation Expiring TrustedProxy

structure Session (Id Principal : Type) where
  id : Id
  principal : Principal
  csrfToken : Text
  expiresAtUnixSeconds : Nat

variable {Id Principal : Type}

def Session.isExpired (session : Session Id Principal) (now : Nat) : Bool :=
  session.expiresAtUnixSeconds ≤ now

inductive InMemorySessionStoreError where
  | expiredSession
  | capacityExhausted
  deriving DecidableEq, Repr

inductive SessionCall (Id Principal : Type) where
  | save (session : Session Id Principal)
  | load (id : Id)
  | delete (id : Id)

inductive SessionAnswer (Id Principal : Type) where
  | saved (result : Except InMemorySessionStoreError Unit)
  | loaded (found : Option (Session Id Principal))
  | deleted

def maxInMemorySessions : Nat := 1024

section

variable [DecidableEq Id]

/-- `InMemorySessionStore::load`. -/
def loadSession (reading : Id → Nat) (sessions : List (Id × Session Id Principal)) (id : Id) :
    List (Id × Session Id Principal) × Option (Session Id Principal) :=
  let sessions := prune Session.expiresAtUnixSeconds reading sessions
  (sessions, Keyed.hget sessions id)

def inMemorySessionStore : Store Id (List (Id × Session Id Principal)) (SessionCall Id Principal)
    (SessionAnswer Id Principal)
  | reading, now, sessions, .save session =>
    let sessions := prune Session.expiresAtUnixSeconds reading sessions
    if session.isExpired now then (sessions, .saved (.error .expiredSession))
    else if session.id ∉ Keyed.keys sessions ∧ sessions.length ≥ maxInMemorySessions then
      (sessions, .saved (.error .capacityExhausted))
    else (Keyed.hset sessions session.id session, .saved (.ok ()))
  | reading, _, sessions, .load id =>
    let (sessions, found) := loadSession reading sessions id
    (sessions, .loaded found)
  | _, _, sessions, .delete id => (Keyed.hdel sessions id, .deleted)

open Classical in
/-- What was saved last under each id and not deleted since, looked at through its expiry. -/
noncomputable def keptSessions : Store Id (Id → Option (Session Id Principal)) (SessionCall Id Principal)
    (SessionAnswer Id Principal)
  | reading, now, sessions, .save session =>
    let found id := live Session.expiresAtUnixSeconds (reading id) (sessions id)
    if session.isExpired now then (sessions, .saved (.error .expiredSession))
    else if found session.id = none ∧ {id | found id ≠ none}.ncard ≥ maxInMemorySessions then
      (sessions, .saved (.error .capacityExhausted))
    else (Function.update sessions session.id (some session), .saved (.ok ()))
  | reading, _, sessions, .load id =>
    (sessions, .loaded (live Session.expiresAtUnixSeconds (reading id) (sessions id)))
  | _, _, sessions, .delete id => (Function.update sessions id none, .deleted)

/-- The same sessions, each under its own id. -/
structure SameSessions (now : Nat) (sessions : List (Id × Session Id Principal))
    (kept : Id → Option (Session Id Principal)) : Prop where
  keeps : Keeps Session.expiresAtUnixSeconds now sessions kept
  named : ∀ id session, kept id = some session → session.id = id

theorem SameSessions.step {clock now : Nat} {reading : Id → Nat}
    {sessions : List (Id × Session Id Principal)} {kept : Id → Option (Session Id Principal)}
    (within : Between clock reading now) (same : SameSessions clock sessions kept)
    (call : SessionCall Id Principal) :
    (inMemorySessionStore reading now sessions call).2 = (keptSessions reading now kept call).2 ∧
      SameSessions now (inMemorySessionStore reading now sessions call).1
        (keptSessions reading now kept call).1 := by
  obtain ⟨keeps, named⟩ := same
  have pruned := keeps.prune within
  have found := keeps.hget_prune within
  cases call with
  | save session =>
    simp only [inMemorySessionStore, keptSessions, ← Keyed.hget_eq_none, found, keeps.length_prune within]
    split_ifs
    · exact ⟨rfl, pruned, named⟩
    · exact ⟨rfl, pruned, named⟩
    · refine ⟨rfl, pruned.set session.id session, fun id other isOther => ?_⟩
      rcases update_eq_iff.1 isOther with ⟨rfl, isSaved⟩ | ⟨-, old⟩
      · rw [Option.some.inj isSaved]
      · exact named id other old
  | load id => exact ⟨congrArg SessionAnswer.loaded (found id), pruned, named⟩
  | delete id =>
    refine ⟨rfl, (keeps.later within.le).del id, fun other session isSession => ?_⟩
    rcases update_eq_iff.1 isSession with ⟨-, gone⟩ | ⟨-, old⟩
    · cases gone
    · exact named other session old

theorem sameSessions_run (calls : List (Timing Id × SessionCall Id Principal)) :
    let s := inMemorySessionStore.run [] calls
    let t := keptSessions.run (fun _ => none) calls
    (SameSessions s.1 s.2 t.2 ∧ s.1 = t.1) ∧
      ∀ call, (inMemorySessionStore.next s call).2 = (keptSessions.next t call).2 :=
  Store.refines ⟨.nil, fun _ _ found => by cases found⟩
    (fun _ _ _ _ _ call within same => same.step within call) calls

/-- **Dropping expired sessions cannot be seen.**  After any calls, the next one is answered as by a
store that keeps every session until it is replaced or deleted and has room for 1024 live ones. -/
theorem sessions_refine (calls : List (Timing Id × SessionCall Id Principal))
    (call : Timing Id × SessionCall Id Principal) :
    (inMemorySessionStore.next (inMemorySessionStore.run [] calls) call).2 =
      (keptSessions.next (keptSessions.run (fun _ => none) calls) call).2 :=
  (sameSessions_run calls).2 call

end

/-! ## Requests -/

def constantTimeEq (left right : List UInt8) : Bool :=
  if left.length ≠ right.length then false
  else (left.zip right).foldl (fun difference pair => difference ||| (pair.1 ^^^ pair.2)) 0 == 0

theorem foldl_difference {left right : List UInt8} (same : left.length = right.length) (start : UInt8) :
    (left.zip right).foldl (fun difference pair => difference ||| (pair.1 ^^^ pair.2)) start = 0 ↔
      start = 0 ∧ left = right := by
  induction left generalizing right start with
  | nil => cases right <;> simp_all
  | cons byte left ih =>
    cases right with
    | nil => cases same
    | cons other right =>
      rw [List.zip_cons_cons, List.foldl_cons, ih (Nat.succ.inj same), UInt8.or_eq_zero_iff,
        UInt8.xor_eq_zero_iff, List.cons.injEq, and_assoc]

theorem constantTimeEq_iff {left right : List UInt8} : constantTimeEq left right = true ↔ left = right := by
  unfold constantTimeEq
  split_ifs with differs
  · simp only [false_iff]
    exact fun same => differs (congrArg _ same)
  · rw [beq_iff_eq, foldl_difference (not_not.1 differs), and_iff_right rfl]

def csrfHeaderValue (headers : HeaderMap) : Option Text :=
  match headers.getAll "x-csrf-token" with
  | [value] => HeaderValue.toStr value
  | _ => none

def isSafeMethod (method : String) : Bool := method ∈ ["GET", "HEAD", "OPTIONS", "TRACE"]

inductive SessionReply (Id Principal : Type) where
  /-- The handler is called, with the user that it can extract. -/
  | handled (user : Option (Principal × Id))
  /-- 403, `csrf_rejected`. -/
  | csrfRejected

/-- `CsrfService::call`, with the session that was restored. -/
def csrfService (method : String) (headers : HeaderMap) (restored : Option (Session Id Principal)) :
    SessionReply Id Principal :=
  match restored with
  | none => .handled none
  | some session =>
    if isSafeMethod method || (csrfHeaderValue headers).any fun token =>
        constantTimeEq token.bytes session.csrfToken.bytes then .handled (some (session.principal, session.id))
    else .csrfRejected

theorem csrfService_eq_handled {method : String} {headers : HeaderMap}
    {restored : Option (Session Id Principal)} {principal : Principal} {id : Id} :
    csrfService method headers restored = .handled (some (principal, id)) ↔
      ∃ session, restored = some session ∧ session.principal = principal ∧ session.id = id ∧
        (isSafeMethod method = true ∨ csrfHeaderValue headers = some session.csrfToken) := by
  cases restored with
  | none => simp [csrfService]
  | some session =>
    have same (token : Text) : token.bytes = session.csrfToken.bytes ↔ token = session.csrfToken := by
      refine ⟨fun equal => ?_, congrArg _⟩
      exact Option.some.inj ((Text.fromUtf8_eq_some.2 rfl).symm.trans (Text.fromUtf8_eq_some.2 equal))
    simp only [csrfService, Bool.or_eq_true, Option.any_eq_true, constantTimeEq_iff, same, Option.some.injEq,
      exists_eq_left', exists_eq_right]
    split_ifs with admitted <;> simp [admitted]

/-- `SessionService::call` over the sessions in the store; `now` is when the one that was found is
looked at again. -/
def sessionService [DecidableEq Id] (parse : Text → Option Id) (cookieName : Text) (reading : Id → Nat)
    (now : Nat) (sessions : List (Id × Session Id Principal)) (method : String) (headers : HeaderMap) :
    SessionReply Id Principal :=
  match Testing.sessionId parse headers cookieName with
  | none => csrfService method headers none
  | some id =>
    let found := (loadSession reading sessions id).2
    csrfService method headers (found.filter fun session => session.id = id && !session.isExpired now)

/-- **A session authenticates a request exactly while it is kept**: it was the last one saved under the
id of the only such cookie and not deleted since, it has not expired when it is looked at, and an unsafe
method comes with its token. -/
theorem request_authenticated_iff [DecidableEq Id] (parse : Text → Option Id) (cookieName : Text)
    (calls : List (Timing Id × SessionCall Id Principal)) (timing : Timing Id) (method : String)
    (headers : HeaderMap) (principal : Principal) (id : Id) :
    let s := inMemorySessionStore.run [] calls
    let now := s.1 + timing.elapsed
    sessionService parse cookieName (fun k => s.1 + timing.after k) now s.2 method headers =
        .handled (some (principal, id)) ↔
      Testing.sessionId parse headers cookieName = some id ∧
        ∃ session, (keptSessions.run (fun _ => none) calls).2 id = some session ∧
          session.principal = principal ∧ now < session.expiresAtUnixSeconds ∧
          (isSafeMethod method = true ∨ csrfHeaderValue headers = some session.csrfToken) := by
  intro s now
  have within := timing.between s.1
  obtain ⟨keeps, named⟩ := (sameSessions_run calls).1.1
  change Keeps _ s.1 s.2 _ at keeps
  unfold sessionService
  cases Testing.sessionId parse headers cookieName with
  | none => simp [csrfService]
  | some asked =>
    simp only [loadSession, keeps.hget_prune within, csrfService_eq_handled, live, Option.filter_eq_some_iff,
      Option.some.injEq, Session.isExpired, Bool.and_eq_true, Bool.not_eq_true', decide_eq_true_iff,
      decide_eq_false_iff_not, not_le]
    constructor
    · rintro ⟨session, ⟨⟨isKept, -⟩, isAsked, alive⟩, isPrincipal, rfl, admitted⟩
      exact ⟨isAsked.symm, session, isAsked ▸ isKept, isPrincipal, alive, admitted⟩
    · rintro ⟨rfl, session, isKept, isPrincipal, alive, admitted⟩
      have isNamed := named asked session isKept
      exact ⟨session, ⟨⟨isKept, (within.before asked).trans_lt alive⟩, isNamed, alive⟩, isPrincipal, isNamed,
        admitted⟩

end Rustee.Auth
