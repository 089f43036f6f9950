/-
# Rustee.Oidc.CacheDiscipline -- which keys are returned, and when sets are fetched

Over every run of calls on one authenticator, with any answers of the fetcher:

* a returned key is the one that the last stored set has for its identifier, and that set was
  stored within the time to live or by the call that returns it;
* one fetch at a time is under way, and fetches keep the minimum interval, those for unknown
  identifiers from one another and those for expired keys from every fetch.

The gate carries the second: what a call decided behind it, no other call can make untrue before
it starts (`Inv.starting`).  The cache is what the history of stores and starts says it is.
-/
import Rustee.Oidc.JwksCache
import Mathlib.Order.Nat

namespace Rustee.Oidc

open Rustee.Foundation

set_option autoImplicit false

variable {Material Error Key : Type} {auth : Authenticator Material Key}

/-! ## Histories -/

/-- A successful fetch: who made it, what it stored, and when. -/
structure Fetch (Material : Type) where
  call : Nat
  set : List (Jwk Material)
  completedAt : Nat

structure Start where
  reason : RefreshReason
  startedAt : Nat
  deriving DecidableEq

def Output.fetch? : Output Material Error Key → Option (Fetch Material)
  | .stored call set completedAt => some ⟨call, set, completedAt⟩
  | _ => none

def Output.start? : Output Material Error Key → Option Start
  | .started reason startedAt => some ⟨reason, startedAt⟩
  | _ => none

/-- The successful fetches, oldest first. -/
def fetches (trace : List (Input Material Error × Output Material Error Key)) :
    List (Fetch Material) :=
  trace.filterMap fun event => event.2.fetch?

def starts (trace : List (Input Material Error × Output Material Error Key)) : List Start :=
  trace.filterMap fun event => event.2.start?

@[simp] theorem fetches_concat
    (trace : List (Input Material Error × Output Material Error Key))
    (event : Input Material Error × Output Material Error Key) :
    fetches (trace ++ [event]) = fetches trace ++ event.2.fetch?.toList := by
  cases isFetch : event.2.fetch? <;> simp [fetches, isFetch]

@[simp] theorem starts_concat
    (trace : List (Input Material Error × Output Material Error Key))
    (event : Input Material Error × Output Material Error Key) :
    starts (trace ++ [event]) = starts trace ++ event.2.start?.toList := by
  cases isStart : event.2.start? <;> simp [starts, isStart]

/-! ## What a lookup decides -/

variable {now call : Nat} {kid : Text} {s : State Material Error Key} {last : Option Nat}
  {history : List Start} {phase : Phase Material Error}

theorem cacheLookup_key {cache : JwksCache Key} {key : Key}
    (isKey : cacheLookup auth cache now kid = .key key) :
    cache.keys kid = some key ∧
      ∃ refreshedAt, cache.lastSuccessfulRefresh = some refreshedAt ∧
        now < refreshedAt + auth.cacheTtl := by
  unfold cacheLookup at isKey
  simp only at isKey
  split at isKey
  · rename_i held isHeld
    split at isKey
    · rename_i fresh
      obtain ⟨refreshedAt, isLast, young⟩ := (Option.any_eq_true _ _).1 fresh
      have young : now - refreshedAt < auth.cacheTtl := by simpa using young
      cases isKey
      exact ⟨isHeld, refreshedAt, isLast, by omega⟩
    · split at isKey <;> cases isKey
  · split at isKey
    · split at isKey <;> cases isKey
    · cases isKey

theorem cacheLookup_refresh {cache : JwksCache Key} {reason : RefreshReason}
    (isRefresh : cacheLookup auth cache now kid = .refresh reason) :
    (reason = .expiredCache → cache.refreshAllowed auth.minimumRefreshInterval now = true) ∧
      (reason = .unknownKey →
        cache.unknownKeyRefreshAllowed auth.minimumRefreshInterval now = true) := by
  unfold cacheLookup at isRefresh
  simp only at isRefresh
  split at isRefresh
  · split at isRefresh
    · cases isRefresh
    · split at isRefresh
      · cases isRefresh
      · rename_i allowed
        cases isRefresh
        exact ⟨fun _ => by simpa using allowed, fun other => by cases other⟩
  · split at isRefresh
    · split at isRefresh <;> cases isRefresh
    · rename_i allowed
      cases isRefresh
      exact ⟨fun other => (by cases other), fun _ => by simpa using allowed⟩

/-! ## What a step does -/

/-- What a return may say, for the call that returns. -/
structure Answers (auth : Authenticator Material Key) (s : State Material Error Key) (call : Nat)
    (output : Output Material Error Key) : Prop where
  noFetch : output.fetch? = none
  noStart : output.start? = none
  found : ∀ caller kid key, output = .found caller kid key → caller = call ∧
    (cacheLookup auth s.cache s.now kid = .key key ∨
      s.calls call = .reading kid ∧ s.cache.keys kid = some key)

inductive Effect (auth : Authenticator Material Key) (s : State Material Error Key) :
    State Material Error Key → Output Material Error Key → Prop
  | ticks (later : Nat) : Effect auth s { s with now := s.now + later } .quiet
  /-- A call goes on outside of the gate. -/
  | enters (call : Nat) (phase : Phase Material Error) (outside : phase.isInside = false) :
      Effect auth s (s.setCall call phase) .quiet
  | returns (call : Nat) (output : Output Material Error Key)
      (answers : Answers auth s call output) : Effect auth s (s.finish call) output
  | locks (call : Nat) (kid : Text) (free : s.gate = none) :
      Effect auth s { s.setCall call (.locked kid) with gate := some call } .quiet
  | locksToRefresh (call : Nat) (free : s.gate = none) :
      Effect auth s { s.setCall call (.starting .refresh .explicit) with gate := some call } .quiet
  | decides (call : Nat) (kid : Text) (reason : RefreshReason)
      (locked : s.calls call = .locked kid)
      (stale : cacheLookup auth s.cache s.now kid = .refresh reason) :
      Effect auth s (s.setCall call (.starting (.keyFor kid) reason)) .quiet
  | begins (call : Nat) (purpose : Purpose) (reason : RefreshReason)
      (starting : s.calls call = .starting purpose reason) :
      Effect auth s { s.setCall call (.fetching purpose) with cache := recordAttempt s reason }
        (.started reason s.now)
  | responds (call : Nat) (purpose : Purpose) (result : Except Error (List (Jwk Material)))
      (fetching : s.calls call = .fetching purpose) :
      Effect auth s (s.setCall call (.fetched purpose result)) .quiet
  | stores (call : Nat) (kid : Text) (set : List (Jwk Material))
      (fetched : s.calls call = .fetched (.keyFor kid) (.ok set)) :
      Effect auth s { s.setCall call (.reading kid) with cache := storeSet auth s set }
        (.stored call set s.now)
  | refreshes (call : Nat) (set : List (Jwk Material))
      (fetched : s.calls call = .fetched .refresh (.ok set)) :
      Effect auth s { s.finish call with cache := storeSet auth s set } (.stored call set s.now)
  | fails (call : Nat) (error : Error) :
      Effect auth s { s.finish call with cache := { s.cache with lastRefreshFailed := true } }
        (.fetchFailed call error)

theorem answer_effect (auth : Authenticator Material Key) (s : State Material Error Key)
    (call : Nat) (kid : Text) (next : RefreshReason → Phase Material Error)
    (goesOn : ∀ reason, cacheLookup auth s.cache s.now kid = .refresh reason →
      Effect auth s (s.setCall call (next reason)) .quiet) :
    Effect auth s (answer auth s call kid next).1 (answer auth s call kid next).2 := by
  unfold answer
  cases isLookup : cacheLookup auth s.cache s.now kid with
  | key key =>
    refine .returns call _ ⟨rfl, rfl, ?_⟩
    intro caller other held isFound
    cases isFound
    exact ⟨rfl, .inl isLookup⟩
  | missing => exact .returns call _ ⟨rfl, rfl, fun _ _ _ other => by cases other⟩
  | unavailable => exact .returns call _ ⟨rfl, rfl, fun _ _ _ other => by cases other⟩
  | refresh reason => exact goesOn reason isLookup

theorem step_effect {after : State Material Error Key} {input : Input Material Error}
    {output : Output Material Error Key} (stepped : step auth s input = some (after, output)) :
    Effect auth s after output := by
  cases input with
  | tick later =>
    cases stepped
    exact .ticks later
  | keyFor call kid =>
    simp only [step] at stepped
    split at stepped <;> cases stepped
    exact .enters call _ rfl
  | refresh call =>
    simp only [step] at stepped
    split at stepped <;> cases stepped
    exact .enters call _ rfl
  | lookup call =>
    simp only [step] at stepped
    split at stepped
    · rename_i kid _
      have effect := answer_effect auth s call kid (fun _ => .waiting (.keyFor kid))
        fun _ _ => .enters call _ rfl
      rwa [Option.some.inj stepped] at effect
    · cases stepped
  | lock call =>
    simp only [step] at stepped
    split at stepped <;> cases stepped
    · rename_i kid free _
      exact .locks call kid free
    · rename_i free _
      exact .locksToRefresh call free
  | recheck call =>
    simp only [step] at stepped
    split at stepped
    · rename_i kid locked
      have effect := answer_effect auth s call kid (fun reason => .starting (.keyFor kid) reason)
        fun reason stale => .decides call kid reason locked stale
      rwa [Option.some.inj stepped] at effect
    · cases stepped
  | begin call =>
    simp only [step] at stepped
    split at stepped <;> cases stepped
    rename_i purpose reason starting
    exact .begins call purpose reason starting
  | respond call result =>
    simp only [step] at stepped
    split at stepped <;> cases stepped
    rename_i purpose fetching
    exact .responds call purpose result fetching
  | store call =>
    simp only [step] at stepped
    split at stepped <;> cases stepped
    · rename_i kid set fetched
      exact .stores call kid set fetched
    · rename_i set fetched
      exact .refreshes call set fetched
    · rename_i error _
      exact .fails call error
  | read call =>
    simp only [step] at stepped
    split at stepped
    · rename_i kid reading
      split at stepped <;> cases stepped
      · rename_i key isKey
        refine .returns call _ ⟨rfl, rfl, ?_⟩
        intro caller other held isFound
        cases isFound
        exact ⟨rfl, .inr ⟨reading, isKey⟩⟩
      · exact .returns call _ ⟨rfl, rfl, fun _ _ _ other => by cases other⟩
    · cases stepped
  | drop call =>
    simp only [step] at stepped
    split at stepped <;> cases stepped
    exact .returns call _ ⟨rfl, rfl, fun _ _ _ other => by cases other⟩

/-! ## The invariant -/

/-- The cache holds the keys of the last successful fetch, and knows when it was stored. -/
structure HoldsLast (auth : Authenticator Material Key) (s : State Material Error Key)
    (history : List (Fetch Material)) : Prop where
  past : ∀ fetch ∈ history, fetch.completedAt ≤ s.now
  keys : ∀ kid key, s.cache.keys kid = some key → ∃ fetch, history.getLast? = some fetch ∧
    compatibleKeys auth.fromJwk auth.algorithm fetch.set kid = some key
  refreshed : ∀ refreshedAt, s.cache.lastSuccessfulRefresh = some refreshedAt →
    ∃ fetch, history.getLast? = some fetch ∧ fetch.completedAt = refreshedAt

/-- `last` is no earlier than any of the starts, and is past. -/
structure Covers (last : Option Nat) (now : Nat) (history : List Start) : Prop where
  latest : ∀ start ∈ history, ∃ attemptedAt, last = some attemptedAt ∧ start.startedAt ≤ attemptedAt
  past : ∀ attemptedAt, last = some attemptedAt → attemptedAt ≤ now

/-- How two starts are apart. -/
structure Apart (auth : Authenticator Material Key) (earlier later : Start) : Prop where
  unknown : earlier.reason = .unknownKey → later.reason = .unknownKey →
    earlier.startedAt + auth.minimumRefreshInterval ≤ later.startedAt
  expired : later.reason = .expiredCache →
    earlier.startedAt + auth.minimumRefreshInterval ≤ later.startedAt

/-- A fetch may be started for this reason. -/
structure MayStart (auth : Authenticator Material Key) (s : State Material Error Key)
    (reason : RefreshReason) : Prop where
  expired : reason = .expiredCache →
    s.cache.refreshAllowed auth.minimumRefreshInterval s.now = true
  unknown : reason = .unknownKey →
    s.cache.unknownKeyRefreshAllowed auth.minimumRefreshInterval s.now = true

structure Inv (auth : Authenticator Material Key) (s : State Material Error Key)
    (trace : List (Input Material Error × Output Material Error Key)) : Prop where
  held : HoldsLast auth s (fetches trace)
  attempts : Covers s.cache.lastRefreshAttempt s.now (starts trace)
  unknowns : Covers s.cache.lastUnknownKeyRefresh s.now
    ((starts trace).filter fun start => start.reason = .unknownKey)
  apart : (starts trace).Pairwise (Apart auth)
  inside : ∀ call, (s.calls call).isInside = true → s.gate = some call
  reading : ∀ call kid, s.calls call = .reading kid →
    ∃ fetch, (fetches trace).getLast? = some fetch ∧ fetch.call = call
  starting : ∀ call purpose reason, s.calls call = .starting purpose reason →
    MayStart auth s reason

/-! ### Time -/

theorem all_later {interval later : Nat}
    (allowed : (last.all fun attemptedAt => interval ≤ now - attemptedAt) = true) :
    (last.all fun attemptedAt => interval ≤ now + later - attemptedAt) = true := by
  cases last with
  | none => rfl
  | some attemptedAt =>
    have apart : interval ≤ now - attemptedAt := by simpa using allowed
    have still : interval ≤ now + later - attemptedAt := by omega
    simpa using still

theorem Covers.later (covers : Covers last now history) (more : Nat) : Covers last (now + more) history :=
  ⟨covers.latest, fun attemptedAt isLast => (covers.past attemptedAt isLast).trans (by omega)⟩

/-- What was started is an interval ago, once another start is allowed. -/
theorem Covers.apart {interval : Nat} (covers : Covers last now history)
    (allowed : (last.all fun attemptedAt => interval ≤ now - attemptedAt) = true) {start : Start}
    (isStart : start ∈ history) : start.startedAt + interval ≤ now := by
  obtain ⟨attemptedAt, isLast, before⟩ := covers.latest start isStart
  have past := covers.past attemptedAt isLast
  have apart : interval ≤ now - attemptedAt := by simpa [isLast] using allowed
  omega

/-- Recording a start that comes now. -/
theorem Covers.record (covers : Covers last now history) (reason : RefreshReason) :
    Covers (some now) now (history ++ [⟨reason, now⟩]) := by
  constructor
  · intro start isStart
    refine ⟨now, rfl, ?_⟩
    rcases List.mem_append.1 isStart with old | new
    · obtain ⟨attemptedAt, isLast, before⟩ := covers.latest start old
      exact before.trans (covers.past attemptedAt isLast)
    · rw [List.mem_singleton.1 new]
  · intro attemptedAt isLast
    exact (Option.some.inj isLast).ge

theorem HoldsLast.store {history : List (Fetch Material)} (held : HoldsLast auth s history) (call : Nat)
    (set : List (Jwk Material)) :
    HoldsLast auth { s with cache := storeSet auth s set } (history ++ [⟨call, set, s.now⟩]) := by
  constructor
  · intro fetch isFetch
    rcases List.mem_append.1 isFetch with old | new
    · exact held.past fetch old
    · rw [List.mem_singleton.1 new]
  · intro kid key isKey
    exact ⟨_, List.getLast?_concat, isKey⟩
  · intro refreshedAt isLast
    exact ⟨_, List.getLast?_concat, Option.some.inj isLast⟩

/-! ### Steps -/

/-- The calls after a step of one of them: its new phase is accounted for, and the gate still is
whose it was, if that is another's. -/
structure Moves (auth : Authenticator Material Key) (s : State Material Error Key) (call : Nat)
    (phase : Phase Material Error) (gate : Option Nat) : Prop where
  others : ∀ other, other ≠ call → s.gate = some other → gate = some other
  mine : phase.isInside = true → gate = some call
  starting : ∀ purpose reason, phase = .starting purpose reason → MayStart auth s reason

theorem Moves.finish (s : State Material Error Key) (call : Nat) :
    Moves auth s call .done (if s.gate = some call then none else s.gate) := by
  constructor
  · intro other differs isGate
    rw [if_neg]
    · exact isGate
    · intro mine
      rw [isGate] at mine
      exact differs (Option.some.inj mine)
  · intro inside
    cases inside
  · intro purpose reason isStarting
    cases isStarting

/-- The gate stays with the call that has it, or with no call that goes on outside. -/
theorem Moves.keep (mine : phase.isInside = true → s.gate = some call)
    (starting : ∀ purpose reason, phase = .starting purpose reason → MayStart auth s reason) :
    Moves auth s call phase s.gate :=
  ⟨fun _ _ isGate => isGate, mine, starting⟩

theorem Moves.lock (free : s.gate = none)
    (starting : ∀ purpose reason, phase = .starting purpose reason → MayStart auth s reason) :
    Moves auth s call phase (some call) := by
  refine ⟨fun other _ isGate => ?_, fun _ => rfl, starting⟩
  rw [free] at isGate
  cases isGate

namespace Inv

variable {s : State Material Error Key}
variable {trace : List (Input Material Error × Output Material Error Key)}
variable {call : Nat} {phase : Phase Material Error} {gate : Option Nat}

/-- Behind the gate there is one call. -/
theorem alone (inv : Inv auth s trace) {one other : Nat}
    (isOne : (s.calls one).isInside = true) (isOther : (s.calls other).isInside = true) :
    other = one := by
  have isGate := inv.inside one isOne
  rw [inv.inside other isOther] at isGate
  exact Option.some.inj isGate

theorem inside_move (inv : Inv auth s trace) (moves : Moves auth s call phase gate) (other : Nat)
    (isInside : (Function.update s.calls call phase other).isInside = true) :
    gate = some other := by
  by_cases same : other = call
  · subst same
    rw [Function.update_self] at isInside
    exact moves.mine isInside
  · rw [Function.update_of_ne same] at isInside
    exact moves.others other same (inv.inside other isInside)

theorem starting_move (inv : Inv auth s trace) (moves : Moves auth s call phase gate) (other : Nat)
    (purpose : Purpose) (reason : RefreshReason)
    (isStarting : Function.update s.calls call phase other = .starting purpose reason) :
    MayStart auth s reason := by
  rcases update_eq_iff.1 isStarting with ⟨-, isMine⟩ | ⟨-, isTheirs⟩
  · exact moves.starting purpose reason isMine
  · exact inv.starting other purpose reason isTheirs

/-- A call goes on, and no fetch is started or completed. -/
theorem move (inv : Inv auth s trace) (moves : Moves auth s call phase gate)
    (notReading : ∀ kid, phase ≠ .reading kid) (failed : Bool)
    {event : Input Material Error × Output Material Error Key} (noFetch : event.2.fetch? = none)
    (noStart : event.2.start? = none) :
    Inv auth
      { now := s.now, cache := { s.cache with lastRefreshFailed := failed }, gate := gate,
        calls := Function.update s.calls call phase } (trace ++ [event]) := by
  have sameFetches : fetches (trace ++ [event]) = fetches trace := by simp [noFetch]
  have sameStarts : starts (trace ++ [event]) = starts trace := by simp [noStart]
  constructor
  · rw [sameFetches]
    exact ⟨inv.held.past, inv.held.keys, inv.held.refreshed⟩
  · rw [sameStarts]
    exact inv.attempts
  · rw [sameStarts]
    exact inv.unknowns
  · rw [sameStarts]
    exact inv.apart
  · exact inv.inside_move moves
  · intro other kid isReading
    rw [sameFetches]
    rcases update_eq_iff.1 isReading with ⟨-, isMine⟩ | ⟨-, isTheirs⟩
    · exact absurd isMine (notReading kid)
    · exact inv.reading other kid isTheirs
  · intro other purpose reason isStarting
    have may := inv.starting_move moves other purpose reason isStarting
    exact ⟨may.expired, may.unknown⟩

theorem tick (inv : Inv auth s trace) (later : Nat)
    {event : Input Material Error × Output Material Error Key} (noFetch : event.2.fetch? = none)
    (noStart : event.2.start? = none) :
    Inv auth { s with now := s.now + later } (trace ++ [event]) := by
  have sameFetches : fetches (trace ++ [event]) = fetches trace := by simp [noFetch]
  have sameStarts : starts (trace ++ [event]) = starts trace := by simp [noStart]
  constructor
  · rw [sameFetches]
    refine ⟨fun fetch isFetch => ?_, inv.held.keys, inv.held.refreshed⟩
    exact (inv.held.past fetch isFetch).trans (Nat.le_add_right _ _)
  · rw [sameStarts]
    exact inv.attempts.later later
  · rw [sameStarts]
    exact inv.unknowns.later later
  · rw [sameStarts]
    exact inv.apart
  · exact inv.inside
  · rw [sameFetches]
    exact inv.reading
  · intro call purpose reason isStarting
    have may := inv.starting call purpose reason isStarting
    exact ⟨fun expired => all_later (may.expired expired),
      fun unknown => all_later (may.unknown unknown)⟩

/-- The attempt is recorded.  What the call decided behind the gate is still true, so the start
is apart from those before. -/
theorem begin (inv : Inv auth s trace) {purpose : Purpose} {reason : RefreshReason}
    (isStarting : s.calls call = .starting purpose reason) {input : Input Material Error} :
    Inv auth { s.setCall call (.fetching purpose) with cache := recordAttempt s reason }
      (trace ++ [(input, .started reason s.now)]) := by
  have isInside : (s.calls call).isInside = true := by rw [isStarting]; rfl
  have may := inv.starting call purpose reason isStarting
  have sameFetches : fetches (trace ++ [(input, Output.started reason s.now)]) = fetches trace := by
    simp [Output.fetch?]
  have newStart : starts (trace ++ [(input, Output.started reason s.now)]) =
      starts trace ++ [⟨reason, s.now⟩] := by simp [Output.start?]
  have moves : Moves auth s call (.fetching purpose) s.gate :=
    .keep (fun _ => inv.inside call isInside) fun _ _ other => by cases other
  constructor
  · rw [sameFetches]
    exact ⟨inv.held.past, inv.held.keys, inv.held.refreshed⟩
  · rw [newStart]
    exact inv.attempts.record reason
  · rw [newStart, List.filter_append]
    by_cases unknown : reason = .unknownKey
    · subst unknown
      exact inv.unknowns.record .unknownKey
    · have noNew : [(⟨reason, s.now⟩ : Start)].filter
          (fun start => start.reason = .unknownKey) = [] := by simp [unknown]
      have kept : (recordAttempt s reason).lastUnknownKeyRefresh =
          s.cache.lastUnknownKeyRefresh := if_neg unknown
      rw [noNew, List.append_nil]
      simp only [kept]
      exact inv.unknowns
  · rw [newStart, List.pairwise_append]
    refine ⟨inv.apart, List.pairwise_singleton _ _, ?_⟩
    intro earlier isEarlier later isLater
    rw [List.mem_singleton.1 isLater]
    refine ⟨fun wasUnknown unknown => ?_, fun expired => ?_⟩
    · have among : earlier ∈ (starts trace).filter fun start => start.reason = .unknownKey :=
        List.mem_filter.2 ⟨isEarlier, by simpa using wasUnknown⟩
      exact inv.unknowns.apart (may.unknown unknown) among
    · exact inv.attempts.apart (may.expired expired) isEarlier
  · exact inv.inside_move moves
  · intro other kid isReading
    rw [sameFetches]
    rcases update_eq_iff.1 isReading with ⟨-, isMine⟩ | ⟨-, isTheirs⟩
    · cases isMine
    · exact inv.reading other kid isTheirs
  · -- no other call is about to start: it would be behind the gate too
    intro other otherPurpose otherReason isOther
    rcases update_eq_iff.1 isOther with ⟨-, isMine⟩ | ⟨differs, before⟩
    · cases isMine
    · exact absurd (inv.alone isInside (by rw [before]; rfl)) differs

/-- A set is stored, by a call that then reads it or returns. -/
theorem store (inv : Inv auth s trace) {purpose : Purpose} {set : List (Jwk Material)}
    (isFetched : s.calls call = .fetched purpose (.ok set))
    (moves : Moves auth s call phase gate) {input : Input Material Error} :
    Inv auth { now := s.now, cache := storeSet auth s set, gate := gate,
               calls := Function.update s.calls call phase }
      (trace ++ [(input, .stored call set s.now)]) := by
  have isInside : (s.calls call).isInside = true := by rw [isFetched]; rfl
  have newFetch : fetches (trace ++ [(input, Output.stored call set s.now)]) =
      fetches trace ++ [⟨call, set, s.now⟩] := by simp [Output.fetch?]
  have sameStarts : starts (trace ++ [(input, Output.stored call set s.now)]) = starts trace := by
    simp [Output.start?]
  constructor
  · rw [newFetch]
    have held := inv.held.store call set
    exact ⟨held.past, held.keys, held.refreshed⟩
  · rw [sameStarts]
    exact inv.attempts
  · rw [sameStarts]
    exact inv.unknowns
  · rw [sameStarts]
    exact inv.apart
  · exact inv.inside_move moves
  · -- whoever reads now is the call that stored
    intro other kid isReading
    rw [newFetch]
    refine ⟨_, List.getLast?_concat, ?_⟩
    by_contra differs
    have same : other ≠ call := fun same => differs same.symm
    have before := (Function.update_of_ne same phase s.calls).symm.trans isReading
    exact same (inv.alone isInside (by rw [before]; rfl))
  · intro other otherPurpose reason isStarting
    have may := inv.starting_move moves other otherPurpose reason isStarting
    exact ⟨may.expired, may.unknown⟩

theorem next (inv : Inv auth s trace) {after : State Material Error Key}
    {input : Input Material Error} {output : Output Material Error Key}
    (effect : Effect auth s after output) : Inv auth after (trace ++ [(input, output)]) := by
  cases effect with
  | ticks later => exact inv.tick later rfl rfl
  | enters call phase outside =>
    have moves : Moves auth s call phase s.gate := by
      refine .keep (fun isInside => ?_) fun purpose reason isStarting => ?_
      · rw [outside] at isInside
        cases isInside
      · rw [isStarting] at outside
        cases outside
    refine inv.move moves (fun kid isReading => ?_) s.cache.lastRefreshFailed rfl rfl
    rw [isReading] at outside
    cases outside
  | returns call output answers =>
    exact inv.move (.finish s call) (fun kid other => by cases other) s.cache.lastRefreshFailed
      answers.noFetch answers.noStart
  | locks call kid free =>
    have moves : Moves auth s call (.locked kid) (some call) :=
      .lock free fun _ _ other => by cases other
    exact inv.move moves (fun kid other => by cases other) s.cache.lastRefreshFailed rfl rfl
  | locksToRefresh call free =>
    have moves : Moves auth s call (.starting .refresh .explicit) (some call) := by
      refine .lock free fun purpose reason isStarting => ?_
      cases isStarting
      constructor
      · intro expired
        cases expired
      · intro unknown
        cases unknown
    exact inv.move moves (fun kid other => by cases other) s.cache.lastRefreshFailed rfl rfl
  | decides call kid reason locked stale =>
    have isInside : (s.calls call).isInside = true := by rw [locked]; rfl
    have moves : Moves auth s call (.starting (.keyFor kid) reason) s.gate := by
      refine .keep (fun _ => inv.inside call isInside) fun purpose other isStarting => ?_
      cases isStarting
      exact ⟨(cacheLookup_refresh stale).1, (cacheLookup_refresh stale).2⟩
    exact inv.move moves (fun kid other => by cases other) s.cache.lastRefreshFailed rfl rfl
  | begins call purpose reason starting => exact inv.begin starting
  | responds call purpose result fetching =>
    have isInside : (s.calls call).isInside = true := by rw [fetching]; rfl
    have moves : Moves auth s call (.fetched purpose result) s.gate :=
      .keep (fun _ => inv.inside call isInside) fun _ _ other => by cases other
    exact inv.move moves (fun kid other => by cases other) s.cache.lastRefreshFailed rfl rfl
  | stores call kid set fetched =>
    have isInside : (s.calls call).isInside = true := by rw [fetched]; rfl
    have moves : Moves auth s call (.reading kid) s.gate :=
      .keep (fun _ => inv.inside call isInside) fun _ _ other => by cases other
    exact inv.store fetched moves
  | refreshes call set fetched => exact inv.store fetched (.finish s call)
  | fails call error =>
    exact inv.move (.finish s call) (fun kid other => by cases other) true rfl rfl

end Inv

theorem inv_run {trace : List (Input Material Error × Output Material Error Key)}
    (run : (machine auth).Reaches s trace) : Inv auth s trace := by
  induction run with
  | start initial =>
    obtain ⟨emptyCache, free, allIdle⟩ := initial
    have idle : ∀ call, _ = Phase.idle := congrFun allIdle
    constructor
    · exact ⟨by simp [fetches], by simp [emptyCache, JwksCache.empty],
        by simp [emptyCache, JwksCache.empty]⟩
    · exact ⟨by simp [starts], by simp [emptyCache, JwksCache.empty]⟩
    · exact ⟨by simp [starts], by simp [emptyCache, JwksCache.empty]⟩
    · exact List.Pairwise.nil
    · intro call isInside
      rw [idle call] at isInside
      cases isInside
    · intro call kid isReading
      rw [idle call] at isReading
      cases isReading
    · intro call purpose reason isStarting
      rw [idle call] at isStarting
      cases isStarting
  | next run admitted stepped ih => exact ih.next (step_effect stepped)

/-! ## The discipline -/

/-- A fetch is under way until its result is stored. -/
def Phase.isFetching : Phase Material Error → Bool
  | .fetching _ | .fetched .. => true
  | _ => false

theorem Phase.isInside_of_isFetching (isFetching : phase.isFetching = true) : phase.isInside = true := by
  cases phase <;> first | rfl | cases isFetching

structure Disciplined (auth : Authenticator Material Key) (s : State Material Error Key)
    (trace : List (Input Material Error × Output Material Error Key)) : Prop where
  /-- A key that the next step returns is the last fetched set's, which has one entry for it, and
  that set is young or the call's own. -/
  returned : ∀ input after call kid key, step auth s input = some (after, .found call kid key) →
    ∃ fetch, (fetches trace).getLast? = some fetch ∧
      compatibleKeys auth.fromJwk auth.algorithm fetch.set kid = some key ∧
      (entriesOf fetch.set kid).length = 1 ∧
      (fetch.completedAt ≤ s.now ∧ s.now < fetch.completedAt + auth.cacheTtl ∨ fetch.call = call)
  single : ∀ one other, (s.calls one).isFetching = true → (s.calls other).isFetching = true →
    other = one
  apart : (starts trace).Pairwise (Apart auth)

theorem Inv.returned {after : State Material Error Key}
    {trace : List (Input Material Error × Output Material Error Key)} (inv : Inv auth s trace) {key : Key}
    (effect : Effect auth s after (.found call kid key)) :
    ∃ fetch, (fetches trace).getLast? = some fetch ∧
      compatibleKeys auth.fromJwk auth.algorithm fetch.set kid = some key ∧
      (entriesOf fetch.set kid).length = 1 ∧
      (fetch.completedAt ≤ s.now ∧ s.now < fetch.completedAt + auth.cacheTtl ∨
        fetch.call = call) := by
  cases effect with
  | returns _ _ answers =>
    obtain ⟨rfl, fromCache⟩ := answers.found call kid key rfl
    have isKey : s.cache.keys kid = some key := by
      rcases fromCache with looked | read
      · exact (cacheLookup_key looked).1
      · exact read.2
    obtain ⟨fetch, isLast, compatible⟩ := inv.held.keys kid key isKey
    obtain ⟨jwk, one, -⟩ := compatibleKeys_eq_some.1 compatible
    refine ⟨fetch, isLast, compatible, by rw [one]; rfl, ?_⟩
    rcases fromCache with looked | read
    · obtain ⟨-, refreshedAt, isRefreshed, young⟩ := cacheLookup_key looked
      obtain ⟨other, isOther, rfl⟩ := inv.held.refreshed refreshedAt isRefreshed
      rw [isLast] at isOther
      cases isOther
      exact .inl ⟨inv.held.past fetch (List.mem_of_getLast? isLast), young⟩
    · obtain ⟨other, isOther, own⟩ := inv.reading call kid read.1
      rw [isLast] at isOther
      cases isOther
      exact .inr own

/-- **The cache is disciplined**, however calls, answers of the fetcher and the clock interleave. -/
theorem cache_disciplined {s : State Material Error Key}
    {trace : List (Input Material Error × Output Material Error Key)}
    (run : (machine auth).Reaches s trace) : Disciplined auth s trace := by
  have inv := inv_run run
  constructor
  · intro input after call kid key stepped
    exact inv.returned (step_effect stepped)
  · intro one other isOne isOther
    exact inv.alone (Phase.isInside_of_isFetching isOne) (Phase.isInside_of_isFetching isOther)
  · exact inv.apart

/-- Keys that live for ten, and an interval of five. -/
def rotating : Authenticator Nat Nat where
  algorithm := .rs256
  cacheTtl := 10
  minimumRefreshInterval := 5
  fromJwk jwk := some jwk.material

/-- A set with one key for the identifier `a`. -/
def singleKey (material : Nat) : List (Jwk Nat) :=
  [⟨some ['a'], some .rs256, none, none, material⟩]

/-- A call that goes to the fetcher, up to its last look. -/
def fetchingCall (call : Nat) (result : Except Unit (List (Jwk Nat))) : List (Input Nat Unit) :=
  [.keyFor call ['a'], .lookup call, .lock call, .recheck call, .begin call, .respond call result,
    .store call]

/-- A key is fetched, found in the cache, and expires; the next fetch fails, and the one after an
interval brings the key that replaced it. -/
theorem cache_disciplined_rotation :
    ∃ (s : State Nat Unit Nat) (trace : List (Input Nat Unit × Output Nat Unit Nat)),
      starts trace = [⟨.unknownKey, 0⟩, ⟨.expiredCache, 11⟩, ⟨.expiredCache, 16⟩] ∧
      (fetches trace).map Fetch.completedAt = [0, 16] ∧
      Disciplined rotating s trace := by
  have idle : (machine rotating).initial
      (⟨0, .empty, none, fun _ => .idle⟩ : State Nat Unit Nat) := ⟨rfl, rfl, rfl⟩
  obtain ⟨s, trace, run, isStarts, isFetches⟩ := (machine rotating).exists_run_exec
    (fun _ _ _ => True) idle
    (fetchingCall 0 (.ok (singleKey 1)) ++ [.read 0, .tick 3, .keyFor 1 ['a'], .lookup 1, .tick 8] ++
      fetchingCall 2 (.error ()) ++ [.tick 5] ++ fetchingCall 3 (.ok (singleKey 2)))
    (fun _ trace => starts trace = [⟨.unknownKey, 0⟩, ⟨.expiredCache, 11⟩, ⟨.expiredCache, 16⟩] ∧
      (fetches trace).map Fetch.completedAt = [0, 16])
    (by decide +kernel)
  exact ⟨s, trace, isStarts, isFetches, cache_disciplined run⟩

end Rustee.Oidc
