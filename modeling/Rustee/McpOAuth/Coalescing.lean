/-
# Rustee.McpOAuth.Coalescing -- refreshes of one key share their exchanges

Whatever calls there are, a token set is exchanged for a saved one at most once, what a
refresh returns was stored while it ran, and exchanges never overlap.

The guard alone does not give this, because a call observes the stored set before it waits
for the gate.  It is the second load that counts: under the guard the stored set is one no
save has replaced yet (`Ledger.stored`), it stays that while the guard is held, and the save
replaces it by a set that was never seen before.
-/
import Rustee.McpOAuth.Refresh

namespace Rustee.McpOAuth

open Rustee.Foundation

set_option autoImplicit false

/-! ## What a step does -/

/-- The set a call under the guard is about to replace. -/
def Stage.given : Stage → Option McpOAuthTokenSet
  | .current tokens _ | .exchanging tokens _ | .exchanged tokens _ _ => some tokens
  | _ => none

/-- The token set a call returned. -/
def Outcome.tokens : Outcome → Option McpOAuthTokenSet
  | .refreshed tokens => some tokens
  | _ => none

/-- The token set a call is going to return, or has returned. -/
def Stage.result : Stage → Option McpOAuthTokenSet
  | .saved tokens _ => some tokens
  | .leaving outcome _ | .unguarded outcome _ | .unleased outcome _ | .done outcome =>
    outcome.tokens
  | _ => none

/-- What a step of `call` does, by its effect on the gate, the store and the call. -/
inductive Effect (s : State) (call : Nat) : Input → State → Output → Prop
  /-- The call goes on without the gate, from its start or from a revocation. -/
  | plain {input : Input} {next : Stage} {stored : Option McpOAuthTokenSet}
      (free : (s.stage call).hold = none)
      (begun : s.stage call = .idle → ∃ reachable, input = .start call reachable)
      (stays : next.hold = none) (notGiven : next.given = none) (noResult : next.result = none)
      (kept : stored = s.stored ∨ stored = none) (cleared : next = .removed → stored = none) :
      Effect s call input { s.at_ call next with stored } .quiet
  /-- The call ends without the gate. -/
  | ends {input : Input} {outcome : Outcome} (free : (s.stage call).hold = none)
      (begun : s.stage call = .idle → ∃ reachable, input = .start call reachable)
      (void : outcome.tokens = none) :
      Effect s call input (s.at_ call (.done outcome)) (.finished outcome)
  | lease {tokens : McpOAuthTokenSet} (observed : s.stage call = .observed tokens) :
      Effect s call (.lease call)
        { s.at_ call (.leased tokens (s.registry.lease call).2) with
          registry := (s.registry.lease call).1 } .quiet
  | lock {tokens : McpOAuthTokenSet} {gate : Nat} {registry : RefreshGateRegistry}
      (leased : s.stage call = .leased tokens gate)
      (locked : s.registry.lock call gate = some registry) :
      Effect s call (.lock call) { s.at_ call (.locked tokens gate) with registry } .quiet
  | reuse {reachable : Bool} {observed tokens : McpOAuthTokenSet} {gate : Nat}
      (locked : s.stage call = .locked observed gate) (stored : s.stored = some tokens) :
      Effect s call (.load call reachable) (s.at_ call (.leaving (.refreshed tokens) gate)) .quiet
  | keep {reachable : Bool} {observed tokens : McpOAuthTokenSet} {gate : Nat}
      (locked : s.stage call = .locked observed gate) (stored : s.stored = some tokens) :
      Effect s call (.load call reachable) (s.at_ call (.current tokens gate)) .quiet
  | request {tokens : McpOAuthTokenSet} {gate : Nat}
      (current : s.stage call = .current tokens gate) :
      Effect s call (.request call) (s.at_ call (.exchanging tokens gate)) (.requested tokens)
  | receive {given refreshed : McpOAuthTokenSet} {gate : Nat}
      (exchanging : s.stage call = .exchanging given gate) :
      Effect s call (.respond call (some refreshed))
        (s.at_ call (.exchanged given refreshed gate)) .quiet
  | save {given refreshed : McpOAuthTokenSet} {gate : Nat}
      (exchanged : s.stage call = .exchanged given refreshed gate) :
      Effect s call (.save call true)
        { s.at_ call (.saved refreshed gate) with stored := some refreshed }
        (.saved given refreshed)
  | return_ {tokens : McpOAuthTokenSet} {gate : Nat} (saved : s.stage call = .saved tokens gate) :
      Effect s call (.return_ call) (s.at_ call (.leaving (.refreshed tokens) gate)) .quiet
  /-- The call fails or is dropped under the guard. -/
  | leave {input : Input} {outcome : Outcome} {gate : Nat}
      (inside : (s.stage call).hold = some (.inside gate)) (void : outcome.tokens = none) :
      Effect s call input (s.at_ call (.leaving outcome gate)) .quiet
  | giveUp {tokens : McpOAuthTokenSet} {gate : Nat} (leased : s.stage call = .leased tokens gate) :
      Effect s call (.drop call) (s.at_ call (.unguarded .dropped gate)) .quiet
  | unlock {outcome : Outcome} {gate : Nat} (leaving : s.stage call = .leaving outcome gate) :
      Effect s call (.unlock call)
        { s.at_ call (.unguarded outcome gate) with registry := s.registry.unlock gate } .quiet
  | dropLease {outcome : Outcome} {gate : Nat} (unguarded : s.stage call = .unguarded outcome gate) :
      Effect s call (.dropLease call)
        { s.at_ call (.unleased outcome gate) with registry := s.registry.dropLease gate } .quiet
  | dropGate {outcome : Outcome} {gate : Nat} (unleased : s.stage call = .unleased outcome gate) :
      Effect s call (.dropGate call)
        { s.at_ call (.done outcome) with registry := s.registry.dropGate call gate }
        (.finished outcome)

section

variable {flow : McpOAuthAuthorizationFlow} {calls : Nat → Call} {s after : State}
  {input : Input} {output : Output}

variable {reachable : Bool} {call : Nat}

theorem loads_eq_some {tokens : McpOAuthTokenSet}
    (loaded : flow.loadBoundToken (s.loads reachable) = .ok tokens) : s.stored = some tokens := by
  have found := McpOAuthAuthorizationFlow.loadBoundToken_eq_ok loaded
  unfold State.loads at found
  split at found
  · exact Option.some.inj found
  · cases found

/-- A call that ends without the gate and without touching the store. -/
theorem effect_finishes {outcome : Outcome} (free : (s.stage call).hold = none)
    (begun : s.stage call = .idle → ∃ reachable, input = .start call reachable)
    (void : outcome.tokens = none) (finished : s.finishes call outcome = (after, output)) :
    Effect s call input after output := by
  cases finished
  exact .ends free begun void

theorem effect_startRefresh (idle : s.stage call = .idle)
    (stepped : startRefresh flow s call reachable = (after, output)) :
    Effect s call (.start call reachable) after output := by
  have free : (s.stage call).hold = none := by rw [idle]; rfl
  unfold startRefresh at stepped
  split at stepped
  · cases stepped
    exact .plain free (fun _ => ⟨reachable, rfl⟩) rfl rfl rfl (.inl rfl) (by simp)
  · exact effect_finishes free (fun _ => ⟨reachable, rfl⟩) rfl stepped

theorem effect_startRevoke (idle : s.stage call = .idle)
    (stepped : startRevoke flow s call reachable = (after, output)) :
    Effect s call (.start call reachable) after output := by
  have free : (s.stage call).hold = none := by rw [idle]; rfl
  unfold startRevoke at stepped
  split at stepped
  · exact effect_finishes free (fun _ => ⟨reachable, rfl⟩) rfl stepped
  · split at stepped
    · cases stepped
      exact .plain free (fun _ => ⟨reachable, rfl⟩) rfl rfl rfl (.inl rfl) (by simp)
    · exact effect_finishes free (fun _ => ⟨reachable, rfl⟩) rfl stepped

theorem effect_loadCurrent {gate : Nat} {observed : McpOAuthTokenSet}
    (locked : s.stage call = .locked observed gate) :
    Effect s call (.load call reachable)
      (s.at_ call (loadCurrent flow s observed gate reachable)) .quiet := by
  unfold loadCurrent
  split
  · rename_i current loaded
    split
    · exact .reuse locked (loads_eq_some loaded)
    · exact .keep locked (loads_eq_some loaded)
  · exact .leave (by rw [locked]; rfl) rfl

theorem effect_takeReply {gate : Nat} {given : McpOAuthTokenSet} {reply : Option McpOAuthTokenSet}
    (exchanging : s.stage call = .exchanging given gate) :
    Effect s call (.respond call reply) (s.at_ call (takeReply flow given gate reply)) .quiet := by
  have inside : (s.stage call).hold = some (.inside gate) := by rw [exchanging]; rfl
  cases reply with
  | none => exact .leave inside rfl
  | some refreshed =>
    simp only [takeReply]
    split
    · exact .receive exchanging
    · exact .leave inside rfl

theorem effect_dropFrom (stepped : dropFrom s call (s.stage call) = some (after, output)) :
    Effect s call (.drop call) after output := by
  cases stage : s.stage call with
  | observed tokens | revoking | revoked | removed =>
    rw [stage] at stepped
    exact effect_finishes (by rw [stage]; rfl) (by simp [stage]) rfl (Option.some.inj stepped)
  | leased tokens gate =>
    rw [stage] at stepped
    cases stepped
    exact .giveUp stage
  | locked tokens gate | current tokens gate | exchanging tokens gate
  | exchanged given tokens gate | saved tokens gate =>
    rw [stage] at stepped
    cases stepped
    exact .leave (by rw [stage]; rfl) rfl
  | idle | leaving outcome gate | unguarded outcome gate | unleased outcome gate | done outcome =>
    rw [stage] at stepped
    cases stepped

/-- **Every step is one of the effects.** -/
theorem effect_of_step (stepped : step flow calls s input = some (after, output)) :
    ∃ call, Effect s call input after output := by
  cases input with
  | start call reachable =>
    refine ⟨call, ?_⟩
    simp only [step] at stepped
    split at stepped
    · rename_i idle _
      exact effect_startRefresh idle (Option.some.inj stepped)
    · rename_i idle _
      exact effect_startRevoke idle (Option.some.inj stepped)
    · cases stepped
  | lease call =>
    refine ⟨call, ?_⟩
    simp only [step] at stepped
    split at stepped
    · rename_i observed
      cases stepped
      exact .lease observed
    · cases stepped
  | lock call =>
    refine ⟨call, ?_⟩
    simp only [step] at stepped
    split at stepped
    · rename_i leased
      obtain ⟨registry, locked, isAfter⟩ := Option.map_eq_some_iff.1 stepped
      cases isAfter
      exact .lock leased locked
    · cases stepped
  | load call reachable =>
    refine ⟨call, ?_⟩
    simp only [step] at stepped
    split at stepped
    · rename_i locked
      cases stepped
      exact effect_loadCurrent locked
    · cases stepped
  | request call =>
    refine ⟨call, ?_⟩
    simp only [step] at stepped
    split at stepped
    · rename_i current
      unfold sendRequest at stepped
      split at stepped
      · cases stepped
        exact .request current
      · cases stepped
        exact .leave (by rw [current]; rfl) rfl
    · cases stepped
  | respond call reply =>
    refine ⟨call, ?_⟩
    simp only [step] at stepped
    split at stepped
    · rename_i exchanging
      cases stepped
      exact effect_takeReply exchanging
    · cases stepped
  | save call reachable =>
    refine ⟨call, ?_⟩
    simp only [step] at stepped
    split at stepped
    · rename_i exchanged
      cases reachable with
      | true =>
        cases stepped
        exact .save exchanged
      | false =>
        cases stepped
        exact .leave (by rw [exchanged]; rfl) rfl
    · cases stepped
  | return_ call =>
    refine ⟨call, ?_⟩
    simp only [step] at stepped
    split at stepped
    · rename_i saved
      cases stepped
      exact .return_ saved
    · rename_i removed
      exact effect_finishes (by rw [removed]; rfl) (by simp [removed]) rfl
        (Option.some.inj stepped)
    · cases stepped
  | unlock call =>
    refine ⟨call, ?_⟩
    simp only [step] at stepped
    split at stepped
    · rename_i leaving
      cases stepped
      exact .unlock leaving
    · cases stepped
  | dropLease call =>
    refine ⟨call, ?_⟩
    simp only [step] at stepped
    split at stepped
    · rename_i unguarded
      cases stepped
      exact .dropLease unguarded
    · cases stepped
  | dropGate call =>
    refine ⟨call, ?_⟩
    simp only [step] at stepped
    split at stepped
    · rename_i unleased
      cases stepped
      exact .dropGate unleased
    · cases stepped
  | confirm call accepted =>
    refine ⟨call, ?_⟩
    simp only [step] at stepped
    split at stepped
    · rename_i revoking
      have free : (s.stage call).hold = none := by rw [revoking]; rfl
      have begun : s.stage call = .idle → ∃ reachable,
          Input.confirm call accepted = .start call reachable := by simp [revoking]
      cases accepted with
      | true =>
        cases stepped
        exact .plain free begun rfl rfl rfl (.inl rfl) (by simp)
      | false => exact effect_finishes free begun rfl (Option.some.inj stepped)
    · cases stepped
  | remove call reachable =>
    refine ⟨call, ?_⟩
    simp only [step] at stepped
    split at stepped
    · rename_i revoked
      have free : (s.stage call).hold = none := by rw [revoked]; rfl
      have begun : s.stage call = .idle → ∃ at_,
          Input.remove call reachable = .start call at_ := by simp [revoked]
      cases reachable with
      | true =>
        cases stepped
        exact .plain free begun rfl rfl rfl (.inr rfl) (fun _ => rfl)
      | false => exact effect_finishes free begun rfl (Option.some.inj stepped)
    · cases stepped
  | drop call => exact ⟨call, effect_dropFrom stepped⟩

end

/-! ## The gate -/

/-- The registry fits the calls. -/
def Gated (s : State) : Prop := Fits s.registry fun call => (s.stage call).hold

theorem hold_update (stage : Nat → Stage) (call : Nat) (next : Stage) :
    (fun other => (Function.update stage call next other).hold) =
      Function.update (fun other => (stage other).hold) call next.hold := by
  funext other
  by_cases same : other = call
  · subst same
    simp
  · simp [same]

variable {s : State} {call : Nat}

/-- A step that keeps what its call holds of the gate leaves the gate alone. -/
theorem hold_update_same {next : Stage} (same : next.hold = (s.stage call).hold) :
    (fun other => (Function.update s.stage call next other).hold) =
      fun other => (s.stage other).hold := by
  rw [hold_update, same]
  exact Function.update_eq_self call _

theorem gated_effect {after : State} {input : Input} {output : Output} (gated : Gated s)
    (effect : Effect s call input after output) : Gated after := by
  have same {next : Stage} (same : next.hold = (s.stage call).hold) :
      Fits s.registry fun other => (Function.update s.stage call next other).hold := by
    rw [hold_update_same same]
    exact gated
  cases effect with
  | plain free begun stays => exact same (stays.trans free.symm)
  | ends free => exact same free.symm
  | lease observed =>
    simp only [Gated, State.at_, hold_update]
    exact Fits.lease gated (by rw [observed]; rfl)
  | lock leased locked =>
    simp only [Gated, State.at_, hold_update]
    exact Fits.lock gated (by rw [leased]; rfl) locked
  | reuse locked | keep locked => exact same (by rw [locked]; rfl)
  | request current => exact same (by rw [current]; rfl)
  | receive exchanging => exact same (by rw [exchanging]; rfl)
  | save exchanged => exact same (by rw [exchanged]; rfl)
  | return_ saved => exact same (by rw [saved]; rfl)
  | leave inside => exact same inside.symm
  | giveUp leased =>
    simp only [Gated, State.at_, hold_update]
    exact Fits.giveUp gated (by rw [leased]; rfl)
  | unlock leaving =>
    simp only [Gated, State.at_, hold_update]
    exact Fits.unlock gated (by rw [leaving]; rfl)
  | dropLease unguarded =>
    simp only [Gated, State.at_, hold_update]
    exact Fits.dropLease gated (by rw [unguarded]; rfl)
  | dropGate unleased =>
    simp only [Gated, State.at_, hold_update]
    exact Fits.dropGate gated (by rw [unleased]; rfl)

/-- A set about to be replaced is in the hands of the one call with the guard. -/
theorem Gated.exclusive (gated : Gated s) {other : Nat} {first second : McpOAuthTokenSet}
    (mine : (s.stage call).given = some first) (theirs : (s.stage other).given = some second) :
    call = other := by
  have inside {call : Nat} {tokens : McpOAuthTokenSet}
      (given : (s.stage call).given = some tokens) :
      ∃ gate, (s.stage call).hold = some (.inside gate) := by
    cases stage : s.stage call with
    | current tokens gate | exchanging tokens gate | exchanged tokens refreshed gate =>
      exact ⟨gate, rfl⟩
    | _ => simp [stage, Stage.given] at given
  obtain ⟨gate, first⟩ := inside mine
  obtain ⟨gate', second⟩ := inside theirs
  exact Fits.exclusive gated first second

/-! ## Token sets -/

/-- The token sets an exchanger is given or gives. -/
def handledBy : Input × Output → List McpOAuthTokenSet
  | (.respond _ (some tokens), _) => [tokens]
  | (_, .requested given) => [given]
  | _ => []

def handled (trace : List (Input × Output)) : List McpOAuthTokenSet := trace.flatMap handledBy

/-- **The exchanger never repeats itself**: it answers with a token set it was never given
and never gave before. -/
def freshReplies (_ : State) (trace : List (Input × Output)) : Input → Prop
  | .respond _ (some tokens) => tokens ∉ handled trace
  | _ => True

instance (s : State) (trace : List (Input × Output)) (input : Input) :
    Decidable (freshReplies s trace input) := by
  cases input with
  | respond call reply => cases reply <;> unfold freshReplies <;> infer_instance
  | _ => exact inferInstanceAs (Decidable True)

/-- A save of what an exchange made of `tokens`. -/
def replaces (tokens : McpOAuthTokenSet) : Input × Output → Bool
  | (_, .saved given _) => given = tokens
  | _ => false

/-- How many exchanges of `tokens` were followed by a save. -/
def replacements (tokens : McpOAuthTokenSet) (trace : List (Input × Output)) : Nat :=
  trace.countP (replaces tokens)

theorem handled_append (trace : List (Input × Output)) (entry : Input × Output) :
    handled (trace ++ [entry]) = handled trace ++ handledBy entry := by
  simp [handled]

theorem replacements_append (tokens : McpOAuthTokenSet) (trace : List (Input × Output))
    (entry : Input × Output) : replacements tokens (trace ++ [entry]) =
      replacements tokens trace + if replaces tokens entry then 1 else 0 := by
  simp [replacements, List.countP_append, List.countP_singleton]

/-- The set the exchanger was given. -/
def Stage.asked : Stage → Option McpOAuthTokenSet
  | .exchanging tokens _ | .exchanged tokens _ _ => some tokens
  | _ => none

/-- The set the exchanger was given and the one it gave. -/
def Stage.made : Stage → Option (McpOAuthTokenSet × McpOAuthTokenSet)
  | .exchanged given refreshed _ => some (given, refreshed)
  | _ => none

theorem Stage.asked_eq_none {stage : Stage} (notGiven : stage.given = none) :
    stage.asked = none := by
  cases stage <;> simp_all [Stage.given, Stage.asked]

theorem Stage.made_eq_none {stage : Stage} (notGiven : stage.given = none) :
    stage.made = none := by
  cases stage <;> simp_all [Stage.given, Stage.made]

/-- **No token set is replaced twice**, because no set that is stored, or in the hands of a
call with the guard, has been replaced. -/
structure Ledger (s : State) (trace : List (Input × Output)) : Prop where
  once : ∀ tokens, replacements tokens trace ≤ 1
  known : ∀ tokens, 0 < replacements tokens trace → tokens ∈ handled trace
  stored : ∀ tokens, s.stored = some tokens → replacements tokens trace = 0
  given : ∀ call tokens, (s.stage call).given = some tokens → replacements tokens trace = 0
  asked : ∀ call tokens, (s.stage call).asked = some tokens → tokens ∈ handled trace
  made : ∀ call given refreshed, (s.stage call).made = some (given, refreshed) →
    replacements refreshed trace = 0 ∧ refreshed ≠ given

namespace Ledger

variable {s after : State} {trace : List (Input × Output)} {call : Nat} {next : Stage}
  {entry : Input × Output}

/-- A step without a save owes the facts about its own call only. -/
theorem advance (ledger : Ledger s trace) (moved : after.stage = Function.update s.stage call next)
    (quiet : ∀ tokens, replaces tokens entry = false)
    (stored : after.stored = s.stored ∨ after.stored = none)
    (given : ∀ tokens, next.given = some tokens → replacements tokens trace = 0)
    (asked : ∀ tokens, next.asked = some tokens → tokens ∈ handled (trace ++ [entry]))
    (made : ∀ given refreshed, next.made = some (given, refreshed) →
      replacements refreshed trace = 0 ∧ refreshed ≠ given) :
    Ledger after (trace ++ [entry]) := by
  have counts (tokens : McpOAuthTokenSet) :
      replacements tokens (trace ++ [entry]) = replacements tokens trace := by
    simp [replacements_append, quiet tokens]
  have grows {tokens : McpOAuthTokenSet} (member : tokens ∈ handled trace) :
      tokens ∈ handled (trace ++ [entry]) := by
    rw [handled_append]
    exact List.mem_append_left _ member
  refine ⟨?_, ?_, ?_, ?_, ?_, ?_⟩
  · intro tokens
    rw [counts]
    exact ledger.once tokens
  · intro tokens replaced
    rw [counts] at replaced
    exact grows (ledger.known tokens replaced)
  · intro tokens holds
    rw [counts]
    rcases stored with same | gone
    · exact ledger.stored tokens (same ▸ holds)
    · rw [gone] at holds
      cases holds
  · intro other tokens
    rw [counts, moved]
    by_cases same : other = call
    · subst same
      rw [Function.update_self]
      exact given tokens
    · rw [Function.update_of_ne same]
      exact ledger.given other tokens
  · intro other tokens
    rw [moved]
    by_cases same : other = call
    · subst same
      rw [Function.update_self]
      exact asked tokens
    · rw [Function.update_of_ne same]
      exact fun is => grows (ledger.asked other tokens is)
  · intro other given refreshed
    rw [counts, moved]
    by_cases same : other = call
    · subst same
      rw [Function.update_self]
      exact made given refreshed
    · rw [Function.update_of_ne same]
      exact ledger.made other given refreshed

/-- A call that is not between its second load and its save is no matter here. -/
theorem calm (ledger : Ledger s trace) (moved : after.stage = Function.update s.stage call next)
    (quiet : ∀ tokens, replaces tokens entry = false)
    (stored : after.stored = s.stored ∨ after.stored = none) (notGiven : next.given = none) :
    Ledger after (trace ++ [entry]) := by
  refine ledger.advance moved quiet stored ?_ ?_ ?_
  · simp [notGiven]
  · simp [Stage.asked_eq_none notGiven]
  · simp [Stage.made_eq_none notGiven]

/-- The save replaces the set its exchange was given, which no other call holds. -/
theorem save (ledger : Ledger s trace) (gated : Gated s) {given refreshed : McpOAuthTokenSet}
    {gate : Nat} {input : Input} (exchanged : s.stage call = .exchanged given refreshed gate) :
    Ledger { s.at_ call (.saved refreshed gate) with stored := some refreshed }
      (trace ++ [(input, .saved given refreshed)]) := by
  obtain ⟨unreplaced, different⟩ := ledger.made call given refreshed (by rw [exchanged]; rfl)
  have isGiven : (s.stage call).given = some given := by rw [exchanged]; rfl
  have first := ledger.given call given isGiven
  have counts (tokens : McpOAuthTokenSet) :
      replacements tokens (trace ++ [(input, .saved given refreshed)]) =
        replacements tokens trace + if given = tokens then 1 else 0 := by
    simp [replacements_append, replaces]
  have grows {tokens : McpOAuthTokenSet} (member : tokens ∈ handled trace) :
      tokens ∈ handled (trace ++ [(input, .saved given refreshed)]) := by
    rw [handled_append]
    exact List.mem_append_left _ member
  -- The guard is ours, so nobody else is between the second load and the save.
  have alone (other : Nat) : (Function.update s.stage call (.saved refreshed gate) other).given =
      none := by
    by_cases same : other = call
    · subst same
      rw [Function.update_self]
      rfl
    · rw [Function.update_of_ne same]
      cases theirs : (s.stage other).given with
      | none => rfl
      | some tokens => exact absurd (gated.exclusive theirs isGiven) same
  refine ⟨?_, ?_, ?_, ?_, ?_, ?_⟩
  · intro tokens
    rw [counts]
    split
    · rename_i same
      rw [← same, first]
    · exact ledger.once tokens
  · intro tokens replaced
    rw [counts] at replaced
    split at replaced
    · rename_i same
      exact grows (same ▸ ledger.asked call given (by rw [exchanged]; rfl))
    · exact grows (ledger.known tokens replaced)
  · intro tokens holds
    obtain rfl : refreshed = tokens := Option.some.inj holds
    rw [counts, unreplaced, if_neg different.symm]
  · intro other tokens isThere
    rw [State.at_, alone other] at isThere
    cases isThere
  · intro other tokens isThere
    rw [State.at_, Stage.asked_eq_none (alone other)] at isThere
    cases isThere
  · intro other given' refreshed' isThere
    rw [State.at_, Stage.made_eq_none (alone other)] at isThere
    cases isThere

/-- **Every effect keeps the ledger**, if the exchanger's answers are new. -/
theorem effect (ledger : Ledger s trace) (gated : Gated s) {input : Input} {output : Output}
    (fresh : freshReplies s trace input) (effect : Effect s call input after output) :
    Ledger after (trace ++ [(input, output)]) := by
  cases effect with
  | plain free begun stays notGiven noResult kept =>
    exact ledger.calm rfl (fun _ => rfl) kept notGiven
  | ends | lease | lock | reuse | return_ | leave | giveUp | unlock | dropLease | dropGate =>
    exact ledger.calm rfl (fun _ => rfl) (.inl rfl) rfl
  | keep locked stored =>
    refine ledger.advance rfl (fun _ => rfl) (.inl rfl) ?_ (by simp [Stage.asked])
      (by simp [Stage.made])
    rintro _ ⟨⟩
    exact ledger.stored _ stored
  | request current =>
    refine ledger.advance rfl (fun _ => rfl) (.inl rfl) ?_ ?_ (by simp [Stage.made])
    · rintro _ ⟨⟩
      exact ledger.given call _ (by rw [current]; rfl)
    · rintro _ ⟨⟩
      simp [handled_append, handledBy]
  | @receive given refreshed gate exchanging =>
    have asked := ledger.asked call given (by rw [exchanging]; rfl)
    refine ledger.advance rfl (fun _ => rfl) (.inl rfl) ?_ ?_ ?_
    · rintro _ ⟨⟩
      exact ledger.given call given (by rw [exchanging]; rfl)
    · rintro _ ⟨⟩
      rw [handled_append]
      exact List.mem_append_left _ asked
    · rintro _ _ ⟨⟩
      refine ⟨Nat.eq_zero_of_not_pos fun known => fresh (ledger.known refreshed known), ?_⟩
      rintro rfl
      exact fresh asked
  | save exchanged => exact ledger.save gated exchanged

end Ledger

/-! ## Results -/

namespace Effect

variable {s after : State} {call other : Nat} {input : Input} {output : Output}
  {tokens : McpOAuthTokenSet}

/-- A step is a step of one call. -/
theorem others (effect : Effect s call input after output) (different : other ≠ call) :
    after.stage other = s.stage other := by
  cases effect <;> exact Function.update_of_ne different _ _

/-- Only its start takes a call out of `idle`. -/
theorem starts (effect : Effect s call input after output) (idle : s.stage call = .idle) :
    ∃ reachable, input = .start call reachable := by
  cases effect with
  | plain free begun | ends free begun => exact begun idle
  | leave inside => simp [idle, Stage.hold] at inside
  | lease stage | lock stage | reuse stage | keep stage | request stage | receive stage
  | save stage | return_ stage | giveUp stage | unlock stage | dropLease stage
  | dropGate stage => simp [idle] at stage

/-- A result that was not there before is what the store holds, before the step or after. -/
theorem result (effect : Effect s call input after output)
    (result : (after.stage call).result = some tokens) :
    (s.stage call).result = some tokens ∨
      s.stage call ≠ .idle ∧ (s.stored = some tokens ∨ after.stored = some tokens) := by
  have now {next : Stage} (result : (Function.update s.stage call next call).result = some tokens) :
      next.result = some tokens := by rwa [Function.update_self] at result
  cases effect with
  | plain free begun stays notGiven noResult => exact absurd (now result) (by simp [noResult])
  | ends free begun void | leave inside void =>
    exact absurd (now result) (by simp [Stage.result, void])
  | lease | lock | keep | request | receive | giveUp => cases now result
  | reuse locked stored =>
    cases now result
    exact .inr ⟨by simp [locked], .inl stored⟩
  | save exchanged =>
    cases now result
    exact .inr ⟨by simp [exchanged], .inr rfl⟩
  | return_ stage | unlock stage | dropLease stage | dropGate stage =>
    have carried := now result
    rw [stage]
    exact .inl carried

/-- A token set is returned at the end of its call. -/
theorem finished (effect : Effect s call input after (.finished (.refreshed tokens))) :
    input = .dropGate call ∧ (s.stage call).result = some tokens := by
  cases effect with
  | ends free begun void => cases void
  | dropGate unleased => exact ⟨rfl, by rw [unleased]; rfl⟩

end Effect

section

variable (flow : McpOAuthAuthorizationFlow) (calls : Nat → Call)

/-- After the steps of `earlier`, and before those of `later` led to `s`, the call had begun
and the store held `tokens`. -/
def StoredBetween (call : Nat) (tokens : McpOAuthTokenSet) (earlier later : List (Input × Output))
    (s : State) : Prop :=
  (∃ reachable output, (.start call reachable, output) ∈ earlier) ∧
  ∃ there, (tokenLifecycle flow calls).Run freshReplies there earlier ∧
    there.stored = some tokens ∧ (tokenLifecycle flow calls).Path there later s

variable {flow calls} {s after : State} {trace earlier later : List (Input × Output)}
  {call : Nat} {input : Input} {output : Output} {tokens : McpOAuthTokenSet}

theorem StoredBetween.next (stored : StoredBetween flow calls call tokens earlier later s)
    (stepped : step flow calls s input = some (after, output)) :
    StoredBetween flow calls call tokens earlier (later ++ [(input, output)]) after := by
  obtain ⟨began, there, run, holds, path⟩ := stored
  exact ⟨began, there, run, holds, path.next stepped⟩

variable (flow calls) in
/-- **Every result was stored** while its call ran. -/
structure Grounded (s : State) (trace : List (Input × Output)) : Prop where
  began : ∀ call, s.stage call ≠ .idle → ∃ reachable output, (.start call reachable, output) ∈ trace
  result : ∀ call tokens, (s.stage call).result = some tokens →
    ∃ earlier later, trace = earlier ++ later ∧ StoredBetween flow calls call tokens earlier later s
  returned : ∀ input tokens, (input, .finished (.refreshed tokens)) ∈ trace →
    ∃ call earlier later, input = .dropGate call ∧ trace = earlier ++ later ∧
      (input, .finished (.refreshed tokens)) ∈ later ∧
      StoredBetween flow calls call tokens earlier later s

/-- The moment is the second load of a call that found another set, or the save. -/
theorem Grounded.next (grounded : Grounded flow calls s trace)
    (run : (tokenLifecycle flow calls).Run freshReplies s trace)
    (fresh : freshReplies s trace input)
    (stepped : step flow calls s input = some (after, output)) :
    Grounded flow calls after (trace ++ [(input, output)]) := by
  obtain ⟨mover, effect⟩ := effect_of_step stepped
  have older {call : Nat} {tokens : McpOAuthTokenSet} (held : ∃ earlier later,
      trace = earlier ++ later ∧ StoredBetween flow calls call tokens earlier later s) :
      ∃ earlier later, trace ++ [(input, output)] = earlier ++ later ∧
        StoredBetween flow calls call tokens earlier later after := by
    obtain ⟨earlier, later, rfl, stored⟩ := held
    exact ⟨earlier, _, List.append_assoc _ _ _, stored.next stepped⟩
  refine ⟨?_, ?_, ?_⟩
  · intro call notIdle
    by_cases idle : s.stage call = .idle
    · have same : call = mover := by
        by_contra different
        rw [effect.others different] at notIdle
        exact notIdle idle
      subst same
      obtain ⟨reachable, rfl⟩ := effect.starts idle
      exact ⟨reachable, output, by simp⟩
    · obtain ⟨reachable, seen, member⟩ := grounded.began call idle
      exact ⟨reachable, seen, List.mem_append_left _ member⟩
  · intro call tokens result
    by_cases same : call = mover
    · subst same
      rcases effect.result result with before | ⟨notIdle, stored | stored⟩
      · exact older (grounded.result call tokens before)
      · exact ⟨trace, _, rfl, grounded.began call notIdle, s, run, stored,
          (Machine.Path.refl s).next stepped⟩
      · obtain ⟨reachable, seen, member⟩ := grounded.began call notIdle
        exact ⟨_, [], (List.append_nil _).symm, ⟨reachable, seen, List.mem_append_left _ member⟩,
          after, run.next fresh stepped, stored, .refl after⟩
    · rw [effect.others same] at result
      exact older (grounded.result call tokens result)
  · intro done tokens member
    rcases List.mem_append.1 member with member | member
    · obtain ⟨call, earlier, later, isDrop, rfl, inside, stored⟩ :=
        grounded.returned done tokens member
      exact ⟨call, earlier, _, isDrop, List.append_assoc _ _ _, List.mem_append_left _ inside,
        stored.next stepped⟩
    · obtain ⟨rfl, rfl⟩ := Prod.mk.inj (List.mem_singleton.1 member)
      obtain ⟨isDrop, result⟩ := effect.finished
      obtain ⟨earlier, later, rfl, stored⟩ := grounded.result mover tokens result
      exact ⟨mover, earlier, _, isDrop, List.append_assoc _ _ _, by simp, stored.next stepped⟩

/-! ## Whole runs -/

theorem gated_run (run : (tokenLifecycle flow calls).Run freshReplies s trace) : Gated s := by
  induction run with
  | start initial =>
    obtain ⟨registry, stages⟩ := initial
    simp only [Gated, registry, stages]
    exact fits_empty
  | next run admitted stepped ih =>
    obtain ⟨call, effect⟩ := effect_of_step stepped
    exact gated_effect ih effect

theorem ledger_run (run : (tokenLifecycle flow calls).Run freshReplies s trace) :
    Ledger s trace := by
  induction run with
  | start initial =>
    obtain ⟨-, stages⟩ := initial
    constructor <;> simp [stages, replacements, Stage.given, Stage.asked, Stage.made]
  | next run admitted stepped ih =>
    obtain ⟨call, effect⟩ := effect_of_step stepped
    exact ih.effect (gated_run run) admitted effect

theorem grounded_run (run : (tokenLifecycle flow calls).Run freshReplies s trace) :
    Grounded flow calls s trace := by
  induction run with
  | start initial =>
    obtain ⟨-, stages⟩ := initial
    constructor <;> simp [stages, Stage.result]
  | next run admitted stepped ih => exact ih.next run admitted stepped

/-- **Refreshes of one key are coalesced.**  In every run of any calls, with an exchanger that
never repeats itself: of the exchanges of one token set at most one is followed by a save; a
token set that is returned was stored between the start of its call and its return; and
exchanges under way at once are one. -/
theorem refresh_coalesces (run : (tokenLifecycle flow calls).Run freshReplies s trace) :
    (∀ tokens, replacements tokens trace ≤ 1) ∧
    (∀ input tokens, (input, .finished (.refreshed tokens)) ∈ trace →
      ∃ call earlier later, input = .dropGate call ∧ trace = earlier ++ later ∧
        (input, .finished (.refreshed tokens)) ∈ later ∧
        StoredBetween flow calls call tokens earlier later s) ∧
    (∀ call other given given' gate gate', s.stage call = .exchanging given gate →
      s.stage other = .exchanging given' gate' → call = other) := by
  refine ⟨(ledger_run run).once, (grounded_run run).returned, ?_⟩
  intro call other given given' gate gate' mine theirs
  have isGiven : (s.stage call).given = some given := by rw [mine]; rfl
  have isGiven' : (s.stage other).given = some given' := by rw [theirs]; rfl
  exact (gated_run run).exclusive isGiven isGiven'

end

/-! ## Two refreshes at once -/

def mcpFlow : McpOAuthAuthorizationFlow :=
  { resource := ⟨"https://mcp.example.com/", none, none⟩, clientId := "client"
    revocationEndpoint := none }

def tokensNamed (name : String) : McpOAuthTokenSet :=
  { resource := mcpFlow.resource, accessToken := ⟨name, none⟩, refreshToken := some name }

/-- Both calls observe `old`; the second waits for the exchange of the first and returns what
it saved. -/
theorem refresh_coalesces_pair :
    ∃ s trace, (tokenLifecycle mcpFlow fun _ => .refresh).Run freshReplies s trace ∧
      (.dropGate 0, .finished (.refreshed (tokensNamed "new"))) ∈ trace ∧
      (.dropGate 1, .finished (.refreshed (tokensNamed "new"))) ∈ trace ∧
      replacements (tokensNamed "old") trace = 1 ∧
      ∀ tokens, replacements tokens trace ≤ 1 := by
  have start : (tokenLifecycle mcpFlow fun _ => .refresh).initial
      ⟨some (tokensNamed "old"), .empty, fun _ => .idle⟩ := ⟨rfl, rfl⟩
  obtain ⟨s, trace, run, first, second, one⟩ := Machine.exists_run_exec
    (tokenLifecycle mcpFlow fun _ => .refresh) freshReplies start
    [.start 0 true, .start 1 true, .lease 0, .lock 0, .lease 1, .load 0 true, .request 0,
      .respond 0 (some (tokensNamed "new")), .save 0 true, .return_ 0, .unlock 0, .lock 1,
      .dropLease 0, .dropGate 0, .load 1 true, .unlock 1, .dropLease 1, .dropGate 1]
    (fun _ trace => (.dropGate 0, .finished (.refreshed (tokensNamed "new"))) ∈ trace ∧
      (.dropGate 1, .finished (.refreshed (tokensNamed "new"))) ∈ trace ∧
      replacements (tokensNamed "old") trace = 1) (by decide +kernel)
  exact ⟨s, trace, run, first, second, one, (refresh_coalesces run).1⟩

end Rustee.McpOAuth
