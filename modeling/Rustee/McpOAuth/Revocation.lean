/-
# Rustee.McpOAuth.Revocation -- a removed token set and the refresh that outlives it

`revoke_and_remove` removes the record without the gate that `refresh` holds from its second
load to its save.  A refresh that is waiting for the exchanger when the record goes therefore
saves its answer afterwards, and the store holds a token set again although the revocation
returned `Ok` and nothing was started since (`late_save_restores`).

That is the only way.  In a run where every save still finds the set its exchange was given,
an empty store stays empty (`Effect.stored_none`), so a revocation is final
(`revocation_is_final`).
-/
import Rustee.McpOAuth.Coalescing

namespace Rustee.McpOAuth

open Rustee.Foundation

set_option autoImplicit false

/-- **Revocation is final.**  If a revocation has returned `Ok` and no refresh has started
since, the store is empty. -/
def RevocationFinal (calls : Nat → Call) (s : State) (trace : List (Input × Output)) : Prop :=
  ∀ earlier later call, trace = earlier ++ (.return_ call, .finished .removed) :: later →
    (∀ other reachable output, (.start other reachable, output) ∈ later →
      calls other ≠ .refresh) → s.stored = none

/-- A save that takes effect finds the token set its exchange was given. -/
def savesInPlace (s : State) (_ : List (Input × Output)) : Input → Prop
  | .save call true => (s.stage call).asked = s.stored
  | _ => True

instance (s : State) (trace : List (Input × Output)) (input : Input) :
    Decidable (savesInPlace s trace input) :=
  match input with
  | .save call true => inferInstanceAs (Decidable ((s.stage call).asked = s.stored))
  | .save _ false | .start .. | .lease _ | .lock _ | .load .. | .request _ | .respond .. | .return_ _
  | .unlock _ | .dropLease _ | .dropGate _ | .confirm .. | .remove .. | .drop _ => .isTrue trivial

section

variable {flow : McpOAuthAuthorizationFlow} {calls : Nat → Call} {s after : State}
  {trace : List (Input × Output)} {input : Input} {output : Output} {call : Nat}

/-- Only a save fills the store. -/
theorem Effect.stored_none (effect : Effect s call input after output)
    (inPlace : savesInPlace s trace input) (empty : s.stored = none) : after.stored = none := by
  cases effect with
  | plain free begun stays notGiven noResult kept cleared =>
    rcases kept with kept | kept
    · exact kept.trans empty
    · exact kept
  | save exchanged =>
    have asked : (s.stage call).asked = s.stored := inPlace
    rw [exchanged, empty] at asked
    cases asked
  | _ => exact empty

/-- A revocation that has removed the record was there when the store was emptied. -/
theorem Effect.cleared (effect : Effect s call input after output)
    (removed : after.stage call = .removed) : s.stage call = .removed ∨ after.stored = none := by
  have now {next : Stage} (is : Function.update s.stage call next call = .removed) :
      next = .removed := by rwa [Function.update_self] at is
  cases effect with
  | plain free begun stays notGiven noResult kept cleared => exact .inr (cleared (now removed))
  | _ => cases now removed

theorem removed_of_return (stepped : step flow calls s (.return_ call) =
    some (after, .finished .removed)) : s.stage call = .removed := by
  simp only [step] at stepped
  split at stepped
  · cases stepped
  · assumption
  · cases stepped

/-- What a removal leaves behind: an empty store, before its call returns and afterwards. -/
structure Emptied (s : State) (trace : List (Input × Output)) : Prop where
  removed : ∀ call, s.stage call = .removed → s.stored = none
  returned : ∀ call, (.return_ call, .finished .removed) ∈ trace → s.stored = none

theorem Emptied.next (emptied : Emptied s trace) (inPlace : savesInPlace s trace input)
    (stepped : step flow calls s input = some (after, output)) :
    Emptied after (trace ++ [(input, output)]) := by
  obtain ⟨mover, effect⟩ := effect_of_step stepped
  refine ⟨?_, ?_⟩
  · intro call removed
    by_cases same : call = mover
    · subst same
      rcases effect.cleared removed with before | empty
      · exact effect.stored_none inPlace (emptied.removed call before)
      · exact empty
    · rw [effect.others same] at removed
      exact effect.stored_none inPlace (emptied.removed call removed)
  · intro call member
    rcases List.mem_append.1 member with member | member
    · exact effect.stored_none inPlace (emptied.returned call member)
    · obtain ⟨rfl, rfl⟩ := Prod.mk.inj (List.mem_singleton.1 member)
      exact effect.stored_none inPlace (emptied.removed call (removed_of_return stepped))

theorem emptied_run (run : (tokenLifecycle flow calls).Run savesInPlace s trace) :
    Emptied s trace := by
  induction run with
  | start initial =>
    obtain ⟨-, stages⟩ := initial
    constructor <;> simp [stages]
  | next run admitted stepped ih => exact ih.next admitted stepped

/-- **A revocation is final if every save is in place.**  The store stays empty after it, also
when refreshes start later, as these find nothing to refresh. -/
theorem revocation_is_final (run : (tokenLifecycle flow calls).Run savesInPlace s trace) :
    RevocationFinal calls s trace := by
  rintro earlier later call rfl -
  exact (emptied_run run).returned call (by simp)

end

/-! ## A revocation beside a refresh -/

def revocableFlow : McpOAuthAuthorizationFlow :=
  { mcpFlow with revocationEndpoint := some ⟨"https://auth.example.com/revoke", none, none⟩ }

/-- Call 0 refreshes, every other call revokes. -/
def refreshThenRevoke : Nat → Call
  | 0 => .refresh
  | _ => .revokeAndRemove

/-- The refresh saves first, so the revocation that follows leaves nothing. -/
theorem revocation_is_final_afterRefresh :
    ∃ s trace, (tokenLifecycle revocableFlow refreshThenRevoke).Run savesInPlace s trace ∧
      (.save 0 true, .saved (tokensNamed "old") (tokensNamed "new")) ∈ trace ∧
      (.return_ 1, .finished .removed) ∈ trace ∧ RevocationFinal refreshThenRevoke s trace := by
  have start : (tokenLifecycle revocableFlow refreshThenRevoke).initial
      ⟨some (tokensNamed "old"), .empty, fun _ => .idle⟩ := ⟨rfl, rfl⟩
  obtain ⟨s, trace, run, saved, returned⟩ := Machine.exists_run_exec
    (tokenLifecycle revocableFlow refreshThenRevoke) savesInPlace start
    [.start 0 true, .start 1 true, .lease 0, .lock 0, .load 0 true, .request 0,
      .respond 0 (some (tokensNamed "new")), .save 0 true, .confirm 1 true, .remove 1 true,
      .return_ 1]
    (fun _ trace => (.save 0 true, .saved (tokensNamed "old") (tokensNamed "new")) ∈ trace ∧
      (.return_ 1, .finished .removed) ∈ trace) (by decide +kernel)
  exact ⟨s, trace, run, saved, returned, revocation_is_final run⟩

/-- **A late save undoes a revocation.**  The revocation returns while the refresh still waits
for the exchanger; nothing starts afterwards, and the store holds the new token set. -/
theorem late_save_restores :
    ∃ s trace, (tokenLifecycle revocableFlow refreshThenRevoke).Reaches s trace ∧
      s.stored = some (tokensNamed "new") ∧ ¬RevocationFinal refreshThenRevoke s trace := by
  have start : (tokenLifecycle revocableFlow refreshThenRevoke).initial
      ⟨some (tokensNamed "old"), .empty, fun _ => .idle⟩ := ⟨rfl, rfl⟩
  obtain ⟨s, trace, run, stored, isTrace⟩ := Machine.exists_run_exec
    (tokenLifecycle revocableFlow refreshThenRevoke) (fun _ _ _ => True) start
    [.start 0 true, .lease 0, .lock 0, .load 0 true, .request 0, .start 1 true, .confirm 1 true,
      .remove 1 true, .return_ 1, .respond 0 (some (tokensNamed "new")), .save 0 true]
    (fun s trace => s.stored = some (tokensNamed "new") ∧
      trace = [(.start 0 true, .quiet), (.lease 0, .quiet), (.lock 0, .quiet),
        (.load 0 true, .quiet), (.request 0, .requested (tokensNamed "old")),
        (.start 1 true, .quiet), (.confirm 1 true, .quiet), (.remove 1 true, .quiet)] ++
        (.return_ 1, .finished .removed) :: [(.respond 0 (some (tokensNamed "new")), .quiet),
          (.save 0 true, .saved (tokensNamed "old") (tokensNamed "new"))]) (by decide +kernel)
  refine ⟨s, trace, run, stored, ?_⟩
  intro final
  have empty := final _ _ 1 isTrace (by simp)
  rw [stored] at empty
  cases empty

end Rustee.McpOAuth
