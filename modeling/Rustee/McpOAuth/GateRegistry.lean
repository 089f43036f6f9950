/-
# Rustee.McpOAuth.GateRegistry -- what the leases leave in the registry

The registry of `rustee-ai-mcp-oauth/src/authorization/refresh_gate.rs` for all keys at once, under
any interleaving of leases and of the two moments in which a lease is dropped.  A check is shown
with the calls that then still had a reference to the gate of the lease.

An entry is left behind exactly when the last check of its key found others: leases whose own
checks were over, and whose references were not released yet.
-/
import Rustee.McpOAuth.RefreshGate
import Rustee.Foundation.Machine

namespace Rustee.McpOAuth.GateRegistry

open Rustee.Foundation

set_option autoImplicit false

variable {Key : Type} [DecidableEq Key]

/-- The registry under each key, and where the leases of the key are. -/
structure Gates (Key : Type) where
  registry : Key → RefreshGateRegistry
  hold : Key → Nat → Option Hold

def Gates.set (s : Gates Key) (key : Key) (registry : RefreshGateRegistry) (call : Nat)
    (place : Option Hold) : Gates Key :=
  ⟨Function.update s.registry key registry,
    Function.update s.hold key (Function.update (s.hold key) call place)⟩

theorem Gates.hold_set (s : Gates Key) (key : Key) (registry : RefreshGateRegistry) (call : Nat)
    (place : Option Hold) : (s.set key registry call place).hold key call = place := by
  simp [Gates.set]

inductive Input (Key : Type) where
  | lease (key : Key) (call : Nat)
  /-- `drop` of a lease runs, under the mutex. -/
  | drop (key : Key) (call : Nat)
  /-- The `gate` of the dropped lease is released. -/
  | release (key : Key) (call : Nat)
  deriving DecidableEq

def Input.key : Input Key → Key
  | .lease key _ | .drop key _ | .release key _ => key

inductive Output where
  | quiet
  | checked (others : List Nat)
  deriving DecidableEq

def machine (Key : Type) [DecidableEq Key] : Machine (Gates Key) (Input Key) Output where
  initial s := s = ⟨fun _ => .empty, fun _ _ => none⟩
  step s
    | .lease key call =>
      match s.hold key call with
      | none =>
        let leased := (s.registry key).lease call
        some (s.set key leased.1 call (some (.waiting leased.2)), .quiet)
      | some _ => none
    | .drop key call =>
      match s.hold key call with
      | some (.waiting gate) =>
        some (s.set key ((s.registry key).dropLease gate) call (some (.dropping gate)),
          .checked (((s.registry key).gates gate).owners.erase call))
      | _ => none
    | .release key call =>
      match s.hold key call with
      | some (.dropping gate) =>
        some (s.set key ((s.registry key).dropGate call gate) call none, .quiet)
      | _ => none

/-! ## Steps -/

inductive Effect (s : Gates Key) : Input Key → Gates Key → Output → Prop
  | lease {key : Key} {call : Nat} (free : s.hold key call = none) :
      Effect s (.lease key call) (s.set key ((s.registry key).lease call).1 call
        (some (.waiting ((s.registry key).lease call).2))) .quiet
  | drop {key : Key} {call gate : Nat} (leased : s.hold key call = some (.waiting gate)) :
      Effect s (.drop key call)
        (s.set key ((s.registry key).dropLease gate) call (some (.dropping gate)))
        (.checked (((s.registry key).gates gate).owners.erase call))
  | release {key : Key} {call gate : Nat} (dropping : s.hold key call = some (.dropping gate)) :
      Effect s (.release key call) (s.set key ((s.registry key).dropGate call gate) call none) .quiet

variable {s after : Gates Key} {input : Input Key} {output : Output} {trace : List (Input Key × Output)}

theorem effect_of_step (stepped : (machine Key).step s input = some (after, output)) :
    Effect s input after output := by
  cases input with
  | lease key call =>
    simp only [machine] at stepped
    split at stepped
    · cases stepped
      exact .lease ‹_›
    · cases stepped
  | drop key call =>
    simp only [machine] at stepped
    split at stepped
    · cases stepped
      exact .drop ‹_›
    · cases stepped
  | release key call =>
    simp only [machine] at stepped
    split at stepped
    · cases stepped
      exact .release ‹_›
    · cases stepped

/-- Every key's registry matches its leases. -/
def AllFit (s : Gates Key) : Prop := ∀ key, Fits (s.registry key) (s.hold key)

theorem AllFit.set (fits : AllFit s) {key : Key} {registry : RefreshGateRegistry} {call : Nat}
    {place : Option Hold} (own : Fits registry (Function.update (s.hold key) call place)) :
    AllFit (s.set key registry call place) := by
  intro other
  by_cases same : other = key
  · subst same
    simpa [Gates.set] using own
  · simpa [Gates.set, Function.update_of_ne same] using fits other

theorem AllFit.effect (fits : AllFit s) (effect : Effect s input after output) : AllFit after := by
  cases effect with
  | lease free => exact fits.set ((fits _).lease free)
  | drop leased =>
    -- A lease that was never locked, or no longer is, gives up its place before it goes.
    have own := ((fits _).giveUp leased).dropLease (Function.update_self ..)
    rw [Function.update_idem] at own
    exact fits.set own
  | release dropping => exact fits.set ((fits _).dropGate dropping)

theorem allFit_of_reaches (run : (machine Key).Reaches s trace) : AllFit s := by
  refine Machine.Run.invariant (I := fun s _ => AllFit s) ?_ ?_ run
  · rintro s rfl
    exact fun _ => fits_empty
  · intro before after trace input output _ fits _ stepped
    exact fits.effect (effect_of_step stepped)

/-! ## The last check -/

/-- Whom a check of the key found. -/
def foundBy (key : Key) : Input Key × Output → Option (List Nat)
  | (.drop checked _, .checked others) => if checked = key then some others else none
  | _ => none

def lastFound (key : Key) (trace : List (Input Key × Output)) : Option (List Nat) :=
  (trace.filterMap (foundBy key)).getLast?

/-- A step leaves the other keys alone. -/
theorem Effect.other (effect : Effect s input after output) {key : Key} (differs : key ≠ input.key) :
    after.registry key = s.registry key ∧ after.hold key = s.hold key ∧
      foundBy key (input, output) = none := by
  cases effect with
  | lease free => exact ⟨Function.update_of_ne differs .., Function.update_of_ne differs .., rfl⟩
  | drop leased =>
    exact ⟨Function.update_of_ne differs .., Function.update_of_ne differs .., if_neg differs.symm⟩
  | release dropping =>
    exact ⟨Function.update_of_ne differs .., Function.update_of_ne differs .., rfl⟩

/-- No lease of the key has still to be dropped. -/
def Unleased (s : Gates Key) (key : Key) : Prop :=
  ∀ call place, s.hold key call = some place → place.leased = false

theorem lastFound_of_quiet {key : Key} {event : Input Key × Output} (quiet : foundBy key event = none) :
    lastFound key (trace ++ [event]) = lastFound key trace := by
  simp [lastFound, List.filterMap_append, quiet]

theorem lastFound_of_check {key : Key} {event : Input Key × Output} {others : List Nat}
    (found : foundBy key event = some others) :
    lastFound key (trace ++ [event]) = some others := by
  simp [lastFound, List.filterMap_append, found]

/-- A check takes the entry out when it finds nobody else. -/
theorem dropLease_entry {r : RefreshGateRegistry} {gate call : Nat} (entry : r.entry = some gate)
    (owns : call ∈ (r.gates gate).owners) :
    (r.dropLease gate).entry = none ↔ (r.gates gate).owners.erase call = [] := by
  have count := List.length_erase_of_mem owns
  have positive := List.length_pos_of_mem owns
  rw [RefreshGateRegistry.dropLease, ← List.length_eq_zero_iff, count]
  split
  · rename_i alone
    simp [alone.1]
  · rename_i shared
    have many : (r.gates gate).owners.length ≠ 1 := fun one => shared ⟨one, entry⟩
    rw [entry]
    simp only [reduceCtorEq, false_iff]
    omega

theorem entry_none_iff_of_unleased {key : Key} (run : (machine Key).Reaches s trace) :
    Unleased s key → ((s.registry key).entry = none ↔ ∀ others ∈ lastFound key trace, others = []) := by
  refine Machine.Run.invariant (I := fun s trace => Unleased s key →
    ((s.registry key).entry = none ↔ ∀ others ∈ lastFound key trace, others = [])) ?_ ?_ run
  · rintro s rfl -
    simp [lastFound, RefreshGateRegistry.empty]
  · intro before after trace input output run ih _ stepped unleased
    have fits := allFit_of_reaches run key
    have effect := effect_of_step stepped
    by_cases other : key ≠ input.key
    · obtain ⟨sameRegistry, sameHold, quiet⟩ := effect.other other
      rw [Unleased, sameHold] at unleased
      rw [sameRegistry, lastFound_of_quiet quiet]
      exact ih unleased
    · rw [not_not] at other
      subst other
      cases effect with
      | @lease key call free =>
        -- The new lease has still to be dropped.
        have held := unleased call _ (before.hold_set key _ call _)
        cases held
      | @drop key call gate leased =>
        have checks := dropLease_entry (fits.registered call _ leased rfl) (fits.owns call _ leased)
        have found (others : List Nat) :
            foundBy key (.drop key call, .checked others) = some others := if_pos rfl
        rw [Input.key, lastFound_of_check (found _)]
        simpa [Gates.set, Input.key, Hold.gate] using checks
      | @release key call gate dropping =>
        have unleasedBefore : Unleased before key := by
          intro other place isAt
          by_cases sameCall : other = call
          · subst sameCall
            cases dropping.symm.trans isAt
            rfl
          · refine unleased other place ?_
            simpa [Gates.set, Input.key, Function.update_of_ne sameCall] using isAt
        rw [lastFound_of_quiet rfl]
        simpa [Gates.set, Input.key, RefreshGateRegistry.dropGate, RefreshGateRegistry.setGate] using
          ih unleasedBefore

/-- **When nothing is left behind.**  Once all leases of a key are gone, its entry is gone exactly if
the last check of the key came after every other reference to the gate had been released. -/
theorem registry_entry_gone_iff {s : Gates Key} {trace : List (Input Key × Output)} {key : Key}
    (run : (machine Key).Reaches s trace) (dropped : ∀ call, s.hold key call = none) :
    (s.registry key).entry = none ↔ ∀ others ∈ lastFound key trace, others = [] :=
  entry_none_iff_of_unleased run fun call place isAt => by
    rw [dropped] at isAt
    cases isAt

/-- Two leases of one key whose checks both run before the first reference is released. -/
def overlappingDrops : List (Input Unit) :=
  [.lease () 0, .lease () 1, .drop () 0, .drop () 1, .release () 0, .release () 1]

/-- They leave the entry behind. -/
theorem entry_left_behind : ∃ s trace, (machine Unit).Reaches s trace ∧
    trace.map Prod.fst = overlappingDrops ∧ (∀ call, s.hold () call = none) ∧
    (s.registry ()).entry = some 0 := by
  refine ⟨_, _, Machine.run_exec (.start rfl)
    (rfl : (machine Unit).exec (fun _ _ _ => True) _ [] overlappingDrops = some (_, _)), rfl, ?_, rfl⟩
  rintro (_ | _ | call) <;> rfl

/-- The same leases, where the first reference is released before the second check. -/
theorem registry_entry_gone_iff_apart : ∃ s trace, (machine Unit).Reaches s trace ∧
    trace.map Prod.fst =
      [.lease () 0, .lease () 1, .drop () 0, .release () 0, .drop () 1, .release () 1] ∧
    (s.registry ()).entry = none := by
  obtain ⟨s, trace, run, inputs, dropped, found⟩ : ∃ s trace, (machine Unit).Reaches s trace ∧
      trace.map Prod.fst =
        [.lease () 0, .lease () 1, .drop () 0, .release () 0, .drop () 1, .release () 1] ∧
      (∀ call, s.hold () call = none) ∧ lastFound () trace = some [] := by
    refine ⟨_, _, Machine.run_exec (.start rfl) (rfl : (machine Unit).exec (fun _ _ _ => True) _ []
      [.lease () 0, .lease () 1, .drop () 0, .release () 0, .drop () 1, .release () 1] = some (_, _)),
      rfl, ?_, rfl⟩
    rintro (_ | _ | call) <;> rfl
  refine ⟨s, trace, run, inputs, (registry_entry_gone_iff run dropped).2 ?_⟩
  rw [found]
  simp

end Rustee.McpOAuth.GateRegistry
