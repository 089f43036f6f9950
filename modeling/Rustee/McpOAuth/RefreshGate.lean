/-
# Rustee.McpOAuth.RefreshGate -- a mutex that exists while someone wants it

`rustee-ai-mcp-oauth/src/authorization/refresh_gate.rs`, for one token-store key.  The
registry keeps a weak pointer to the gate of the key; a lease upgrades it or makes a new
gate, and the last lease to go takes the entry out.  An `Arc` is the list of the calls that
own it, so its strong count is the length of that list, and a gate is identified by its
place in the order of creation, as two live allocations never share an address.

A lease ends in two moments: its `drop` runs under the registry lock, and only afterwards is
its own `Arc` released.  Between the two it still counts, so two leases that end together
can each see the other and leave a dead entry behind, which the next lease replaces.

`Fits` relates the registry to where each call is with its lease.  Every lease whose `drop`
has not run is on the registered gate, so all guards are guards of one mutex
(`Fits.exclusive`).
-/
import Rustee.Foundation.Machine
import Mathlib.Data.List.Nodup
import Mathlib.Order.Nat

namespace Rustee.McpOAuth

open Rustee.Foundation

set_option autoImplicit false

/-- A gate: the calls that own an `Arc` on it, and the call that holds its mutex. -/
structure Gate where
  owners : List Nat
  guard : Option Nat
  deriving DecidableEq, Repr

/-- The registry of one key.  Only the first `made` gates have been allocated. -/
structure RefreshGateRegistry where
  entry : Option Nat
  gates : Nat → Gate
  made : Nat

namespace RefreshGateRegistry

def empty : RefreshGateRegistry := ⟨none, fun _ => ⟨[], none⟩, 0⟩

def setGate (r : RefreshGateRegistry) (gate : Nat) (value : Gate) : RefreshGateRegistry :=
  { r with gates := Function.update r.gates gate value }

/-- `gates.get(key).and_then(Weak::upgrade)`: there is a gate while it has an owner. -/
def upgrade (r : RefreshGateRegistry) : Option Nat :=
  r.entry.filter fun gate => !(r.gates gate).owners.isEmpty

def lease (r : RefreshGateRegistry) (call : Nat) : RefreshGateRegistry × Nat :=
  match r.upgrade with
  | some gate =>
    (r.setGate gate { r.gates gate with owners := call :: (r.gates gate).owners }, gate)
  | none =>
    ({ entry := some r.made
       gates := Function.update r.gates r.made ⟨[call], none⟩
       made := r.made + 1 }, r.made)

/-- `gate().lock().await`, when the mutex is free. -/
def lock (r : RefreshGateRegistry) (call gate : Nat) : Option RefreshGateRegistry :=
  match (r.gates gate).guard with
  | none => some (r.setGate gate { r.gates gate with guard := some call })
  | some _ => none

/-- The guard is dropped. -/
def unlock (r : RefreshGateRegistry) (gate : Nat) : RefreshGateRegistry :=
  r.setGate gate { r.gates gate with guard := none }

/-- `RefreshGateLease::drop`. -/
def dropLease (r : RefreshGateRegistry) (gate : Nat) : RefreshGateRegistry :=
  if (r.gates gate).owners.length = 1 ∧ r.entry = some gate then { r with entry := none } else r

/-- The `gate` field of a dropped lease goes after its `drop` has run. -/
def dropGate (r : RefreshGateRegistry) (call gate : Nat) : RefreshGateRegistry :=
  r.setGate gate { r.gates gate with owners := (r.gates gate).owners.erase call }

section

variable (r : RefreshGateRegistry) (gate other : Nat)

theorem setGate_gates (value : Gate) :
    (r.setGate gate value).gates other = if other = gate then value else r.gates other := by
  simp [setGate, Function.update_apply]

@[simp] theorem owners_setGate_guard (guard : Option Nat) :
    ((r.setGate gate { r.gates gate with guard }).gates other).owners = (r.gates other).owners := by
  rw [setGate_gates]
  split
  · rename_i same
    rw [same]
  · rfl

@[simp] theorem guard_setGate_guard (guard : Option Nat) :
    ((r.setGate gate { r.gates gate with guard }).gates other).guard =
      if other = gate then guard else (r.gates other).guard := by
  rw [setGate_gates]
  split <;> rfl

@[simp] theorem owners_setGate_owners (owners : List Nat) :
    ((r.setGate gate { r.gates gate with owners }).gates other).owners =
      if other = gate then owners else (r.gates other).owners := by
  rw [setGate_gates]
  split <;> rfl

@[simp] theorem guard_setGate_owners (owners : List Nat) :
    ((r.setGate gate { r.gates gate with owners }).gates other).guard = (r.gates other).guard := by
  rw [setGate_gates]
  split
  · rename_i same
    rw [same]
  · rfl

end

@[simp] theorem dropLease_gates (r : RefreshGateRegistry) (gate : Nat) :
    (r.dropLease gate).gates = r.gates := by
  unfold dropLease
  split <;> rfl

@[simp] theorem dropLease_made (r : RefreshGateRegistry) (gate : Nat) :
    (r.dropLease gate).made = r.made := by
  unfold dropLease
  split <;> rfl

end RefreshGateRegistry

/-! ## Where the leases are -/

/-- Where a call is with its lease on a gate. -/
inductive Hold where
  | waiting (gate : Nat)
  /-- It holds the guard. -/
  | inside (gate : Nat)
  /-- It has no guard, and the lease's `drop` has not run. -/
  | outside (gate : Nat)
  /-- The `drop` has run and the `Arc` is still there. -/
  | dropping (gate : Nat)
  deriving DecidableEq, Repr

def Hold.gate : Hold → Nat
  | .waiting gate | .inside gate | .outside gate | .dropping gate => gate

/-- The lease's `drop` has not run. -/
def Hold.leased : Hold → Bool
  | .dropping _ => false
  | _ => true

/-- **The registry matches the leases.** -/
structure Fits (r : RefreshGateRegistry) (hold : Nat → Option Hold) : Prop where
  /-- A lease is on the registered gate until its `drop` runs. -/
  registered : ∀ call place, hold call = some place → place.leased = true →
    r.entry = some place.gate
  owns : ∀ call place, hold call = some place → call ∈ (r.gates place.gate).owners
  owned : ∀ call gate, call ∈ (r.gates gate).owners →
    ∃ place, hold call = some place ∧ place.gate = gate
  single : ∀ gate, (r.gates gate).owners.Nodup
  guard : ∀ call gate, hold call = some (.inside gate) ↔ (r.gates gate).guard = some call
  unmade : ∀ gate, r.made ≤ gate → (r.gates gate).owners = []

theorem fits_empty : Fits .empty fun _ => none where
  registered := by simp
  owns := by simp
  owned := by simp [RefreshGateRegistry.empty]
  single := by simp [RefreshGateRegistry.empty]
  guard := by simp [RefreshGateRegistry.empty]
  unmade := by simp [RefreshGateRegistry.empty]

namespace Fits

variable {r : RefreshGateRegistry} {hold : Nat → Option Hold} {call gate : Nat}

/-- **Mutual exclusion.**  Two guards are on the registered gate, so they are one. -/
theorem exclusive (fits : Fits r hold) {other gate' : Nat}
    (first : hold call = some (.inside gate)) (second : hold other = some (.inside gate')) :
    call = other := by
  have sameEntry := (fits.registered call _ first rfl).symm.trans
    (fits.registered other _ second rfl)
  obtain rfl : gate = gate' := Option.some.inj sameEntry
  have guarded := (fits.guard call gate).1 first
  rw [(fits.guard other gate).1 second] at guarded
  exact (Option.some.inj guarded).symm

variable {place : Hold}

/-- A move that leaves the owners alone keeps what concerns them. -/
theorem move (fits : Fits r hold) {moved : Hold} {after : RefreshGateRegistry}
    (placed : hold call = some place) (sameGate : moved.gate = place.gate)
    (owners : ∀ gate, (after.gates gate).owners = (r.gates gate).owners)
    (made : after.made = r.made)
    (registered : ∀ other place, Function.update hold call (some moved) other = some place →
      place.leased = true → after.entry = some place.gate)
    (guard : ∀ other gate, Function.update hold call (some moved) other = some (.inside gate) ↔
      (after.gates gate).guard = some other) :
    Fits after (Function.update hold call (some moved)) where
  registered := registered
  guard := guard
  owns := by
    intro other at_ isAt
    rw [owners]
    rcases update_eq_iff.1 isAt with ⟨rfl, isMoved⟩ | ⟨-, isAt⟩
    · cases isMoved
      rw [sameGate]
      exact fits.owns other place placed
    · exact fits.owns other at_ isAt
  owned := by
    intro other gate member
    rw [owners] at member
    obtain ⟨at_, isAt, isGate⟩ := fits.owned other gate member
    by_cases same : other = call
    · subst same
      rw [placed] at isAt
      cases isAt
      exact ⟨moved, Function.update_self _ _ _, sameGate.trans isGate⟩
    · exact ⟨at_, update_eq_iff.2 (.inr ⟨same, isAt⟩), isGate⟩
  single := fun gate => by rw [owners]; exact fits.single gate
  unmade := fun gate late => by rw [owners]; exact fits.unmade gate (made ▸ late)

/-- What the entry must be after a move that keeps it. -/
theorem registered_update (fits : Fits r hold) {moved : Hold} (placed : hold call = some place)
    (sameGate : moved.gate = place.gate) (leased : place.leased = true) (other : Nat) (at_ : Hold)
    (isAt : Function.update hold call (some moved) other = some at_)
    (leasedAt : at_.leased = true) : r.entry = some at_.gate := by
  rcases update_eq_iff.1 isAt with ⟨rfl, isMoved⟩ | ⟨-, isAt⟩
  · cases isMoved
    rw [sameGate]
    exact fits.registered other place placed leased
  · exact fits.registered other at_ isAt leasedAt

/-- A call that is not inside before or after it moves leaves the guards as they are. -/
theorem guard_update (fits : Fits r hold) {held : Option Hold}
    (was : ∀ gate, hold call ≠ some (.inside gate)) (now : ∀ gate, held ≠ some (.inside gate))
    (other gate : Nat) :
    Function.update hold call held other = some (.inside gate) ↔
      (r.gates gate).guard = some other := by
  rw [← fits.guard]
  by_cases same : other = call
  · subst same
    simp [was gate, now gate]
  · rw [Function.update_of_ne same]

/-- The mutex of a waiting call's gate is taken. -/
theorem lock (fits : Fits r hold) (waits : hold call = some (.waiting gate))
    {after : RefreshGateRegistry} (locked : r.lock call gate = some after) :
    Fits after (Function.update hold call (some (.inside gate))) := by
  unfold RefreshGateRegistry.lock at locked
  split at locked
  · rename_i free
    cases locked
    refine fits.move waits rfl (by simp) rfl (fits.registered_update waits rfl rfl) ?_
    intro other gate'
    rw [RefreshGateRegistry.guard_setGate_guard]
    by_cases same : other = call
    · subst same
      by_cases sameGate : gate' = gate
      · simp [sameGate]
      · have notHere : (r.gates gate').guard ≠ some other := by
          rw [Ne, ← fits.guard, waits]
          simp
        simp [sameGate, notHere, Ne.symm sameGate]
    · rw [Function.update_of_ne same, fits.guard]
      by_cases sameGate : gate' = gate
      · simp [sameGate, free, Ne.symm same]
      · simp [sameGate]
  · cases locked

/-- The guard is dropped, and the lease is still there. -/
theorem unlock (fits : Fits r hold) (inside : hold call = some (.inside gate)) :
    Fits (r.unlock gate) (Function.update hold call (some (.outside gate))) := by
  have guarded := (fits.guard call gate).1 inside
  unfold RefreshGateRegistry.unlock
  refine fits.move inside rfl (by simp) rfl (fits.registered_update inside rfl rfl) ?_
  intro other gate'
  rw [RefreshGateRegistry.guard_setGate_guard]
  by_cases same : other = call
  · subst same
    by_cases sameGate : gate' = gate
    · simp [sameGate]
    · have notHere : (r.gates gate').guard ≠ some other := by
        rw [Ne, ← fits.guard, inside]
        simp [Ne.symm sameGate]
      simp [sameGate, notHere]
  · rw [Function.update_of_ne same, fits.guard]
    by_cases sameGate : gate' = gate
    · simp [sameGate, guarded, Ne.symm same]
    · simp [sameGate]

/-- A call that waits is dropped before it gets the guard. -/
theorem giveUp (fits : Fits r hold) (waits : hold call = some (.waiting gate)) :
    Fits r (Function.update hold call (some (.outside gate))) :=
  fits.move waits rfl (fun _ => rfl) rfl (fits.registered_update waits rfl rfl)
    (fits.guard_update (by simp [waits]) (by simp))

/-- A lease ends.  The entry goes only when no other lease is on the gate. -/
theorem dropLease (fits : Fits r hold) (outside : hold call = some (.outside gate)) :
    Fits (r.dropLease gate) (Function.update hold call (some (.dropping gate))) := by
  refine fits.move outside rfl (by simp) (by simp) ?_ ?_
  · intro other place isAt leased
    rcases update_eq_iff.1 isAt with ⟨rfl, isDropping⟩ | ⟨different, isAt⟩
    · cases isDropping
      cases leased
    have entry := fits.registered other place isAt leased
    unfold RefreshGateRegistry.dropLease
    split
    · -- Both would own an `Arc` on the registered gate, whose strong count is one.
      rename_i last
      obtain ⟨one, isEntry⟩ := last
      have sameGate : place.gate = gate := Option.some.inj (entry.symm.trans isEntry)
      have mine := fits.owns call _ outside
      have others := fits.owns other place isAt
      rw [sameGate] at others
      obtain ⟨owner, only⟩ := List.length_eq_one_iff.1 one
      simp only [Hold.gate] at mine
      rw [only, List.mem_singleton] at mine others
      exact absurd (others.trans mine.symm) different
    · exact entry
  · rw [RefreshGateRegistry.dropLease_gates]
    exact fits.guard_update (by simp [outside]) (by simp)

/-- The `Arc` of an ended lease is released. -/
theorem dropGate (fits : Fits r hold) (dropping : hold call = some (.dropping gate)) :
    Fits (r.dropGate call gate) (Function.update hold call none) := by
  have theirs {other : Nat} {place : Hold} (isAt : Function.update hold call none other = some place) :
      other ≠ call ∧ hold other = some place := by
    rcases update_eq_iff.1 isAt with ⟨-, isNone⟩ | theirs
    · cases isNone
    · exact theirs
  unfold RefreshGateRegistry.dropGate
  constructor
  · intro other place isAt leased
    exact fits.registered other place (theirs isAt).2 leased
  · intro other place isAt
    obtain ⟨different, isAt⟩ := theirs isAt
    have member := fits.owns other place isAt
    rw [RefreshGateRegistry.owners_setGate_owners]
    split
    · rename_i sameGate
      exact (List.mem_erase_of_ne different).2 (sameGate ▸ member)
    · exact member
  · intro other gate' member
    rw [RefreshGateRegistry.owners_setGate_owners] at member
    split at member
    · rename_i sameGate
      obtain ⟨different, member⟩ := (List.Nodup.mem_erase_iff (fits.single gate)).1 member
      rw [Function.update_of_ne different, sameGate]
      exact fits.owned other gate member
    · rename_i otherGate
      obtain ⟨place, isAt, isGate⟩ := fits.owned other gate' member
      have different : other ≠ call := by
        rintro rfl
        rw [dropping] at isAt
        cases isAt
        exact otherGate isGate.symm
      exact ⟨place, update_eq_iff.2 (.inr ⟨different, isAt⟩), isGate⟩
  · intro gate'
    rw [RefreshGateRegistry.owners_setGate_owners]
    split
    · exact (fits.single gate).erase call
    · exact fits.single gate'
  · intro other gate'
    rw [RefreshGateRegistry.guard_setGate_owners]
    exact fits.guard_update (by simp [dropping]) (by simp) other gate'
  · intro gate' late
    rw [RefreshGateRegistry.owners_setGate_owners]
    split
    · rename_i sameGate
      rw [← sameGate, fits.unmade gate' late]
      rfl
    · exact fits.unmade gate' late

/-- With no gate to upgrade to, no lease is left. -/
theorem not_leased (fits : Fits r hold) (gone : r.upgrade = none)
    (isAt : hold call = some place) : place.leased = false := by
  by_contra leased
  rw [Bool.not_eq_false] at leased
  have entry := fits.registered call place isAt leased
  have member := fits.owns call place isAt
  rw [RefreshGateRegistry.upgrade, entry, Option.filter_some] at gone
  split at gone
  · cases gone
  · rename_i empty
    simp only [Bool.not_eq_true', Bool.not_eq_false, List.isEmpty_iff] at empty
    rw [empty] at member
    cases member

/-- A call without a lease owns nothing. -/
theorem not_owner (fits : Fits r hold) (free : hold call = none) (gate : Nat) :
    call ∉ (r.gates gate).owners := by
  intro member
  obtain ⟨place, isAt, -⟩ := fits.owned call gate member
  rw [free] at isAt
  cases isAt

/-- The owners keep their places when a call without a lease moves. -/
theorem owned_update (fits : Fits r hold) (free : hold call = none) {moved : Hold} {other : Nat}
    (member : other ∈ (r.gates gate).owners) :
    ∃ place, Function.update hold call (some moved) other = some place ∧ place.gate = gate := by
  have different : other ≠ call := fun same => fits.not_owner free gate (same ▸ member)
  rw [Function.update_of_ne different]
  exact fits.owned other gate member

/-- A lease on a gate that is there. -/
theorem lease_shared (fits : Fits r hold) (free : hold call = none)
    (entry : r.entry = some gate) (live : (r.gates gate).owners ≠ []) :
    Fits (r.setGate gate { r.gates gate with owners := call :: (r.gates gate).owners })
      (Function.update hold call (some (.waiting gate))) := by
  constructor
  · intro other place isAt leased
    rcases update_eq_iff.1 isAt with ⟨-, isWaiting⟩ | ⟨-, isAt⟩
    · cases isWaiting
      exact entry
    · exact fits.registered other place isAt leased
  · intro other place isAt
    rw [RefreshGateRegistry.owners_setGate_owners]
    rcases update_eq_iff.1 isAt with ⟨rfl, isWaiting⟩ | ⟨-, isAt⟩
    · cases isWaiting
      simp [Hold.gate]
    · have member := fits.owns other place isAt
      split
      · rename_i sameGate
        exact List.mem_cons_of_mem call (sameGate ▸ member)
      · exact member
  · intro other gate' member
    rw [RefreshGateRegistry.owners_setGate_owners] at member
    split at member
    · rename_i sameGate
      rcases List.mem_cons.1 member with rfl | member
      · exact ⟨_, Function.update_self _ _ _, sameGate.symm⟩
      · exact fits.owned_update free (sameGate ▸ member)
    · exact fits.owned_update free member
  · intro gate'
    rw [RefreshGateRegistry.owners_setGate_owners]
    split
    · exact List.nodup_cons.2 ⟨fits.not_owner free gate, fits.single gate⟩
    · exact fits.single gate'
  · intro other gate'
    rw [RefreshGateRegistry.guard_setGate_owners]
    exact fits.guard_update (by simp [free]) (by simp) other gate'
  · intro gate' late
    have none := fits.unmade gate' late
    have different : gate' ≠ gate := by
      rintro rfl
      exact live none
    rw [RefreshGateRegistry.owners_setGate_owners, if_neg different]
    exact none

/-- A lease on a new gate, which replaces whatever entry there was. -/
theorem lease_new (fits : Fits r hold) (free : hold call = none) (gone : r.upgrade = none) :
    Fits { entry := some r.made
           gates := Function.update r.gates r.made ⟨[call], none⟩
           made := r.made + 1 }
      (Function.update hold call (some (.waiting r.made))) := by
  have notThere {other : Nat} {place : Hold} (isAt : hold other = some place) :
      place.gate ≠ r.made := by
    intro sameGate
    have member := fits.owns other place isAt
    rw [sameGate, fits.unmade r.made le_rfl] at member
    cases member
  constructor
  · intro other place isAt leased
    rcases update_eq_iff.1 isAt with ⟨-, isWaiting⟩ | ⟨-, isAt⟩
    · cases isWaiting
      rfl
    · rw [fits.not_leased gone isAt] at leased
      cases leased
  · intro other place isAt
    rcases update_eq_iff.1 isAt with ⟨rfl, isWaiting⟩ | ⟨-, isAt⟩
    · cases isWaiting
      simp [Hold.gate]
    · simp only [Function.update_of_ne (notThere isAt)]
      exact fits.owns other place isAt
  · intro other gate' member
    by_cases sameGate : gate' = r.made
    · subst sameGate
      simp only [Function.update_self, List.mem_singleton] at member
      subst member
      exact ⟨_, Function.update_self _ _ _, rfl⟩
    · simp only [Function.update_of_ne sameGate] at member
      exact fits.owned_update free member
  · intro gate'
    simp only [Function.update_apply]
    split
    · exact List.nodup_singleton call
    · exact fits.single gate'
  · intro other gate'
    by_cases sameGate : gate' = r.made
    · -- nobody is inside the new gate
      subst sameGate
      simp only [Function.update_self, reduceCtorEq, iff_false, update_eq_iff]
      rintro (⟨-, isWaiting⟩ | ⟨-, isAt⟩)
      · cases isWaiting
      · exact notThere isAt rfl
    · simp only [Function.update_of_ne sameGate]
      exact fits.guard_update (by simp [free]) (by simp) other gate'
  · intro gate' late
    have late : r.made + 1 ≤ gate' := late
    have different : gate' ≠ r.made := by omega
    simp only [Function.update_of_ne different]
    exact fits.unmade gate' (by omega)

/-- A call without a lease takes one. -/
theorem lease (fits : Fits r hold) (free : hold call = none) :
    Fits (r.lease call).1 (Function.update hold call (some (.waiting (r.lease call).2))) := by
  unfold RefreshGateRegistry.lease
  split
  · rename_i gate upgraded
    obtain ⟨entry, live⟩ := Option.filter_eq_some_iff.1 upgraded
    exact fits.lease_shared free entry (by simpa using live)
  · rename_i gone
    exact fits.lease_new free gone

end Fits

end Rustee.McpOAuth
