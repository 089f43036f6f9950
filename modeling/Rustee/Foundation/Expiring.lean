/-
# Rustee.Foundation.Expiring -- maps whose entries have deadlines

A store drops entries whose deadline has passed when it gets around to it, comparing each with the
clock as it is read for that entry.  What its callers see is a map that keeps every entry until it
is replaced or removed, looked at through the deadlines: `Keeps` relates the two, each operation
keeps it, and with it what a store answers after dropping is what the map answers.
-/
import Rustee.Foundation.Keyed
import Mathlib.Data.Set.Card

namespace Rustee.Foundation.Expiring

set_option autoImplicit false

open Keyed

universe u v

variable {K : Type u} {E : Type v}

section

variable (deadline : E → Nat)

def live (now : Nat) (entry : Option E) : Option E := entry.filter fun e => now < deadline e

def prune (reading : K → Nat) (entries : List (K × E)) : List (K × E) :=
  entries.filter fun entry => reading entry.1 < deadline entry.2

/-- The entries are those of the map, apart from some whose deadline is not after `now`. -/
structure Keeps (now : Nat) (entries : List (K × E)) (kept : K → Option E) : Prop where
  unique : (keys entries).Nodup
  same : ∀ k e, now < deadline e → ((k, e) ∈ entries ↔ kept k = some e)

end

/-- The readings of the clock in a call, for each key, between the call before it and its end. -/
structure Between (clock : Nat) (reading : K → Nat) (now : Nat) : Prop where
  after : ∀ k, clock ≤ reading k
  before : ∀ k, reading k ≤ now
  le : clock ≤ now

variable {deadline : E → Nat} {clock now : Nat} {entries : List (K × E)} {kept : K → Option E}
  {reading : K → Nat}

theorem mem_prune {k : K} {e : E} :
    (k, e) ∈ prune deadline reading entries ↔ (k, e) ∈ entries ∧ reading k < deadline e := by
  rw [prune, List.mem_filter, decide_eq_true_iff]

theorem nodup_prune (unique : (keys entries).Nodup) (reading : K → Nat) :
    (keys (prune deadline reading entries)).Nodup :=
  unique.sublist (List.filter_sublist.map _)

theorem Keeps.nil : Keeps deadline now ([] : List (K × E)) fun _ => none :=
  ⟨List.nodup_nil, fun _ _ _ => by simp⟩

theorem Keeps.later (keeps : Keeps deadline clock entries kept) (le : clock ≤ now) :
    Keeps deadline now entries kept :=
  ⟨keeps.unique, fun k e alive => keeps.same k e (le.trans_lt alive)⟩

/-- Dropping entries does not change what is seen from then on. -/
theorem Keeps.prune (keeps : Keeps deadline clock entries kept) (within : Between clock reading now) :
    Keeps deadline now (prune deadline reading entries) kept := by
  refine ⟨nodup_prune keeps.unique reading, fun k e alive => ?_⟩
  rw [mem_prune, keeps.same k e (within.le.trans_lt alive)]
  exact and_iff_left ((within.before k).trans_lt alive)

variable [DecidableEq K]

theorem Keeps.del (keeps : Keeps deadline now entries kept) (k : K) :
    Keeps deadline now (hdel entries k) (Function.update kept k none) := by
  refine ⟨keys_hdel entries k ▸ keeps.unique.filter _, fun other e alive => ?_⟩
  rw [hdel, mem_remove, keeps.same other e alive, Function.update_apply]
  by_cases same : other = k <;> simp [same]

theorem Keeps.set (keeps : Keeps deadline now entries kept) (k : K) (e : E) :
    Keeps deadline now (hset entries k e) (Function.update kept k (some e)) := by
  refine ⟨?_, fun other found alive => ?_⟩
  · rw [keys_hset, ← List.concat_eq_append, List.nodup_concat]
    exact ⟨by simp, keeps.unique.filter _⟩
  · rw [hset, List.mem_append, (keeps.del k).same other found alive, Function.update_apply,
      Function.update_apply, List.mem_singleton, Prod.mk.injEq]
    by_cases same : other = k
    · simp [same, eq_comm]
    · simp [same]

theorem Keeps.hget_prune (keeps : Keeps deadline clock entries kept) (within : Between clock reading now)
    (k : K) : hget (Expiring.prune deadline reading entries) k = live deadline (reading k) (kept k) := by
  refine Option.ext fun e => ?_
  rw [hget_eq_some (nodup_prune keeps.unique reading), mem_prune, live, Option.filter_eq_some_iff,
    decide_eq_true_iff]
  exact and_congr_left fun alive => keeps.same k e ((within.after k).trans_lt alive)

theorem Keeps.length_prune (keeps : Keeps deadline clock entries kept) (within : Between clock reading now) :
    (Expiring.prune deadline reading entries).length =
      {k | live deadline (reading k) (kept k) ≠ none}.ncard := by
  have isKeys : {k | live deadline (reading k) (kept k) ≠ none} =
      ((keys (Expiring.prune deadline reading entries)).toFinset : Set K) := by
    ext k
    simp [← keeps.hget_prune within k, hget_eq_none]
  rw [isKeys, Set.ncard_coe_finset, List.toFinset_card_of_nodup (nodup_prune keeps.unique reading), keys,
    List.length_map]

/-! ## Calls after calls -/

/-- What a call does to a store and answers, given the readings of the clock. -/
abbrev Store (K S C A : Type) := (K → Nat) → Nat → S → C → S × A

/-- The times of a call since the one before it. -/
structure Timing (K : Type) where
  elapsed : Nat
  after : K → Nat
  within : ∀ k, after k ≤ elapsed

section

variable {K S T C A : Type}

def Store.next (store : Store K S C A) (s : Nat × S) (call : Timing K × C) : (Nat × S) × A :=
  let now := s.1 + call.1.elapsed
  let (after, answer) := store (fun k => s.1 + call.1.after k) now s.2 call.2
  ((now, after), answer)

def Store.run (store : Store K S C A) (new : S) (calls : List (Timing K × C)) : Nat × S :=
  calls.foldl (fun s call => (store.next s call).1) (0, new)

theorem Timing.between (timing : Timing K) (clock : Nat) :
    Between clock (fun k => clock + timing.after k) (clock + timing.elapsed) :=
  ⟨fun _ => Nat.le_add_right .., fun k => Nat.add_le_add_left (timing.within k) _, Nat.le_add_right ..⟩

/-- **The simulation rule.**  A store that each call leaves related to another, with the same answer,
answers like it after any calls. -/
theorem Store.refines {store : Store K S C A} {spec : Store K T C A} {R : Nat → S → T → Prop} {new : S}
    {start : T} (initial : R 0 new start)
    (step : ∀ clock reading now s t call, Between clock reading now → R clock s t →
      (store reading now s call).2 = (spec reading now t call).2 ∧
        R now (store reading now s call).1 (spec reading now t call).1)
    (calls : List (Timing K × C)) :
    let s := store.run new calls
    let t := spec.run start calls
    (R s.1 s.2 t.2 ∧ s.1 = t.1) ∧ ∀ call, (store.next s call).2 = (spec.next t call).2 := by
  intro s t
  have related : R s.1 s.2 t.2 ∧ s.1 = t.1 := by
    refine List.foldl_rel (r := fun (s : Nat × S) (t : Nat × T) => R s.1 s.2 t.2 ∧ s.1 = t.1)
      ⟨initial, rfl⟩ ?_
    rintro ⟨timing, call⟩ - ⟨clock, s⟩ ⟨_, t⟩ ⟨related, rfl⟩
    exact ⟨(step _ _ _ s t call (timing.between clock) related).2, rfl⟩
  refine ⟨related, fun call => ?_⟩
  rw [Store.next, Store.next, ← related.2]
  exact (step _ _ _ _ _ call.2 (call.1.between _) related.1).1

end

end Rustee.Foundation.Expiring
