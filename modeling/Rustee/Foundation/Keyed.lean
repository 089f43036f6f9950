/-
# Rustee.Foundation.Keyed -- lists whose entries have distinct keys

A finite store is a list; `f` reads an entry's key.  `remove f k` takes out the entries
under `k`, and when keys are distinct that is exactly one entry (`perm_remove`), which is
all that accounting for what moved from one store to another needs.

A hash is the case of pairs: `hget`, `hset`, `hdel`.

A table of which only lookups matter is a function; `Grows keeps` says that its rows stay, each as
`keeps` allows.
-/
import Mathlib.Data.List.Nodup
import Mathlib.Data.List.Perm.Basic

namespace Rustee.Foundation

set_option autoImplicit false

universe u v

namespace Keyed

variable {K : Type u} {V : Type v} {A : Type v} [DecidableEq K]

def remove (f : A → K) (k : K) (l : List A) : List A := l.filter fun a => f a ≠ k

variable {f : A → K} {k : K} {l : List (K × V)}

theorem mem_remove {l : List A} {a : A} :
    a ∈ remove f k l ↔ a ∈ l ∧ f a ≠ k := by
  simp [remove]

theorem map_remove (f : A → K) (k : K) (l : List A) :
    (remove f k l).map f = (l.map f).filter fun key => key ≠ k := by
  induction l with
  | nil => rfl
  | cons a rest ih =>
    by_cases same : f a = k
    · simpa [remove, same] using ih
    · simpa [remove, same] using ih

theorem remove_of_not_mem {l : List A} (absent : k ∉ l.map f) :
    remove f k l = l := by
  refine List.filter_eq_self.2 fun a member => ?_
  exact decide_eq_true fun same => absent (List.mem_map.2 ⟨a, member, same⟩)

/-- Removing a key takes out the one entry that has it. -/
theorem perm_remove {l : List A} (unique : (l.map f).Nodup) {a : A} (member : a ∈ l) :
    l.Perm (a :: remove f (f a) l) := by
  induction l with
  | nil => cases member
  | cons b rest ih =>
    rw [List.map_cons, List.nodup_cons] at unique
    rcases List.mem_cons.1 member with rfl | later
    · have kept : remove f (f a) (a :: rest) = rest := by
        rw [← remove_of_not_mem unique.1]
        simp [remove]
      rw [kept]
    · have other : f b ≠ f a := fun same => unique.1 (same ▸ List.mem_map_of_mem later)
      have kept : remove f (f a) (b :: rest) = b :: remove f (f a) rest := by
        simp [remove, other]
      rw [kept]
      exact ((ih unique.2 later).cons b).trans (List.Perm.swap a b _)

/-! ## Hashes -/

def keys (l : List (K × V)) : List K := l.map Prod.fst

def hget (l : List (K × V)) (k : K) : Option V := (l.find? fun entry => entry.1 = k).map Prod.snd

def hdel (l : List (K × V)) (k : K) : List (K × V) := remove Prod.fst k l

def hset (l : List (K × V)) (k : K) (v : V) : List (K × V) := hdel l k ++ [(k, v)]

theorem hget_mem {v : V} (found : hget l k = some v) : (k, v) ∈ l := by
  obtain ⟨entry, at_, rfl⟩ := Option.map_eq_some_iff.1 found
  have key : entry.1 = k := by simpa using List.find?_some at_
  rw [← key]
  exact List.mem_of_find?_eq_some at_

theorem hget_of_mem_keys (member : k ∈ keys l) :
    ∃ v, hget l k = some v := by
  obtain ⟨entry, stored, rfl⟩ := List.mem_map.1 member
  cases found : l.find? fun e => e.1 = entry.1 with
  | none => exact absurd (by simp) (List.find?_eq_none.1 found entry stored)
  | some e => exact ⟨e.2, by rw [hget, found]; rfl⟩

theorem hget_eq_none : hget l k = none ↔ k ∉ keys l := by
  rw [hget, Option.map_eq_none_iff, List.find?_eq_none, keys, List.mem_map]
  simp only [decide_eq_true_eq, not_exists, not_and]

theorem hget_eq_some {v : V} (unique : (keys l).Nodup) : hget l k = some v ↔ (k, v) ∈ l := by
  refine ⟨hget_mem, fun member => ?_⟩
  obtain ⟨found, isFound⟩ := hget_of_mem_keys (List.mem_map_of_mem member)
  cases List.inj_on_of_nodup_map unique (hget_mem isFound) member rfl
  exact isFound

theorem keys_hdel (l : List (K × V)) (k : K) : keys (hdel l k) = (keys l).filter fun key => key ≠ k :=
  map_remove Prod.fst k l

theorem hset_of_not_mem (absent : k ∉ keys l) (v : V) :
    hset l k v = l ++ [(k, v)] := by
  rw [hset, hdel, remove_of_not_mem absent]

theorem find?_hdel {other : K} :
    (hdel l k).find? (fun entry => entry.1 = other) =
      if other = k then none else l.find? fun entry => entry.1 = other := by
  induction l with
  | nil => simp [hdel, remove]
  | cons entry rest ih =>
    simp only [hdel, remove, List.filter_cons] at ih ⊢
    by_cases gone : entry.1 = k <;> by_cases wanted : entry.1 = other <;>
      simp_all

theorem hget_hset (l : List (K × V)) (k other : K) (v : V) :
    hget (hset l k v) other = if other = k then some v else hget l other := by
  simp only [hget, hset, List.find?_append, find?_hdel]
  by_cases same : other = k
  · subst same
    simp
  · simp [same, Ne.symm same]

theorem hget_hdel (l : List (K × V)) (k : K) :
    hget (hdel l k) = Function.update (hget l) k none := by
  funext other
  rw [Function.update_apply, hget, find?_hdel]
  split <;> rfl

theorem keys_hset (l : List (K × V)) (k : K) (v : V) :
    keys (hset l k v) = ((keys l).filter fun key => key ≠ k) ++ [k] := by
  rw [hset, keys, List.map_append, ← keys, keys_hdel]
  rfl

/-! ## Tables that keep their rows -/

def Grows (keeps : V → V → Prop) (table after : K → Option V) : Prop :=
  ∀ key row, table key = some row → ∃ kept, after key = some kept ∧ keeps row kept

namespace Grows

variable {keeps : V → V → Prop}

omit [DecidableEq K] in
theorem refl (keepsSelf : ∀ row, keeps row row) (table : K → Option V) : Grows keeps table table :=
  fun _ row stored => ⟨row, stored, keepsSelf row⟩

omit [DecidableEq K] in
theorem trans (keepsTrans : ∀ row middle last, keeps row middle → keeps middle last → keeps row last)
    {first second third : K → Option V} (grown : Grows keeps first second)
    (later : Grows keeps second third) : Grows keeps first third := by
  intro key row stored
  obtain ⟨middle, isMiddle, keepsMiddle⟩ := grown key row stored
  obtain ⟨last, isLast, keepsLast⟩ := later key middle isMiddle
  exact ⟨last, isLast, keepsTrans row middle last keepsMiddle keepsLast⟩

/-- A key gets a row that keeps what was there, if anything was. -/
theorem update (keepsSelf : ∀ row, keeps row row) {table : K → Option V} {key : K} {after : V}
    (keepsRow : ∀ row, table key = some row → keeps row after) :
    Grows keeps table (Function.update table key (some after)) := by
  intro other row stored
  by_cases equal : other = key
  · subst equal
    exact ⟨after, Function.update_self .., keepsRow row stored⟩
  · exact ⟨row, by rw [Function.update_of_ne equal, stored], keepsSelf row⟩

end Grows

end Keyed

end Rustee.Foundation
