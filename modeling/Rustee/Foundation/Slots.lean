/-
# Rustee.Foundation.Slots -- values put back into the order of their indexes

A list of slots starts empty and takes entries, each at its own index; a slot is filled once.
What the slots then hold is a function of the entries alone (`filled`).  When there are as many
entries as slots, no slot is left empty (`filled_of_length`): that many different indexes below
`n` are all the indexes below `n`.
-/
import Mathlib.Data.List.Nodup
import Mathlib.Data.List.Perm.Subperm

namespace Rustee.Foundation.Slots

set_option autoImplicit false

variable {V : Type}

/-- The entry is put into its slot, which must exist and be empty. -/
def place (slots : List (Option V)) (entry : Nat × V) : Option (List (Option V)) :=
  match slots[entry.1]? with
  | some none => some (slots.set entry.1 (some entry.2))
  | _ => none

/-- What `n` slots hold after these entries. -/
def filled (n : Nat) (entries : List (Nat × V)) : List (Option V) :=
  (List.range n).map fun index => entries.lookup index

theorem filled_nil (n : Nat) : filled n ([] : List (Nat × V)) = List.replicate n none := by
  rw [filled, List.eq_replicate_iff]
  refine ⟨by simp, fun slot member => ?_⟩
  obtain ⟨index, -, rfl⟩ := List.mem_map.1 member
  rfl

variable {entries : List (Nat × V)} {slots : List (Option V)}

theorem lookup_eq_none {index : Nat} :
    entries.lookup index = none ↔ index ∉ entries.map Prod.fst := by
  rw [List.lookup_eq_none_iff]
  constructor
  · intro differs member
    obtain ⟨entry, isEntry, rfl⟩ := List.mem_map.1 member
    simpa using differs entry isEntry
  · intro absent entry isEntry
    have differs : entry.1 ≠ index := fun same => absent (same ▸ List.mem_map_of_mem isEntry)
    simpa using Ne.symm differs

theorem lookup_eq_some (once : (entries.map Prod.fst).Nodup) {index : Nat} {value : V} :
    entries.lookup index = some value ↔ (index, value) ∈ entries := by
  induction entries with
  | nil => simp
  | cons entry rest ih =>
    obtain ⟨key, first⟩ := entry
    simp only [List.map_cons, List.nodup_cons] at once
    rw [List.lookup_cons]
    by_cases same : index = key
    · subst same
      have absent : (index, value) ∉ rest := fun member => once.1 (List.mem_map_of_mem member)
      simp [absent, eq_comm]
    · have differs : (index == key) = false := by simpa using same
      simp [differs, ih once.2, same]

theorem place_filled {n : Nat} {entry : Nat × V} : place (filled n entries) entry = some slots ↔
      entry.1 < n ∧ entry.1 ∉ entries.map Prod.fst ∧ slots = filled n (entries ++ [entry]) := by
  have look : (filled n entries)[entry.1]? =
      if entry.1 < n then some (entries.lookup entry.1) else none := by
    by_cases inside : entry.1 < n
    · simp [filled, inside]
    · simp [filled, inside]
  rw [place, look, ← lookup_eq_none]
  by_cases inside : entry.1 < n
  · rw [if_pos inside]
    cases taken : entries.lookup entry.1 with
    | some value => simp
    | none =>
      have placed : (filled n entries).set entry.1 (some entry.2) = filled n (entries ++ [entry]) := by
        apply List.ext_getElem?
        intro index
        rw [List.getElem?_set]
        have last : [entry].lookup index = if index = entry.1 then some entry.2 else none := by
          obtain ⟨key, value⟩ := entry
          rw [List.lookup_cons]
          by_cases same : index = key
          · simp [same]
          · simp [same, beq_eq_false_iff_ne.2 same]
        by_cases same : entry.1 = index
        · subst same
          simp [filled, inside, List.lookup_append, taken, last]
        · by_cases below : index < n
          · simp [filled, same, List.lookup_append, last, below, Ne.symm same]
          · simp [filled, same, below]
      simp [inside, placed, eq_comm]
  · rw [if_neg inside]
    simp [inside]

/-- Entries are all placed when their indexes are below `n` and differ. -/
theorem foldlM_place {n : Nat} {done : List (Nat × V)} (once : (done.map Prod.fst).Nodup) :
    entries.foldlM place (filled n done) = some slots ↔
      (∀ entry ∈ entries, entry.1 < n) ∧ ((done ++ entries).map Prod.fst).Nodup ∧
        slots = filled n (done ++ entries) := by
  induction entries generalizing done with
  | nil => simp [once, eq_comm]
  | cons entry rest ih =>
    have split : done ++ entry :: rest = (done ++ [entry]) ++ rest := by simp
    rw [List.foldlM_cons, Option.bind_eq_bind, Option.bind_eq_some_iff, split]
    constructor
    · rintro ⟨next, placed, more⟩
      obtain ⟨inside, fresh, rfl⟩ := place_filled.1 placed
      have onceMore : ((done ++ [entry]).map Prod.fst).Nodup := by
        rw [List.map_append, List.map_singleton, List.nodup_append]
        exact ⟨once, List.nodup_singleton _, by
          rintro index isIndex _ isEntry rfl
          exact fresh (List.mem_singleton.1 isEntry ▸ isIndex)⟩
      obtain ⟨below, distinct, rfl⟩ := (ih onceMore).1 more
      exact ⟨List.forall_mem_cons.2 ⟨inside, below⟩, distinct, rfl⟩
    · rintro ⟨below, distinct, rfl⟩
      obtain ⟨inside, others⟩ := List.forall_mem_cons.1 below
      have onceMore : ((done ++ [entry]).map Prod.fst).Nodup := by
        rw [List.map_append] at distinct
        exact (List.nodup_append.1 distinct).1
      have fresh : entry.1 ∉ done.map Prod.fst := by
        rw [List.map_append, List.map_singleton] at onceMore
        intro member
        exact (List.nodup_append.1 onceMore).2.2 _ member _ (List.mem_singleton_self _) rfl
      exact ⟨_, place_filled.2 ⟨inside, fresh, rfl⟩, (ih onceMore).2 ⟨others, distinct, rfl⟩⟩

/-- That many different indexes below `n` are all of them. -/
theorem perm_range_of_nodup {indexes : List Nat} (once : indexes.Nodup)
    (below : ∀ index ∈ indexes, index < indexes.length) :
    indexes.Perm (List.range indexes.length) :=
  (List.subperm_of_subset once fun index member => List.mem_range.2 (below index member)).perm_of_length_le
    (by simp)

/-- With as many entries as slots, all indexes occur and no slot is empty. -/
theorem filled_of_length (once : (entries.map Prod.fst).Nodup)
    (below : ∀ entry ∈ entries, entry.1 < entries.length) :
    (entries.map Prod.fst).Perm (List.range entries.length) ∧
      ∃ values : List V, filled entries.length entries = values.map some := by
  have all : (entries.map Prod.fst).Perm (List.range entries.length) := by
    have counted := perm_range_of_nodup once (by simpa using fun index value member => below (index, value) member)
    rwa [List.length_map] at counted
  have every : ∀ slot ∈ filled entries.length entries, slot.isSome = true := by
    intro slot isSlot
    obtain ⟨index, inside, rfl⟩ := List.mem_map.1 isSlot
    rw [← Option.ne_none_iff_isSome, ne_eq, lookup_eq_none, not_not]
    exact all.mem_iff.2 inside
  refine ⟨all, (filled entries.length entries).pmap Option.get every, ?_⟩
  rw [List.map_pmap]
  simp

/-- `collect` into an `Option`: every slot is taken. -/
theorem mapM_id_eq_some {values : List V} :
    slots.mapM id = some values ↔ slots = values.map some := by
  induction slots generalizing values with
  | nil => cases values <;> simp
  | cons slot rest ih =>
    rw [List.mapM_cons]
    cases slot with
    | none => cases values <;> simp
    | some first =>
      cases values with
      | nil => simp [Option.bind_eq_some_iff]
      | cons value others => simp [Option.bind_eq_some_iff, ih, and_comm]

end Rustee.Foundation.Slots
