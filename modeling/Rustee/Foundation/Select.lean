/-
# Rustee.Foundation.Select -- scanning for the best, and ordered sets

A scan that keeps a candidate and replaces it by a better one finds the greatest key.  Where no
two items have one key, that says which item it finds, and the order of the scan does not
matter.  Next to it, a `BTreeSet` as the list of its elements in order.
-/
import Mathlib.Data.List.Induction
import Mathlib.Data.List.Sort
import Mathlib.Tactic.Common

namespace Rustee.Foundation

set_option autoImplicit false

/-! ## The best of a list -/

section Best

variable {α κ : Type} [LinearOrder κ]

/-- One round of the scan: `candidate.is_none_or(|current| better next current)`. -/
def keepBetter (better : α → α → Bool) (candidate : Option α) (next : α) : Option α :=
  if candidate.all fun current => better next current then some next else candidate

def selectBest (better : α → α → Bool) (items : List α) : Option α :=
  items.foldl (keepBetter better) none

/-- One of the items, and none has a greater key. -/
structure IsBest (key : α → κ) (items : List α) (item : α) : Prop where
  member : item ∈ items
  greatest : ∀ other ∈ items, key other ≤ key item

variable {better : α → α → Bool} {key : α → κ}

theorem selectBest_concat (items : List α) (next : α) :
    selectBest better (items ++ [next]) = keepBetter better (selectBest better items) next := by
  simp [selectBest]

variable {items : List α}

theorem IsBest.concat_of_le {item next : α} (best : IsBest key items item)
    (notGreater : key next ≤ key item) : IsBest key (items ++ [next]) item := by
  refine ⟨List.mem_append_left [next] best.member, ?_⟩
  rw [List.forall_mem_append]
  exact ⟨best.greatest, by simpa using notGreater⟩

theorem IsBest.concat_of_lt {item next : α} (best : IsBest key items item)
    (greater : key item < key next) : IsBest key (items ++ [next]) next := by
  refine ⟨by simp, ?_⟩
  rw [List.forall_mem_append]
  refine ⟨fun other member => (best.greatest other member).trans greater.le, by simp⟩

/-- A scan finds a best item, or there is none to find. -/
theorem selectBest_spec (byKey : ∀ next current, better next current = true ↔
    key current < key next) (items : List α) :
    (items = [] ∧ selectBest better items = none) ∨
      ∃ item, selectBest better items = some item ∧ IsBest key items item := by
  induction items using List.reverseRecOn with
  | nil => exact .inl ⟨rfl, rfl⟩
  | append_singleton items next ih =>
    refine .inr ?_
    rw [selectBest_concat]
    rcases ih with ⟨rfl, none⟩ | ⟨item, found, best⟩
    · exact ⟨next, by simp [none, keepBetter], ⟨by simp, by simp⟩⟩
    · by_cases greater : key item < key next
      · refine ⟨next, ?_, best.concat_of_lt greater⟩
        simp [found, keepBetter, (byKey next item).2 greater]
      · refine ⟨item, ?_, best.concat_of_le (not_lt.1 greater)⟩
        simp [found, keepBetter, mt (byKey next item).1 greater]

theorem selectBest_eq_none
    (byKey : ∀ next current, better next current = true ↔ key current < key next) :
    selectBest better items = none ↔ items = [] := by
  constructor
  · intro nothing
    rcases selectBest_spec byKey items with ⟨empty, -⟩ | ⟨item, found, -⟩
    · exact empty
    · rw [nothing] at found
      cases found
  · rintro rfl
    rfl

/-- **What a scan finds**, where no two items have one key. -/
theorem selectBest_eq_some (byKey : ∀ next current, better next current = true ↔ key current < key next)
    (distinct : ∀ one ∈ items, ∀ other ∈ items, key one = key other → one = other) (item : α) :
    selectBest better items = some item ↔ IsBest key items item := by
  have spec := selectBest_spec byKey items
  constructor
  · intro found
    rcases spec with ⟨-, nothing⟩ | ⟨found', isFound, best⟩
    · rw [nothing] at found
      cases found
    · rw [found] at isFound
      cases isFound
      exact best
  · intro best
    rcases spec with ⟨rfl, -⟩ | ⟨found, isFound, foundBest⟩
    · cases best.member
    · have sameKey := le_antisymm (foundBest.greatest item best.member)
        (best.greatest found foundBest.member)
      rw [isFound, distinct item best.member found foundBest.member sameKey]

/-- Where the scan starts and ends does not matter. -/
theorem selectBest_perm (byKey : ∀ next current, better next current = true ↔ key current < key next)
    {others : List α} (distinct : ∀ one ∈ items, ∀ other ∈ items, key one = key other → one = other)
    (same : others.Perm items) : selectBest better others = selectBest better items := by
  rcases selectBest_spec byKey items with ⟨rfl, -⟩ | ⟨item, found, best⟩
  · rw [same.eq_nil]
  · rw [found]
    refine (selectBest_eq_some byKey ?_ item).2 ⟨same.mem_iff.2 best.member, ?_⟩
    · intro one isItem other isOther
      exact distinct one (same.mem_iff.1 isItem) other (same.mem_iff.1 isOther)
    · intro other isOther
      exact best.greatest other (same.mem_iff.1 isOther)

end Best

/-! ## Ordered sets -/

section OrderedSet

variable {α : Type} [LinearOrder α]

/-- `BTreeSet::insert`, into the elements in order. -/
def insertOrdered (set : List α) (element : α) : List α :=
  if element ∈ set then set else set.orderedInsert (· ≤ ·) element

variable {set : List α}

@[simp] theorem mem_insertOrdered {element other : α} :
    other ∈ insertOrdered set element ↔ other = element ∨ other ∈ set := by
  unfold insertOrdered
  split
  · rename_i present
    constructor
    · exact Or.inr
    · rintro (rfl | member)
      · exact present
      · exact member
  · exact List.mem_orderedInsert _

theorem pairwise_insertOrdered {element : α} (ordered : set.Pairwise (· < ·)) :
    (insertOrdered set element).Pairwise (· < ·) := by
  unfold insertOrdered
  split
  · exact ordered
  · rename_i absent
    have sorted : (set.orderedInsert (· ≤ ·) element).Pairwise (· ≤ ·) :=
      (ordered.imp fun less => le_of_lt less).orderedInsert element set
    have nodup : (set.orderedInsert (· ≤ ·) element).Nodup := by
      rw [(List.perm_orderedInsert _ element set).nodup_iff, List.nodup_cons]
      exact ⟨absent, ordered.imp fun less => ne_of_lt less⟩
    exact (sorted.and nodup).imp fun both => lt_of_le_of_ne both.1 both.2

/-- The set of a list of elements. -/
def orderedSet (elements : List α) : List α := elements.foldl insertOrdered []

theorem foldl_insertOrdered (elements set : List α) :
    (set.Pairwise (· < ·) → (elements.foldl insertOrdered set).Pairwise (· < ·)) ∧
      ∀ other, other ∈ elements.foldl insertOrdered set ↔ other ∈ set ∨ other ∈ elements := by
  induction elements generalizing set with
  | nil => simp
  | cons element rest ih =>
    rw [List.foldl_cons]
    refine ⟨fun ordered => (ih _).1 (pairwise_insertOrdered ordered), fun other => ?_⟩
    rw [(ih _).2, mem_insertOrdered, List.mem_cons]
    tauto

theorem pairwise_orderedSet (elements : List α) : (orderedSet elements).Pairwise (· < ·) :=
  (foldl_insertOrdered elements []).1 .nil

@[simp] theorem mem_orderedSet {elements : List α} {other : α} :
    other ∈ orderedSet elements ↔ other ∈ elements := by
  rw [orderedSet, (foldl_insertOrdered elements []).2]
  simp

/-- A set is its elements. -/
theorem orderedSet_unique {elements : List α} (ordered : set.Pairwise (· < ·))
    (same : ∀ other, other ∈ set ↔ other ∈ elements) : set = orderedSet elements := by
  refine ordered.eq_of_mem_iff (pairwise_orderedSet elements) fun other => ?_
  rw [same, mem_orderedSet]

end OrderedSet

end Rustee.Foundation
