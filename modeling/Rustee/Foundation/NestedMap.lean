/-
# Rustee.Foundation.NestedMap -- values put at paths of nested maps

A map is a list of pairs in the order of its keys (`insertKey`, `Ascending`).  A value may itself be a
map, so a list of keys is a path into it.  `put` places a value at a path where nothing
stands yet, making the maps on the way; it is refused where a value already stands at the
path, and where the path leads through a value that is no map.

`free_put` says what one placement does to every other path: a path that is no prefix of
the one just filled stays as free as it was, unless it goes on below the value placed
there, and then the value itself decides.  So whether a whole list of placements succeeds
is a relation between earlier and later entries (`putAll_isSome`), and entries whose paths
are incomparable may be placed in any order (`putAll_perm`).
-/
import Rustee.Foundation.Keyed
import Mathlib.Data.List.Sort
import Mathlib.Order.Basic

namespace Rustee.Foundation

set_option autoImplicit false

universe u v

namespace NestedMap

open Keyed (hget)

variable {K : Type u} {V : Type v} [LinearOrder K]

/-! ## Maps in the order of their keys -/

def insertKey (k : K) (v : V) : List (K × V) → List (K × V)
  | [] => [(k, v)]
  | (k', v') :: rest =>
    if k < k' then (k, v) :: (k', v') :: rest
    else if k = k' then (k, v) :: rest
    else (k', v') :: insertKey k v rest

@[simp] theorem hget_nil (k : K) : hget ([] : List (K × V)) k = none := rfl

theorem hget_cons (k k' : K) (v : V) (l : List (K × V)) :
    hget ((k', v) :: l) k = if k' = k then some v else hget l k := by
  by_cases same : k' = k
  · simp [hget, same]
  · simp [hget, same]

theorem hget_insertKey (k k' : K) (v : V) (l : List (K × V)) :
    hget (insertKey k v l) k' = if k = k' then some v else hget l k' := by
  induction l with
  | nil => rw [insertKey, hget_cons]
  | cons entry rest ih =>
    obtain ⟨j, w⟩ := entry
    rcases lt_trichotomy k j with before | rfl | after
    · rw [insertKey, if_pos before, hget_cons]
    · rw [insertKey, if_neg (lt_irrefl k), if_pos rfl, hget_cons, hget_cons]
      split_ifs <;> rfl
    · rw [insertKey, if_neg after.not_gt, if_neg after.ne', hget_cons, ih, hget_cons]
      by_cases here : j = k'
      · rw [if_pos here, if_pos here, if_neg fun same => after.ne (here.trans same.symm)]
      · rw [if_neg here, if_neg here]

theorem insertKey_insertKey (k : K) (v w : V) (l : List (K × V)) :
    insertKey k v (insertKey k w l) = insertKey k v l := by
  induction l with
  | nil => simp [insertKey]
  | cons entry rest ih =>
    obtain ⟨j, x⟩ := entry
    rcases lt_trichotomy k j with before | rfl | after
    · simp [insertKey, before]
    · simp [insertKey]
    · simp [insertKey, after.not_gt, after.ne', ih]

variable {k : K} {v : V} {l : List (K × V)}

theorem insertKey_comm {j : K} (distinct : j ≠ k) (v w : V) (l : List (K × V)) :
    insertKey j v (insertKey k w l) = insertKey k w (insertKey j v l) := by
  induction l with
  | nil =>
    rcases lt_or_gt_of_ne distinct with before | after
    · simp [insertKey, before, before.not_gt, distinct.symm]
    · simp [insertKey, after, after.not_gt, distinct]
  | cons entry rest ih =>
    obtain ⟨i, x⟩ := entry
    simp only [insertKey]
    rcases lt_or_gt_of_ne distinct with before | after
    all_goals grind [insertKey]

/-- The keys ascend, so that each stands once. -/
def Ascending (l : List (K × V)) : Prop := l.Pairwise fun entry other => entry.1 < other.1

theorem ascending_cons :
    Ascending ((k, v) :: l) ↔ (∀ entry ∈ l, k < entry.1) ∧ Ascending l :=
  List.pairwise_cons

theorem mem_insertKey {entry : K × V} (member : entry ∈ insertKey k v l) :
    entry = (k, v) ∨ entry ∈ l := by
  induction l with
  | nil => simpa [insertKey] using member
  | cons first rest ih =>
    obtain ⟨j, w⟩ := first
    unfold insertKey at member
    split_ifs at member with before same
    · simpa using member
    · rcases List.mem_cons.1 member with here | later
      · exact .inl here
      · exact .inr (List.mem_cons_of_mem _ later)
    · rcases List.mem_cons.1 member with here | later
      · exact .inr (here ▸ List.mem_cons_self)
      · exact (ih later).imp_right (List.mem_cons_of_mem _)

theorem Ascending.insertKey (ascending : Ascending l) (k : K) (v : V) :
    Ascending (insertKey k v l) := by
  induction l with
  | nil => exact List.pairwise_singleton _ _
  | cons first rest ih =>
    obtain ⟨j, w⟩ := first
    obtain ⟨below, tail⟩ := ascending_cons.1 ascending
    unfold NestedMap.insertKey
    split_ifs with before same
    · refine ascending_cons.2 ⟨fun entry member => ?_, ascending⟩
      rcases List.mem_cons.1 member with rfl | later
      · exact before
      · exact before.trans (below entry later)
    · exact ascending_cons.2 ⟨same ▸ below, tail⟩
    · refine ascending_cons.2 ⟨fun entry member => ?_, ih tail⟩
      rcases mem_insertKey member with rfl | later
      · exact lt_of_le_of_ne (not_lt.1 before) (Ne.symm same)
      · exact below entry later

theorem Ascending.hget_eq_some (ascending : Ascending l) :
    hget l k = some v ↔ (k, v) ∈ l := by
  refine ⟨Keyed.hget_mem, fun member => ?_⟩
  induction l with
  | nil => cases member
  | cons first rest ih =>
    obtain ⟨j, w⟩ := first
    obtain ⟨below, tail⟩ := ascending_cons.1 ascending
    rw [hget_cons]
    rcases List.mem_cons.1 member with here | later
    · cases here
      rw [if_pos rfl]
    · rw [if_neg (below _ later).ne, ih tail later]

/-- Such a map is what it says of each key. -/
theorem Ascending.ext {l' : List (K × V)} (ascending : Ascending l) (ascending' : Ascending l')
    (same : ∀ k, hget l k = hget l' k) : l = l' := by
  have irrefl : Std.Irrefl fun entry other : K × V => entry.1 < other.1 := ⟨fun _ => lt_irrefl _⟩
  refine List.Pairwise.eq_of_mem_iff ascending ascending' fun entry => ?_
  obtain ⟨k, v⟩ := entry
  rw [← ascending.hget_eq_some, ← ascending'.hget_eq_some, same]

/-! ## Values that may be maps -/

/-- How the values of a type are maps of such values: which of them are, and the value
that a map is. -/
structure Nesting (K : Type u) (V : Type v) where
  children : V → Option (List (K × V))
  node : List (K × V) → V
  children_node : ∀ l, children (node l) = some l

namespace Nesting

variable (N : Nesting K V)

/-- The map a path goes on in, given what stands at the place reached: a new one where
nothing stands. -/
def inside : Option V → Option (List (K × V))
  | none => some []
  | some x => N.children x

/-- What stands at a place once `v` is put at `path` below it. -/
def put : List K → V → Option V → Option V
  | [], v, none => some v
  | [], _, some _ => none
  | k :: rest, v, place =>
    (N.inside place).bind fun l =>
      (put rest v (hget l k)).map fun x => N.node (insertKey k x l)

/-- Nothing stands at `path`, and nothing on the way there is anything but a map. -/
def free : List K → Option V → Bool
  | [], place => place.isNone
  | k :: rest, place => (N.inside place).any fun l => free rest (hget l k)

omit [LinearOrder K] in
@[simp] theorem inside_none : N.inside none = some [] := rfl

omit [LinearOrder K] in
@[simp] theorem inside_node (l : List (K × V)) : N.inside (some (N.node l)) = some l :=
  N.children_node l

@[simp] theorem free_none (path : List K) : N.free path none = true := by
  induction path with
  | nil => rfl
  | cons k rest ih => simpa [free] using ih

/-- An empty map has every path free but the empty one. -/
theorem free_empty {path : List K} (nonempty : path ≠ []) :
    N.free path (some (N.node [])) = true := by
  cases path with
  | nil => exact absurd rfl nonempty
  | cons k rest => simp [free]

theorem put_isSome (path : List K) (v : V) (place : Option V) :
    (N.put path v place).isSome = N.free path place := by
  induction path generalizing place with
  | nil => cases place <;> rfl
  | cons k rest ih =>
    cases inside : N.inside place with
    | none => simp [put, free, inside]
    | some l => simp [put, free, inside, ih]

variable {v x : V} {place : Option V}

/-- A placement below a key is a placement in the map that stands there. -/
theorem put_cons_eq_some {k : K} {rest : List K} :
    N.put (k :: rest) v place = some x ↔
      ∃ l y, N.inside place = some l ∧ N.put rest v (hget l k) = some y ∧
        x = N.node (insertKey k y l) := by
  simp only [put, Option.bind_eq_some_iff, Option.map_eq_some_iff]
  constructor
  · rintro ⟨l, inside, y, below, rfl⟩
    exact ⟨l, y, inside, below, rfl⟩
  · rintro ⟨l, y, inside, below, rfl⟩
    exact ⟨l, inside, y, below, rfl⟩

/-- Where nothing stands, a path goes on as in an empty map. -/
theorem put_cons_none (k : K) (rest : List K) (v : V) :
    N.put (k :: rest) v none = N.put (k :: rest) v (some (N.node [])) := by
  simp [put]

/-! ## Two placements -/

/-- The path `later` may still be filled once `v` stands at `earlier`: it does not lie on
the way to `earlier`, and where it goes on below it there is room for the rest in `v`. -/
def Leaves (earlier : List K) (v : V) (later : List K) : Prop :=
  ¬ later <+: earlier ∧ ∀ rest, later = earlier ++ rest → N.free rest (some v) = true

theorem leaves_nil (v : V) (later : List K) :
    N.Leaves [] v later ↔ N.free later (some v) = true := by
  constructor
  · intro leaves
    exact leaves.2 later rfl
  · intro room
    refine ⟨fun below => ?_, fun rest same => ?_⟩
    · rw [List.prefix_nil.1 below] at room
      exact Bool.noConfusion room
    · rwa [← show later = rest from same]

theorem leaves_cons (k : K) (earlier : List K) (v : V) (later : List K) :
    N.Leaves (k :: earlier) v (k :: later) ↔ N.Leaves earlier v later := by
  simp [Leaves, List.cons_prefix_cons]

theorem leaves_diverging {j k : K} (distinct : k ≠ j) (earlier : List K) (v : V)
    (later : List K) : N.Leaves (k :: earlier) v (j :: later) := by
  refine ⟨fun below => ?_, fun rest same => ?_⟩
  · exact distinct (List.cons_prefix_cons.1 below).1.symm
  · exact absurd (List.cons.inj same).1.symm distinct

/-- What one placement does to every other path. -/
theorem free_put {path : List K} (placed : N.put path v place = some x) (other : List K) :
    N.free other (some x) = true ↔ N.free other place = true ∧ N.Leaves path v other := by
  induction path generalizing place x other with
  | nil =>
    cases place with
    | some y => cases placed
    | none =>
      cases placed
      rw [leaves_nil]
      simp
  | cons k rest ih =>
    obtain ⟨l, y, inside, below, rfl⟩ := N.put_cons_eq_some.1 placed
    cases other with
    | nil =>
      -- the place itself is taken from now on, and it lies on the way to the path
      simp [free, Leaves]
    | cons j others =>
      simp only [free, inside_node, inside, Option.any_some, hget_insertKey]
      by_cases same : k = j
      · subst same
        rw [if_pos rfl, leaves_cons]
        exact ih below others
      · rw [if_neg same]
        exact (and_iff_left (N.leaves_diverging same rest v others)).symm

/-- Neither of two paths is a prefix of the other. -/
def Apart (p q : List K) : Prop := ¬ p <+: q ∧ ¬ q <+: p

omit [LinearOrder K] in
theorem Apart.symm {p q : List K} (apart : Apart p q) : Apart q p := ⟨apart.2, apart.1⟩

/-- Placements at paths that are apart commute. -/
theorem put_comm {p q : List K} (apart : Apart p q) {w z : V} (first : N.put p v place = some x)
    (second : N.put q w (some x) = some z) :
    ∃ y, N.put q w place = some y ∧ N.put p v (some y) = some z := by
  induction p generalizing q place x z with
  | nil => exact absurd List.nil_prefix apart.1
  | cons k p ih =>
    cases q with
    | nil => exact absurd List.nil_prefix apart.2
    | cons j q =>
      obtain ⟨l, a, inside, below, rfl⟩ := N.put_cons_eq_some.1 first
      obtain ⟨l', b, inside', below', rfl⟩ := N.put_cons_eq_some.1 second
      rw [inside_node] at inside'
      cases inside'
      rw [hget_insertKey] at below'
      by_cases same : k = j
      · subst same
        rw [if_pos rfl] at below'
        have deeper : Apart p q := by
          simpa [Apart, List.cons_prefix_cons] using apart
        obtain ⟨c, filled, filled'⟩ := ih deeper below below'
        refine ⟨_, N.put_cons_eq_some.2 ⟨l, c, inside, filled, rfl⟩, ?_⟩
        refine N.put_cons_eq_some.2 ⟨_, b, N.inside_node _, ?_, ?_⟩
        · rwa [hget_insertKey, if_pos rfl]
        · rw [insertKey_insertKey, insertKey_insertKey]
      · rw [if_neg same] at below'
        refine ⟨_, N.put_cons_eq_some.2 ⟨l, b, inside, below', rfl⟩, ?_⟩
        refine N.put_cons_eq_some.2 ⟨_, a, N.inside_node _, ?_, ?_⟩
        · rwa [hget_insertKey, if_neg (Ne.symm same)]
        · rw [insertKey_comm same]

/-! ## Whole lists of placements -/

/-- The entries placed one after the other. -/
def putAll : List (List K × V) → V → Option V
  | [], x => some x
  | e :: rest, x => (N.put e.1 e.2 (some x)).bind (putAll rest)

/-- A list of placements succeeds exactly when every path is free at the start and every
entry leaves each later path free. -/
theorem putAll_isSome (entries : List (List K × V)) (x : V) :
    (N.putAll entries x).isSome = true ↔
      (∀ e ∈ entries, N.free e.1 (some x) = true) ∧
        entries.Pairwise fun e f => N.Leaves e.1 e.2 f.1 := by
  induction entries generalizing x with
  | nil => simp [putAll]
  | cons e rest ih =>
    rw [List.pairwise_cons, List.forall_mem_cons, ← N.put_isSome e.1 e.2]
    cases placed : N.put e.1 e.2 (some x) with
    | none => simp [putAll, placed]
    | some y =>
      have split : (N.putAll (e :: rest) x).isSome = (N.putAll rest y).isSome := by
        rw [putAll, placed]
        rfl
      rw [split, ih y]
      simp only [N.free_put placed, Option.isSome_some, true_and]
      constructor
      · rintro ⟨every, ordered⟩
        exact ⟨fun f member => (every f member).1, fun f member => (every f member).2, ordered⟩
      · rintro ⟨open_, leaves, ordered⟩
        exact ⟨fun f member => ⟨open_ f member, leaves f member⟩, ordered⟩

/-- What is made of a map is a map. -/
theorem putAll_node {entries : List (List K × V)} {l : List (K × V)}
    (placed : N.putAll entries (N.node l) = some x) : ∃ l', x = N.node l' := by
  induction entries generalizing l with
  | nil =>
    cases placed
    exact ⟨l, rfl⟩
  | cons e rest ih =>
    obtain ⟨y, first, others⟩ := Option.bind_eq_some_iff.1 placed
    obtain ⟨path, v⟩ := e
    cases path with
    | nil => cases first
    | cons k keys =>
      obtain ⟨_, _, -, -, rfl⟩ := N.put_cons_eq_some.1 first
      exact ih others

theorem putAll_swap {e f : List K × V} (apart : Apart e.1 f.1) (rest : List (List K × V)) (x : V) :
    N.putAll (e :: f :: rest) x = N.putAll (f :: e :: rest) x := by
  have swapped : (N.put e.1 e.2 (some x)).bind (fun y => N.put f.1 f.2 (some y)) =
      (N.put f.1 f.2 (some x)).bind fun y => N.put e.1 e.2 (some y) := by
    refine Option.ext fun z => ?_
    simp only [Option.bind_eq_some_iff]
    constructor
    · rintro ⟨y, first, second⟩
      exact N.put_comm apart first second
    · rintro ⟨y, first, second⟩
      exact N.put_comm apart.symm first second
  have regroup : ∀ a b : List K × V, N.putAll (a :: b :: rest) x =
      ((N.put a.1 a.2 (some x)).bind fun y => N.put b.1 b.2 (some y)).bind (N.putAll rest) := by
    intro a b
    rw [Option.bind_assoc]
    rfl
  rw [regroup, regroup, swapped]

/-- Entries whose paths are apart give the same value in every order. -/
theorem putAll_perm {entries entries' : List (List K × V)} (reordered : entries.Perm entries')
    (apart : entries.Pairwise fun e f => Apart e.1 f.1) (x : V) :
    N.putAll entries x = N.putAll entries' x := by
  induction reordered generalizing x with
  | nil => rfl
  | cons e _ ih =>
    rw [putAll, putAll]
    exact congrArg _ (funext fun y => ih (List.pairwise_cons.1 apart).2 y)
  | swap e f rest =>
    exact N.putAll_swap ((List.pairwise_cons.1 apart).1 e List.mem_cons_self) rest x
  | trans first second ih ih' =>
    have kept := first.pairwise apart fun {_ _} two => Apart.symm two
    rw [ih apart, ih' kept]

end Nesting

end NestedMap

end Rustee.Foundation
