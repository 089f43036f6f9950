/-
# Rustee.Foundation.Stretches -- runs of numbers, and putting those that meet together

A list of intervals stands for the numbers it covers.  Going through it in the order of the first
numbers, `absorb` lets the last interval so far take in the next one when the two overlap or touch,
and otherwise adds the next one behind it.  What is covered does not change, and the intervals left
have gaps between them (`coalesce_spec`).

Intervals with gaps between them are determined by what they cover: there are as many as the
covered set has numbers whose predecessor is not in it (`length_eq_runs`).
-/
import Mathlib.Data.List.Perm.Basic
import Mathlib.Data.List.Sort
import Mathlib.Order.Lattice

namespace Rustee.Foundation

set_option autoImplicit false

/-- The numbers from `start` to `last`. -/
structure Stretch where
  start : Nat
  last : Nat
  deriving DecidableEq, Repr

namespace Stretch

def Contains (interval : Stretch) (n : Nat) : Prop := interval.start ≤ n ∧ n ≤ interval.last

def Covers (intervals : List Stretch) (n : Nat) : Prop := ∃ interval ∈ intervals, interval.Contains n

/-- A number stands between the two. -/
def Apart (before after : Stretch) : Prop := before.last + 1 < after.start

instance (interval : Stretch) (n : Nat) : Decidable (interval.Contains n) :=
  inferInstanceAs (Decidable (_ ∧ _))

instance (intervals : List Stretch) (n : Nat) : Decidable (Covers intervals n) :=
  inferInstanceAs (Decidable (∃ interval ∈ intervals, _))

@[simp] theorem covers_nil (n : Nat) : ¬Covers [] n := by simp [Covers]

@[simp] theorem covers_cons (interval : Stretch) (rest : List Stretch) (n : Nat) :
    Covers (interval :: rest) n ↔ interval.Contains n ∨ Covers rest n := by simp [Covers]

/-! ## Putting together -/

/-- The next interval is taken in, the last one so far standing first. -/
def absorb : List Stretch → Stretch → List Stretch
  | [], next => [next]
  | previous :: earlier, next =>
    if next.start ≤ previous.last + 1 then
      { previous with last := max previous.last next.last } :: earlier
    else next :: previous :: earlier

/-- The intervals so far, the last one first: none is empty, there are gaps between them, and none
starts after `bound`. -/
structure Coalesced (done : List Stretch) (bound : Nat) : Prop where
  proper : ∀ interval ∈ done, interval.start ≤ interval.last
  apart : done.Pairwise fun after before => Apart before after
  early : ∀ interval ∈ done, interval.start ≤ bound

variable {done intervals : List Stretch} {bound : Nat}

theorem Coalesced.mono {later : Nat} (held : Coalesced done bound) (ordered : bound ≤ later) :
    Coalesced done later :=
  { held with early := fun interval member => (held.early interval member).trans ordered }

theorem covers_absorb {next : Stretch} (held : Coalesced done next.start) (n : Nat) :
    Covers (absorb done next) n ↔ Covers done n ∨ next.Contains n := by
  cases done with
  | nil => simp [absorb]
  | cons previous earlier =>
    have ordered := held.early previous List.mem_cons_self
    have proper := held.proper previous List.mem_cons_self
    rw [absorb]
    split_ifs with meets
    · have union : Contains { previous with last := max previous.last next.last } n ↔
          previous.Contains n ∨ next.Contains n := by
        simp only [Contains]
        omega
      rw [covers_cons, covers_cons, union]
      tauto
    · rw [covers_cons, covers_cons]
      tauto

theorem Coalesced.absorb {next : Stretch} (held : Coalesced done next.start)
    (proper : next.start ≤ next.last) : Coalesced (absorb done next) next.start := by
  cases done with
  | nil => exact ⟨by simpa [Stretch.absorb] using proper, by simp [Stretch.absorb], by simp [Stretch.absorb]⟩
  | cons previous earlier =>
    obtain ⟨previousProper, earlierProper⟩ := List.forall_mem_cons.1 held.proper
    obtain ⟨previousEarly, earlierEarly⟩ := List.forall_mem_cons.1 held.early
    obtain ⟨gaps, earlierApart⟩ := List.pairwise_cons.1 held.apart
    rw [Stretch.absorb]
    split_ifs with meets
    · exact ⟨List.forall_mem_cons.2 ⟨previousProper.trans (le_max_left _ _), earlierProper⟩,
        List.pairwise_cons.2 ⟨gaps, earlierApart⟩,
        List.forall_mem_cons.2 ⟨previousEarly, earlierEarly⟩⟩
    · refine ⟨List.forall_mem_cons.2 ⟨proper, held.proper⟩, List.pairwise_cons.2 ⟨?_, held.apart⟩,
        List.forall_mem_cons.2 ⟨le_rfl, held.early⟩⟩
      intro before member
      rcases List.mem_cons.1 member with rfl | isEarlier
      · exact Nat.lt_of_not_le meets
      · exact (gaps before isEarlier).trans_le previousEarly

/-- The intervals in order, with gaps between them. -/
def coalesce (intervals : List Stretch) : List Stretch := (intervals.foldl absorb []).reverse

theorem foldl_absorb (held : Coalesced done bound)
    (sorted : intervals.Pairwise fun one other => one.start ≤ other.start)
    (later : ∀ interval ∈ intervals, bound ≤ interval.start)
    (proper : ∀ interval ∈ intervals, interval.start ≤ interval.last) :
    (∃ bound, Coalesced (intervals.foldl absorb done) bound) ∧
      ∀ n, Covers (intervals.foldl absorb done) n ↔ Covers done n ∨ Covers intervals n := by
  induction intervals generalizing done bound with
  | nil => exact ⟨⟨bound, held⟩, by simp⟩
  | cons next rest ih =>
    obtain ⟨after, restSorted⟩ := List.pairwise_cons.1 sorted
    obtain ⟨isProper, restProper⟩ := List.forall_mem_cons.1 proper
    have ready := held.mono (later next List.mem_cons_self)
    obtain ⟨coalesced, covers⟩ := ih (ready.absorb isProper) restSorted after restProper
    refine ⟨coalesced, fun n => ?_⟩
    rw [List.foldl_cons, covers, covers_absorb ready, covers_cons]
    tauto

/-- **Sorted intervals are put together** into intervals with gaps between them that cover the
same numbers. -/
theorem coalesce_spec (sorted : intervals.Pairwise fun one other => one.start ≤ other.start)
    (proper : ∀ interval ∈ intervals, interval.start ≤ interval.last) :
    (∀ interval ∈ coalesce intervals, interval.start ≤ interval.last) ∧
      (coalesce intervals).Pairwise Apart ∧
      ∀ n, Covers (coalesce intervals) n ↔ Covers intervals n := by
  have start : Coalesced [] 0 := ⟨by simp, .nil, by simp⟩
  obtain ⟨⟨bound, held⟩, covers⟩ := foldl_absorb start sorted (fun _ _ => Nat.zero_le _) proper
  refine ⟨fun interval member => held.proper interval (List.mem_reverse.1 member),
    List.pairwise_reverse.2 held.apart, fun n => ?_⟩
  have same : Covers (coalesce intervals) n ↔ Covers (intervals.foldl absorb []) n := by
    simp only [Covers, coalesce, List.mem_reverse]
  rw [same, covers]
  simp

/-! ## Runs -/

/-- How many runs of consecutive numbers below `bound` a set has. -/
def runs (covered : Nat → Prop) [DecidablePred covered] (bound : Nat) : Nat :=
  ((List.range bound).filter fun n => covered n ∧ (n = 0 ∨ ¬covered (n - 1))).length

/-- Of two intervals of such a list one is before the other. -/
theorem apart_or_eq (apart : intervals.Pairwise Apart) {one other : Stretch} (isOne : one ∈ intervals)
    (isOther : other ∈ intervals) :
    one = other ∨ Apart one other ∨ Apart other one := by
  have forward : intervals.Pairwise fun one other => one = other ∨ Apart one other ∨ Apart other one :=
    apart.imp fun gap => .inr (.inl gap)
  have backward : intervals.Pairwise
      (flip fun one other => one = other ∨ Apart one other ∨ Apart other one) :=
    apart.imp fun gap => .inr (.inr gap)
  exact forward.forall_of_forall_of_flip (fun _ _ => .inl rfl) backward isOne isOther

theorem isStart_iff (apart : intervals.Pairwise Apart)
    (proper : ∀ interval ∈ intervals, interval.start ≤ interval.last) {n : Nat} :
    n ∈ intervals.map Stretch.start ↔
      Covers intervals n ∧ (n = 0 ∨ ¬Covers intervals (n - 1)) := by
  constructor
  · intro member
    obtain ⟨interval, isInterval, rfl⟩ := List.mem_map.1 member
    refine ⟨⟨interval, isInterval, le_rfl, proper interval isInterval⟩, ?_⟩
    by_contra notStart
    push Not at notStart
    obtain ⟨positive, other, isOther, contains⟩ := notStart
    have notEmpty := proper interval isInterval
    obtain ⟨notBefore, notAfter⟩ := contains
    rcases apart_or_eq apart isInterval isOther with rfl | gap | gap
    · omega
    · have : interval.last + 1 < other.start := gap
      omega
    · have : other.last + 1 < interval.start := gap
      omega
  · rintro ⟨⟨interval, isInterval, contains⟩, first⟩
    refine List.mem_map.2 ⟨interval, isInterval, ?_⟩
    by_contra differs
    have inside : interval.start < n := lt_of_le_of_ne contains.1 differs
    rcases first with rfl | uncovered
    · omega
    · exact uncovered ⟨interval, isInterval, by have := contains.2; constructor <;> omega⟩

theorem nodup_starts (apart : intervals.Pairwise Apart)
    (proper : ∀ interval ∈ intervals, interval.start ≤ interval.last) :
    (intervals.map Stretch.start).Nodup := by
  rw [List.Nodup, List.pairwise_map]
  refine apart.imp_of_mem fun {before after} isBefore _ gap same => ?_
  have notEmpty := proper before isBefore
  have : before.last + 1 < after.start := gap
  omega

/-- **There are as many intervals as runs**, when there are gaps between them. -/
theorem length_eq_runs {covered : Nat → Prop} [DecidablePred covered] (apart : intervals.Pairwise Apart)
    (proper : ∀ interval ∈ intervals, interval.start ≤ interval.last)
    (covers : ∀ n, Covers intervals n ↔ covered n) (below : ∀ n, covered n → n < bound) :
    intervals.length = runs covered bound := by
  have perm : (intervals.map Stretch.start).Perm
      ((List.range bound).filter fun n => covered n ∧ (n = 0 ∨ ¬covered (n - 1))) := by
    rw [List.perm_ext_iff_of_nodup (nodup_starts apart proper) (List.nodup_range.filter _)]
    intro n
    rw [isStart_iff apart proper, covers, covers, List.mem_filter, List.mem_range, decide_eq_true_eq]
    exact ⟨fun isStart => ⟨below n isStart.1, isStart⟩, fun isStart => isStart.2⟩
  rw [← List.length_map (f := Stretch.start), perm.length_eq, runs]

end Stretch

end Rustee.Foundation
