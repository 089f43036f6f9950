/-
# Rustee.Cron.NextOccurrence -- a schedule through the transitions of its time zone

`next_after_unix_ms` asks the time-zone database for the instants of a wall-clock reading and passes
over the second pass of a repeated one.  Here the database is related to the readings it is about
(`WallClock`): a reading is shown by no instant, by one, or by an earlier and a later one.  Then the
test of the source is that no earlier instant shows the reading (`isEarliestLocalOccurrence_iff`).

Where the iterator yields the occurrences after its start in order (`Iterates`), the function goes
from one occurrence that passes the test to the next (`iterate_eq_take`); `next_occurrence` collects
what follows.  An instant before the first date `chrono` has is refused, whatever comes after it.
-/
import Rustee.Cron.Schedule
import Mathlib.Order.Bounds.Basic
import Mathlib.Data.Int.Order.Basic
import Mathlib.Data.List.Sort
import Mathlib.Data.List.Nodup

namespace Rustee.Cron

set_option autoImplicit false

/-! ## Readings -/

/-- An instant `chrono` can represent. -/
def InRange (instant : Int) : Prop := minUtcMs ≤ instant ∧ instant ≤ maxUtcMs

def LocalResult.Has (instant : Int) : LocalResult → Prop
  | .single at_ => instant = at_
  | .ambiguous earlier later => instant = earlier ∨ instant = later
  | .none => False

/-- What the time-zone database says, in terms of the readings of its clocks. -/
structure WallClock (calendar : Calendar) where
  /-- `naive_local`. -/
  reading : String → Int → Int
  /-- `from_local_datetime`. -/
  instants : String → Int → LocalResult
  fromLocal_eq : ∀ zone instant,
    calendar.fromLocal zone instant = instants zone (reading zone instant)
  has_iff : ∀ zone wall instant,
    (instants zone wall).Has instant ↔ InRange instant ∧ reading zone instant = wall
  ordered : ∀ zone wall earlier later,
    instants zone wall = .ambiguous earlier later → earlier < later

section

variable {calendar : Calendar} (clock : WallClock calendar)

/-- No earlier instant shows the same time on the wall. -/
def WallClock.Earliest (zone : String) (t : Int) : Prop :=
  ∀ u, InRange u → clock.reading zone u = clock.reading zone t → t ≤ u

/-- The occurrences a schedule is meant to fire at. -/
def WallClock.fires (zone : String) (occurrences : Set Int) : Set Int :=
  {t | t ∈ occurrences ∧ clock.Earliest zone t}

theorem WallClock.isEarliestLocalOccurrence_iff {zone : String} {t : Int} (range : InRange t) :
    isEarliestLocalOccurrence calendar zone t = true ↔ clock.Earliest zone t := by
  have has (u : Int) : (clock.instants zone (clock.reading zone t)).Has u ↔
      InRange u ∧ clock.reading zone u = clock.reading zone t := clock.has_iff zone _ u
  have shown := (has t).2 ⟨range, rfl⟩
  rw [isEarliestLocalOccurrence, clock.fromLocal_eq]
  cases found : clock.instants zone (clock.reading zone t) with
  | none =>
    rw [found] at shown
    exact shown.elim
  | single at_ =>
    simp only [found, LocalResult.Has] at has shown
    refine iff_of_true rfl fun u inRange same => ?_
    rw [shown, (has u).2 ⟨inRange, same⟩]
  | ambiguous earlier later =>
    have before := clock.ordered zone _ _ _ found
    simp only [found, LocalResult.Has] at has shown
    rw [beq_iff_eq]
    constructor
    · rintro rfl u inRange same
      rcases (has u).2 ⟨inRange, same⟩ with rfl | rfl
      · exact le_rfl
      · exact before.le
    · intro earliest
      obtain ⟨inRange, same⟩ := (has earlier).1 (.inl rfl)
      have below := earliest earlier inRange same
      omega

variable {occurrences : Set Int} (inDates : ∀ t ∈ occurrences, InRange t)
include inDates

/-- Two instants that are both the first to show a reading show different ones. -/
theorem WallClock.reading_injOn (zone : String) :
    Set.InjOn (clock.reading zone) (clock.fires zone occurrences) := by
  rintro t ⟨memberT, earliestT⟩ u ⟨memberU, earliestU⟩ same
  apply le_antisymm
  · exact earliestT u (inDates u memberU) same.symm
  · exact earliestU t (inDates t memberT) same

end

/-! ## One step after the other -/

/-- From the start, the iterator of the expression yields the occurrences after it, in ascending
order. -/
structure Iterates (calendar : Calendar) (expression zone : String) (occurrences : Set Int)
    (start : Int) : Prop where
  ascending : (calendar.upcoming expression zone start).Pairwise (· < ·)
  mem_iff : ∀ t, start < t → (t ∈ calendar.upcoming expression zone start ↔ t ∈ occurrences)

section

variable {calendar : Calendar} (expression : CronExpression calendar)
  (zone : RecurringJobTimeZone calendar)

/-- Up to so many occurrences, each the next one after the one before. -/
def CronExpression.iterate : Nat → Int → List Int
  | 0, _ => []
  | steps + 1, after =>
    match expression.nextAfterUnixMs after zone with
    | .ok next => next :: CronExpression.iterate steps next
    | .error _ => []

/-- What of the iterator's instants passes the test. -/
def remaining (after : Int) : List Int :=
  (calendar.upcoming expression.value zone.name after).filter (isNext calendar zone.name after)

/-- From a date, a step takes the first of them. -/
theorem nextAfterUnixMs_eq_ok_iff {after t : Int} (inDates : InRange after) :
    expression.nextAfterUnixMs after zone = .ok t ↔ (remaining expression zone after).head? = some t := by
  have range : minUtcMs ≤ after ∧ after ≤ maxUtcMs := inDates
  rw [remaining, List.head?_filter]
  unfold CronExpression.nextAfterUnixMs unixMsToUtc
  rw [if_pos range]
  simp only [expression.parses, if_true]
  cases (calendar.upcoming expression.value zone.name after).find?
      (isNext calendar zone.name after) with
  | none => simp
  | some u => simp

theorem nextAfterUnixMs_out_of_range {after : Int} (outside : ¬InRange after) :
    expression.nextAfterUnixMs after zone = .error .clockOutOfRange := by
  have beyond : ¬(minUtcMs ≤ after ∧ after ≤ maxUtcMs) := outside
  unfold CronExpression.nextAfterUnixMs unixMsToUtc
  rw [if_neg beyond]

variable {expression zone} {occurrences : Set Int} (inDates : ∀ t ∈ occurrences, InRange t)
  (clock : WallClock calendar) {after : Int}

include inDates clock

theorem Iterates.mem_remaining
    (iterates : Iterates calendar expression.value zone.name occurrences after) {t : Int} :
    t ∈ remaining expression zone after ↔ t ∈ clock.fires zone.name occurrences ∧ after < t := by
  simp only [remaining, List.mem_filter, isNext, Bool.and_eq_true, decide_eq_true_eq]
  constructor
  · rintro ⟨yielded, afterT, earliest⟩
    have member := (iterates.mem_iff t afterT).1 yielded
    exact ⟨⟨member, (clock.isEarliestLocalOccurrence_iff (inDates t member)).1 earliest⟩, afterT⟩
  · rintro ⟨⟨member, earliest⟩, afterT⟩
    exact ⟨(iterates.mem_iff t afterT).2 member, afterT,
      (clock.isEarliestLocalOccurrence_iff (inDates t member)).2 earliest⟩

omit inDates clock in
theorem Iterates.pairwise_remaining
    (iterates : Iterates calendar expression.value zone.name occurrences after) :
    (remaining expression zone after).Pairwise (· < ·) :=
  iterates.ascending.filter _

/-- Behind the first one come those after it. -/
theorem Iterates.remaining_tail
    (iterates : Iterates calendar expression.value zone.name occurrences after) {next : Int}
    (again : Iterates calendar expression.value zone.name occurrences next) {rest : List Int}
    (split : remaining expression zone after = next :: rest) :
    remaining expression zone next = rest := by
  have ascending := iterates.pairwise_remaining
  have members (t : Int) :
      t ∈ next :: rest ↔ t ∈ clock.fires zone.name occurrences ∧ after < t := by
    rw [← split, iterates.mem_remaining inDates clock]
  have afterNext := ((members next).1 List.mem_cons_self).2
  rw [split, List.pairwise_cons] at ascending
  -- both lists are ascending, so it is enough that they have the same members
  refine again.pairwise_remaining.eq_of_mem_iff ascending.2 fun t => ?_
  rw [again.mem_remaining inDates clock]
  constructor
  · rintro ⟨fires, nextT⟩
    rcases List.mem_cons.1 ((members t).2 ⟨fires, afterNext.trans nextT⟩) with rfl | inside
    · exact absurd nextT (lt_irrefl _)
    · exact inside
  · intro inside
    exact ⟨((members t).1 (List.mem_cons_of_mem next inside)).1, ascending.1 t inside⟩

theorem iterate_eq_take (range : InRange after) (steps : Nat)
    (iterates : Iterates calendar expression.value zone.name occurrences after)
    (onwards : ∀ t ∈ occurrences, after < t →
      Iterates calendar expression.value zone.name occurrences t) :
    expression.iterate zone steps after = (remaining expression zone after).take steps := by
  induction steps generalizing after with
  | zero => rfl
  | succ steps ih =>
    rw [CronExpression.iterate]
    cases split : remaining expression zone after with
    | nil =>
      cases result : expression.nextAfterUnixMs after zone with
      | error error => rfl
      | ok t =>
        have first := (nextAfterUnixMs_eq_ok_iff expression zone range).1 result
        rw [split] at first
        cases first
    | cons next rest =>
      have found : expression.nextAfterUnixMs after zone = .ok next := by
        rw [nextAfterUnixMs_eq_ok_iff expression zone range, split]
        rfl
      obtain ⟨fires, afterNext⟩ :=
        (iterates.mem_remaining inDates clock).1 (split ▸ List.mem_cons_self : next ∈ _)
      have again := onwards next fires.1 afterNext
      have further : ∀ t ∈ occurrences, next < t →
          Iterates calendar expression.value zone.name occurrences t :=
        fun t member later => onwards t member (afterNext.trans later)
      simp only [found, List.take_succ_cons, ih (inDates next fires.1) again further,
        iterates.remaining_tail inDates clock again split]

/-- The first occurrences after an instant, as many as there are up to a number: none is left out
before the last of them, and none at all if there are fewer. -/
structure WallClock.Enumerates (clock : WallClock calendar) (zone : String) (occurrences : Set Int)
    (after : Int) (steps : Nat) (run : List Int) : Prop where
  increasing : run.Pairwise (· < ·)
  readings : (run.map (clock.reading zone)).Nodup
  sound : ∀ t ∈ run, t ∈ clock.fires zone occurrences ∧ after < t
  complete : ∀ t ∈ clock.fires zone occurrences, after < t →
    t ∈ run ∨ (run.length = steps ∧ ∀ earlier ∈ run, earlier < t)

/-- The first of an ascending list of just these occurrences. -/
theorem take_enumerates {all : List Int} (ascending : all.Pairwise (· < ·))
    (members : ∀ t, t ∈ all ↔ t ∈ clock.fires zone.name occurrences ∧ after < t) (steps : Nat) :
    clock.Enumerates zone.name occurrences after steps (all.take steps) := by
  have increasing : (all.take steps).Pairwise (· < ·) := ascending.sublist (List.take_sublist _ _)
  have sound : ∀ t ∈ all.take steps, t ∈ clock.fires zone.name occurrences ∧ after < t :=
    fun t inside => (members t).1 (List.mem_of_mem_take inside)
  refine ⟨increasing, ?_, sound, ?_⟩
  · refine List.Nodup.map_on (fun t inside u insideU same => ?_) (increasing.imp ne_of_lt)
    exact clock.reading_injOn inDates zone.name (sound t inside).1 (sound u insideU).1 same
  · intro t fires afterT
    have member := (members t).2 ⟨fires, afterT⟩
    rw [← List.take_append_drop steps all] at member ascending
    rcases List.mem_append.1 member with inside | beyond
    · exact .inl inside
    · refine .inr ⟨List.length_take_of_le ?_, fun earlier inside => ?_⟩
      · by_contra short
        rw [List.drop_eq_nil_of_le (by omega)] at beyond
        exact absurd beyond List.not_mem_nil
      · exact (List.pairwise_append.1 ascending).2.2 earlier inside t beyond

/-- What the source is asked for, once its results are known to be such a list. -/
theorem results_of_list {all : List Int} (ascending : all.Pairwise (· < ·))
    (members : ∀ t, t ∈ all ↔ t ∈ clock.fires zone.name occurrences ∧ after < t)
    (first : ∀ t, expression.nextAfterUnixMs after zone = .ok t ↔ all.head? = some t)
    (run : ∀ steps, expression.iterate zone steps after = all.take steps) :
    (∀ t, expression.nextAfterUnixMs after zone = .ok t ↔
      IsLeast {t | t ∈ clock.fires zone.name occurrences ∧ after < t} t) ∧
    ((∃ error, expression.nextAfterUnixMs after zone = .error error) ↔
      ∀ t ∈ clock.fires zone.name occurrences, t ≤ after) ∧
    ∀ steps, clock.Enumerates zone.name occurrences after steps
      (expression.iterate zone steps after) := by
  have runs (steps : Nat) : clock.Enumerates zone.name occurrences after steps
      (expression.iterate zone steps after) :=
    run steps ▸ take_enumerates inDates clock ascending members steps
  cases all with
  | nil =>
    have none (t : Int) : ¬(t ∈ clock.fires zone.name occurrences ∧ after < t) := by
      rw [← members]
      exact List.not_mem_nil
    refine ⟨fun t => ?_, ?_, runs⟩
    · rw [first]
      exact iff_of_false nofun fun least => none t least.1
    · refine iff_of_true ?_ fun t fires => not_lt.1 fun later => none t ⟨fires, later⟩
      cases result : expression.nextAfterUnixMs after zone with
      | error error => exact ⟨error, rfl⟩
      | ok t => cases (first t).1 result
  | cons next rest =>
    have found := (first next).2 rfl
    have isNext := (members next).1 List.mem_cons_self
    have least : IsLeast {t | t ∈ clock.fires zone.name occurrences ∧ after < t} next := by
      refine ⟨isNext, fun u isLater => ?_⟩
      rcases List.mem_cons.1 ((members u).2 isLater) with rfl | behind
      · exact le_rfl
      · exact ((List.pairwise_cons.1 ascending).1 u behind).le
    refine ⟨fun t => ?_, ?_, runs⟩
    · rw [found, Except.ok.injEq]
      exact ⟨fun same => same ▸ least, fun isLeast => least.unique isLeast⟩
    · refine iff_of_false ?_ fun none => absurd (none next isNext.1) (not_le.2 isNext.2)
      rintro ⟨error, failed⟩
      rw [found] at failed
      cases failed

end

/-- **The next occurrence.**  From an instant that is not before the first date: it is the least
occurrence after it that is the first to show its reading, and there is an error only if no such
occurrence is left.  Iterating goes through them in order, never shows a reading twice and skips
none.  Before the first date it is an error. -/
theorem next_occurrence {calendar : Calendar} (expression : CronExpression calendar)
    (zone : RecurringJobTimeZone calendar) (clock : WallClock calendar) (occurrences : Set Int)
    (inDates : ∀ t ∈ occurrences, InRange t) (after : Int)
    (iterates : ∀ start, InRange start → start = after ∨ start ∈ occurrences ∧ after < start →
      Iterates calendar expression.value zone.name occurrences start) :
    (minUtcMs ≤ after →
      (∀ t, expression.nextAfterUnixMs after zone = .ok t ↔
        IsLeast {t | t ∈ clock.fires zone.name occurrences ∧ after < t} t) ∧
      ((∃ error, expression.nextAfterUnixMs after zone = .error error) ↔
        ∀ t ∈ clock.fires zone.name occurrences, t ≤ after) ∧
      ∀ steps, clock.Enumerates zone.name occurrences after steps
        (expression.iterate zone steps after)) ∧
    (after < minUtcMs → expression.nextAfterUnixMs after zone = .error .clockOutOfRange) := by
  refine ⟨fun start => ?_, fun early => ?_⟩
  · by_cases range : InRange after
    · have here := iterates after range (.inl rfl)
      refine results_of_list inDates clock here.pairwise_remaining
        (fun t => here.mem_remaining inDates clock)
        (fun t => nextAfterUnixMs_eq_ok_iff expression zone range) fun steps => ?_
      refine iterate_eq_take inDates clock range steps here fun t member later => ?_
      exact iterates t (inDates t member) (.inr ⟨member, later⟩)
    · -- after the last date the answer is an error, and there is no occurrence left
      have failed := nextAfterUnixMs_out_of_range expression zone range
      refine results_of_list inDates clock .nil (fun t => ?_) (fun t => ?_) fun steps => ?_
      · refine iff_of_false List.not_mem_nil fun found => range ⟨start, ?_⟩
        exact found.2.le.trans (inDates t found.1.1).2
      · rw [failed]
        exact iff_of_false nofun nofun
      · cases steps with
        | zero => rfl
        | succ steps => rw [CronExpression.iterate, failed, List.take_nil]
  · refine nextAfterUnixMs_out_of_range expression zone fun range => ?_
    exact absurd range.1 (not_le.2 early)

/-! ## New York in 2026 -/

/-- Daylight saving time is from 8 March, 7:00 UTC, to 1 November, 6:00 UTC. -/
def newYorkReading (instant : Int) : Int :=
  if 1772953200000 ≤ instant ∧ instant < 1793512800000 then instant - 14400000
  else instant - 18000000

def newYorkShows (wall instant : Int) : Bool :=
  minUtcMs ≤ instant && instant ≤ maxUtcMs && newYorkReading instant == wall

def newYorkInstants (wall : Int) : LocalResult :=
  match newYorkShows wall (wall + 14400000), newYorkShows wall (wall + 18000000) with
  | true, true => .ambiguous (wall + 14400000) (wall + 18000000)
  | true, false => .single (wall + 14400000)
  | false, true => .single (wall + 18000000)
  | false, false => .none

/-- Half past one on 1 November, which comes twice, and on 2 November. -/
def halfPastOnes : List Int := [1793511000000, 1793514600000, 1793601000000]

def newYork : Calendar where
  isSchedule expression := expression == "0 30 1 1-2 11 * 2026"
  isTimeZone zone := zone == "America/New_York"
  upcoming _ _ start := halfPastOnes.filter (start < ·)
  fromLocal _ instant := newYorkInstants (newYorkReading instant)

theorem newYorkInstants_has (wall instant : Int) :
    (newYorkInstants wall).Has instant ↔ newYorkShows wall instant = true := by
  have candidates (shows_ : newYorkShows wall instant = true) :
      instant = wall + 14400000 ∨ instant = wall + 18000000 := by
    simp only [newYorkShows, newYorkReading, Bool.and_eq_true, beq_iff_eq] at shows_
    obtain ⟨-, same⟩ := shows_
    split at same <;> omega
  unfold newYorkInstants
  cases summer : newYorkShows wall (wall + 14400000) <;>
    cases winter : newYorkShows wall (wall + 18000000) <;> simp only [LocalResult.Has]
  · refine iff_of_false id fun shown => ?_
    rcases candidates shown with rfl | rfl
    · simp [summer] at shown
    · simp [winter] at shown
  · refine ⟨fun same => same ▸ winter, fun shown => (candidates shown).resolve_left ?_⟩
    rintro rfl
    simp [summer] at shown
  · refine ⟨fun same => same ▸ summer, fun shown => (candidates shown).resolve_right ?_⟩
    rintro rfl
    simp [winter] at shown
  · refine ⟨fun same => ?_, candidates⟩
    rcases same with rfl | rfl
    · exact summer
    · exact winter

def newYorkClock : WallClock newYork where
  reading _ := newYorkReading
  instants _ := newYorkInstants
  fromLocal_eq _ _ := rfl
  has_iff _ wall instant := by
    rw [newYorkInstants_has]
    simp [newYorkShows, InRange]
  ordered _ wall earlier later twice := by
    unfold newYorkInstants at twice
    split at twice <;> cases twice
    omega

theorem halfPastOnes_inRange : ∀ t ∈ {t | t ∈ halfPastOnes}, InRange t := by
  have dates : ∀ t ∈ halfPastOnes, minUtcMs ≤ t ∧ t ≤ maxUtcMs := by decide
  exact dates

theorem newYork_iterates (expression zone : String) (start : Int) :
    Iterates newYork expression zone {t | t ∈ halfPastOnes} start where
  ascending := by
    have ascending : halfPastOnes.Pairwise (· < ·) := by decide
    exact ascending.filter (start < ·)
  mem_iff t later := by simp [newYork, later]

def halfPastOne : CronExpression newYork := ⟨"0 30 1 1-2 11 * 2026", by decide +kernel, by decide⟩

def newYorkZone : RecurringJobTimeZone newYork := ⟨"America/New_York", by decide +kernel, by decide⟩

/-- From 4:00 UTC on 1 November: at 5:30 UTC, and then on the next day at 6:30 UTC. -/
theorem next_occurrence_new_york :
    halfPastOne.iterate newYorkZone 5 1793505600000 = [1793511000000, 1793601000000] ∧
      newYorkClock.Enumerates newYorkZone.name {t | t ∈ halfPastOnes} 1793505600000 5
        [1793511000000, 1793601000000] := by
  have run : halfPastOne.iterate newYorkZone 5 1793505600000 = [1793511000000, 1793601000000] := by
    decide +kernel
  refine ⟨run, ?_⟩
  rw [← run]
  exact ((next_occurrence halfPastOne newYorkZone newYorkClock _ halfPastOnes_inRange 1793505600000
    fun start _ _ => newYork_iterates _ _ start).1 (by decide)).2.2 5

/-- The least `i64` is before the first date. -/
theorem before_the_dates :
    halfPastOne.nextAfterUnixMs (-9223372036854775808) newYorkZone = .error .clockOutOfRange ∧
      ∃ t ∈ newYorkClock.fires newYorkZone.name {t | t ∈ halfPastOnes},
        -9223372036854775808 < t := by
  refine ⟨by decide +kernel, 1793511000000, ⟨List.mem_cons_self, ?_⟩, by decide⟩
  have inDates : InRange 1793511000000 := by unfold InRange; decide
  exact (newYorkClock.isEarliestLocalOccurrence_iff inDates).1 (by decide +kernel)

end Rustee.Cron
