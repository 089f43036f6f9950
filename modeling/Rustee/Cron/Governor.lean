/-
# Rustee.Cron.Governor -- many fire passes on one rate window

`fire_due_inner` reads the database clock once, when its transaction begins, and calls
`consume_window` later, once for each due schedule under the policy.  Any number of passes
run at once.  The upsert of one waits while another pass holds the row, and a pass keeps
the row lock until its transaction ends; a pass that fails takes its consumptions back.

The stored row knows one window.  Passes that began on either side of a window boundary
reach it in any order, and the upsert starts again from one whenever its own window is not
the stored one (`window_overrun`: a pass that is late by one boundary is let into a window
that is already full).  What does hold is the bound for consumptions that reach the row in
window order:

* `live_le_capacity`: a window is never granted more often than its capacity by passes
  that were not taken back;
* `allowed_le_capacity`: nor at all, when no pass is taken back after a grant.
-/
import Rustee.Foundation.Machine
import Rustee.Foundation.LockTable
import Rustee.Cron.RateLimit
import Mathlib.Algebra.Order.Ring.Int

namespace Rustee.Cron.Governor

open Rustee.Foundation

set_option autoImplicit false

/-! ## Passes over the shared row -/

/-- Where a `fire_due` pass is: its transaction has read the clock and been granted some
units, or has ended. -/
inductive PassStatus where
  | idle
  | running (now : Int) (granted : Nat)
  | committed
  | rolledBack
  deriving DecidableEq, Repr

structure State where
  /-- The database clock, in milliseconds. -/
  clock : Int
  windows : LockTable RecurringJobRateLimitKey RateWindowRow Nat
  pass : Nat → PassStatus

inductive Input where
  /-- The database clock moves on. -/
  | tick (ms : Nat)
  /-- The pass begins its transaction and reads the clock. -/
  | begin (pass : Nat)
  /-- The pass calls `consume_window` for its next schedule under the policy. -/
  | consume (pass : Nat)
  | commit (pass : Nat)
  /-- The pass fails and its transaction is rolled back. -/
  | rollback (pass : Nat)
  deriving DecidableEq, Repr

inductive Output where
  | done
  /-- What `consume_window` returned to a pass whose clock reading was `now`. -/
  | consumed (now : Int) (outcome : ConsumeOutcome)
  | failed (error : RecurringJobError)
  deriving DecidableEq, Repr

def State.setPass (s : State) (pass : Nat) (status : PassStatus) : State :=
  { s with pass := Function.update s.pass pass status }

/-- One step of the passes that share `limit`. -/
def step (limit : RecurringJobRateLimit) (s : State) : Input → Option (State × Output)
  | .tick ms => some ({ s with clock := s.clock + ms }, .done)
  | .begin pass =>
    match s.pass pass with
    | .idle => some (s.setPass pass (.running s.clock 0), .done)
    | _ => none
  | .consume pass =>
    match s.pass pass with
    | .running now granted =>
      -- the upsert waits while another pass holds the row
      if s.windows.available pass limit.key then
        match consumeWindow (s.windows.view pass limit.key) limit now with
        | .ok (outcome, row) =>
          let granted := if outcome = .allowed then granted + 1 else granted
          some ({ s.setPass pass (.running now granted) with
              windows := s.windows.write pass limit.key (some row) },
            .consumed now outcome)
        | .error error =>
          some ({ s.setPass pass .rolledBack with windows := s.windows.rollback pass },
            .failed error)
      else none
    | _ => none
  | .commit pass =>
    match s.pass pass with
    | .running _ _ =>
      some ({ s.setPass pass .committed with windows := s.windows.commit pass }, .done)
    | _ => none
  | .rollback pass =>
    match s.pass pass with
    | .running _ _ =>
      some ({ s.setPass pass .rolledBack with windows := s.windows.rollback pass }, .done)
    | _ => none

/-- Any number of passes over a fresh window table, from any clock value. -/
def governor (limit : RecurringJobRateLimit) : Machine State Input Output where
  initial s := s.windows = .empty ∧ s.pass = fun _ => .idle
  step := step limit

/-! ## Grants -/

/-- The pass whose consumption this entry granted in window `k`. -/
def grantIn (limit : RecurringJobRateLimit) (k : Int) : Input × Output → Option Nat
  | (.consume pass, .consumed now .allowed) =>
    if k * limit.windowMs ≤ now ∧ now < (k + 1) * limit.windowMs then some pass else none
  | _ => none

/-- How many `Allowed` results had a clock reading in `[k * window, (k + 1) * window)`. -/
def allowedIn (limit : RecurringJobRateLimit) (k : Int) (trace : List (Input × Output)) : Nat :=
  trace.countP fun entry => (grantIn limit k entry).isSome

/-- The same, for the passes whose status meets `keep`. -/
def grantsOf (limit : RecurringJobRateLimit) (keep : PassStatus → Bool) (s : State)
    (trace : List (Input × Output)) (k : Int) : Nat :=
  trace.countP fun entry => (grantIn limit k entry).any fun pass => keep (s.pass pass)

def PassStatus.live : PassStatus → Bool
  | .rolledBack => false
  | _ => true

def PassStatus.isCommitted : PassStatus → Bool
  | .committed => true
  | _ => false

/-- The consumption reaches the row before the row has moved past its window. -/
def inWindowOrder (limit : RecurringJobRateLimit) (s : State) : Input → Bool
  | .consume pass =>
    match s.pass pass, s.windows.latest limit.key with
    | .running now _, some row => row.windowStartedAtMs ≤ windowIndex limit now * limit.windowMs
    | _, _ => true
  | _ => true

/-- Besides, no pass is rolled back after it was granted a unit. -/
def keepsGrants (limit : RecurringJobRateLimit) (s : State) (input : Input) : Bool :=
  inWindowOrder limit s input &&
    match input with
    | .rollback pass =>
      match s.pass pass with
      | .running _ granted => granted = 0
      | _ => true
    | _ => true

/-! ## What a step can do -/

/-- The effects of `step`, one constructor for each way an input can go. -/
inductive Effect (limit : RecurringJobRateLimit) (s : State) : Input → State → Output → Prop
  | tick (ms : Nat) : Effect limit s (.tick ms) { s with clock := s.clock + ms } .done
  | begin {pass : Nat} (idle : s.pass pass = .idle) :
      Effect limit s (.begin pass) (s.setPass pass (.running s.clock 0)) .done
  | granted {pass granted : Nat} {now : Int} {row : RateWindowRow}
      (running : s.pass pass = .running now granted)
      (free : s.windows.available pass limit.key = true)
      (ok : consumeWindow (s.windows.latest limit.key) limit now = .ok (.allowed, row)) :
      Effect limit s (.consume pass)
        { s.setPass pass (.running now (granted + 1)) with
          windows := s.windows.write pass limit.key (some row) }
        (.consumed now .allowed)
  | deferred {pass granted : Nat} {now next : Int} {row : RateWindowRow}
      (running : s.pass pass = .running now granted)
      (free : s.windows.available pass limit.key = true)
      (ok : consumeWindow (s.windows.latest limit.key) limit now = .ok (.deferred next, row)) :
      Effect limit s (.consume pass)
        { s.setPass pass (.running now granted) with
          windows := s.windows.write pass limit.key (some row) }
        (.consumed now (.deferred next))
  | failed {pass granted : Nat} {now : Int} {error : RecurringJobError}
      (running : s.pass pass = .running now granted)
      (free : s.windows.available pass limit.key = true)
      (err : consumeWindow (s.windows.latest limit.key) limit now = .error error) :
      Effect limit s (.consume pass)
        { s.setPass pass .rolledBack with windows := s.windows.rollback pass } (.failed error)
  | commit {pass granted : Nat} {now : Int} (running : s.pass pass = .running now granted) :
      Effect limit s (.commit pass)
        { s.setPass pass .committed with windows := s.windows.commit pass } .done
  | rollback {pass granted : Nat} {now : Int} (running : s.pass pass = .running now granted) :
      Effect limit s (.rollback pass)
        { s.setPass pass .rolledBack with windows := s.windows.rollback pass } .done

variable {limit : RecurringJobRateLimit} {s after : State} {trace : List (Input × Output)}

theorem step_effect {input : Input} {output : Output}
    (stepped : step limit s input = some (after, output)) :
    Effect limit s input after output := by
  cases input with
  | tick ms =>
    simp only [step, Option.some.injEq, Prod.mk.injEq] at stepped
    obtain ⟨rfl, rfl⟩ := stepped
    exact .tick ms
  | begin pass =>
    simp only [step] at stepped
    split at stepped
    · rename_i idle
      cases stepped
      exact .begin idle
    · cases stepped
  | consume pass =>
    simp only [step] at stepped
    split at stepped
    · rename_i now granted running
      split at stepped
      · rename_i free
        rw [LockTable.view_eq_latest free] at stepped
        split at stepped
        · rename_i outcome row ok
          cases stepped
          cases outcome with
          | allowed => exact .granted running free ok
          | deferred next => exact .deferred running free ok
        · rename_i error err
          cases stepped
          exact .failed running free err
      · cases stepped
    · cases stepped
  | commit pass =>
    simp only [step] at stepped
    split at stepped
    · rename_i running
      cases stepped
      exact .commit running
    · cases stepped
  | rollback pass =>
    simp only [step] at stepped
    split at stepped
    · rename_i running
      cases stepped
      exact .rollback running
    · cases stepped

/-! ## Counting grants -/

theorem grantIn_granted (limit : RecurringJobRateLimit) (k : Int) (pass : Nat) (now : Int) :
    grantIn limit k (.consume pass, .consumed now .allowed) =
      if windowIndex limit now = k then some pass else none := by
  simp only [grantIn, windowIndex_eq_iff]

theorem grantsOf_append (limit : RecurringJobRateLimit) (keep : PassStatus → Bool) (s : State)
    (trace : List (Input × Output)) (entry : Input × Output) (k : Int) :
    grantsOf limit keep s (trace ++ [entry]) k = grantsOf limit keep s trace k +
      if (grantIn limit k entry).any (fun pass => keep (s.pass pass)) = true then 1 else 0 := by
  simp only [grantsOf, List.countP_append, List.countP_singleton]

theorem grantsOf_congr {keep keep' : PassStatus → Bool} {s' : State} {k : Int}
    (same : ∀ entry ∈ trace, ∀ pass, grantIn limit k entry = some pass →
      keep (s.pass pass) = keep' (s'.pass pass)) :
    grantsOf limit keep s trace k = grantsOf limit keep' s' trace k := by
  apply List.countP_congr
  intro entry member
  cases grant : grantIn limit k entry with
  | none => simp
  | some pass => simp [same entry member pass grant]

/-- The row counts the grants of one window and no later window has any; no window has more
than the capacity. -/
def Tallies (limit : RecurringJobRateLimit) (row : Option RateWindowRow) (count : Int → Nat) :
    Prop :=
  match row with
  | none => ∀ k, count k = 0
  | some row => row.Of limit ∧ ∃ j, row.windowStartedAtMs = j * limit.windowMs ∧
      row.consumed = count j ∧ (∀ k, j < k → count k = 0) ∧ ∀ k, (count k : Int) ≤ limit.capacityI32

theorem Tallies.le_capacity {row : Option RateWindowRow} {count : Int → Nat}
    (tallies : Tallies limit row count) (k : Int) :
    count k ≤ limit.capacity := by
  cases row with
  | none => rw [tallies k]; exact Nat.zero_le _
  | some row =>
    obtain ⟨-, -, -, -, -, bounded⟩ := tallies
    exact Int.ofNat_le.1 (bounded k)

/-- A grant in window order is counted. -/
theorem Tallies.grant {row : Option RateWindowRow} {count counted : Int → Nat} {now : Int}
    {after : RateWindowRow} (tallies : Tallies limit row count)
    (ok : consumeWindow row limit now = .ok (.allowed, after))
    (inOrder : ∀ r, row = some r → r.windowStartedAtMs ≤ windowIndex limit now * limit.windowMs)
    (here : counted (windowIndex limit now) = count (windowIndex limit now) + 1)
    (elsewhere : ∀ k, k ≠ windowIndex limit now → counted k = count k) :
    Tallies limit (some after) counted := by
  obtain ⟨policy, started, consumedAfter⟩ := consumeWindow_allowed ok
  have capacityPos := limit.capacityI32_pos
  cases row with
  | none =>
    have zero := tallies
    refine ⟨policy, windowIndex limit now, started, ?_, ?_, ?_⟩
    · rw [here, zero, consumedAfter]; rfl
    · intro k later
      rw [elsewhere k (by omega), zero]
    · intro k
      by_cases same : k = windowIndex limit now
      · rw [same, here, zero]; omega
      · rw [elsewhere k same, zero]; omega
  | some row =>
    obtain ⟨-, j, storedAt, consumed, noneLater, bounded⟩ := tallies
    obtain ⟨rowPolicy, sameWindow, otherWindow⟩ := consumedAfter
    have order : j ≤ windowIndex limit now := by
      have := inOrder row rfl
      rw [storedAt] at this
      exact le_of_mul_le_mul_right this limit.windowMs_pos
    -- the row's own window has room, and a window the row has not reached has no grants
    have counts : after.consumed = count (windowIndex limit now) + 1 ∧
        after.consumed ≤ limit.capacityI32 := by
      rcases Int.lt_or_eq_of_le order with earlier | rfl
      · have apart : row.windowStartedAtMs ≠ after.windowStartedAtMs := by
          rw [storedAt, started]
          have := mul_lt_mul_of_pos_right earlier limit.windowMs_pos
          omega
        rw [otherWindow apart, noneLater _ earlier]
        exact ⟨rfl, by omega⟩
      · obtain ⟨room, next⟩ := sameWindow (storedAt.trans started.symm)
        have := rowPolicy.1
        omega
    refine ⟨policy, windowIndex limit now, started, ?_, ?_, ?_⟩
    · rw [here]; push_cast; exact counts.1
    · intro k later
      rw [elsewhere k (by omega), noneLater k (by omega)]
    · intro k
      by_cases same : k = windowIndex limit now
      · rw [same, here]; push_cast; omega
      · rw [elsewhere k same]; exact bounded k

/-! ## The invariant of a run -/

/-- The committed row counts what committed passes were granted, and the newest version
counts what all passes were granted that have not been taken back. -/
structure Balanced (limit : RecurringJobRateLimit) (s : State) (trace : List (Input × Output)) :
    Prop where
  committed : Tallies limit (s.windows.rows limit.key)
    (grantsOf limit PassStatus.isCommitted s trace)
  live : Tallies limit (s.windows.latest limit.key) (grantsOf limit PassStatus.live s trace)
  /-- A pass with a grant keeps the row until it ends. -/
  granted : ∀ entry ∈ trace, ∀ k pass, grantIn limit k entry = some pass →
    s.pass pass ≠ .idle ∧
      ∀ now n, s.pass pass = .running now n → s.windows.holder limit.key = some pass
  owner : ∀ pass, s.windows.holder limit.key = some pass → ∃ now n, s.pass pass = .running now n

theorem balanced_initial (initial : (governor limit).initial s) : Balanced limit s [] := by
  obtain ⟨windows, -⟩ := initial
  constructor
  · simp [windows, LockTable.empty, Tallies, grantsOf]
  · simp [windows, LockTable.empty, LockTable.latest, Tallies, grantsOf]
  · simp
  · simp [windows, LockTable.empty, LockTable.holder]

/-- An entry that grants nothing changes the counts only through the pass statuses. -/
theorem grantsOf_silent (keep keep' : PassStatus → Bool) (s : State) {entry : Input × Output}
    (silent : ∀ k, grantIn limit k entry = none)
    (same : ∀ old ∈ trace, ∀ k pass, grantIn limit k old = some pass →
      keep (after.pass pass) = keep' (s.pass pass)) :
    grantsOf limit keep after (trace ++ [entry]) = grantsOf limit keep' s trace := by
  funext k
  rw [grantsOf_append, silent k]
  simp only [Option.any_none, Bool.false_eq_true, if_false, Nat.add_zero]
  exact grantsOf_congr fun old member pass granted => same old member k pass granted

namespace Balanced

variable {limit : RecurringJobRateLimit} {s after : State} {trace : List (Input × Output)}
variable {entry : Input × Output} {pass n : Nat} {now : Int} {status : PassStatus}

/-- While a pass holds the row, every other pass with a grant has ended. -/
theorem others_ended (balanced : Balanced limit s trace)
    (mine : s.windows.holder limit.key = some pass) {old : Input × Output} (member : old ∈ trace)
    {k : Int} {p : Nat} (granted : grantIn limit k old = some p) (apart : p ≠ pass) :
    s.pass p = .committed ∨ s.pass p = .rolledBack := by
  obtain ⟨notIdle, holds⟩ := balanced.granted old member k p granted
  cases at_p : s.pass p with
  | idle => exact absurd at_p notIdle
  | running now n =>
    rw [holds now n at_p] at mine
    exact absurd (Option.some.inj mine) apart
  | committed => exact .inl rfl
  | rolledBack => exact .inr rfl

/-- How the counts change when the pass that holds the row ends. -/
theorem count_holder (balanced : Balanced limit s trace) (running : s.pass pass = .running now n)
    (mine : s.windows.holder limit.key = some pass) (silent : ∀ k, grantIn limit k entry = none)
    (status : PassStatus) (statuses : after.pass = Function.update s.pass pass status)
    (keep keep' : PassStatus → Bool)
    (ends : keep status = keep' (.running now n)) (committed : keep .committed = keep' .committed)
    (rolledBack : keep .rolledBack = keep' .rolledBack) :
    grantsOf limit keep after (trace ++ [entry]) = grantsOf limit keep' s trace := by
  refine grantsOf_silent keep keep' s silent fun old member k p granted => ?_
  rw [statuses]
  by_cases same : p = pass
  · subst same
    rw [Function.update_self, running, ends]
  · rw [Function.update_of_ne same]
    rcases balanced.others_ended mine member granted same with at_p | at_p
    · rw [at_p, committed]
    · rw [at_p, rolledBack]

/-- A pass that does not hold the row has no grants, so its end leaves the counts alone. -/
theorem count_other (balanced : Balanced limit s trace) (running : s.pass pass = .running now n)
    (other : s.windows.holder limit.key ≠ some pass) (silent : ∀ k, grantIn limit k entry = none)
    (statuses : after.pass = Function.update s.pass pass status) (keep : PassStatus → Bool) :
    grantsOf limit keep after (trace ++ [entry]) = grantsOf limit keep s trace := by
  refine grantsOf_silent keep keep s silent fun old member k p granted => ?_
  have apart : p ≠ pass := by
    rintro rfl
    exact other ((balanced.granted old member k p granted).2 now n running)
  rw [statuses, Function.update_of_ne apart]

/-- What a pass leaves of the lock discipline when it ends and lets go of the row. -/
theorem released (balanced : Balanced limit s trace) (silent : ∀ k, grantIn limit k entry = none)
    (statuses : after.pass = Function.update s.pass pass status)
    (ended : status = .committed ∨ status = .rolledBack)
    (holder : after.windows.holder limit.key =
      if s.windows.holder limit.key = some pass then none else s.windows.holder limit.key)
    (committed : Tallies limit (after.windows.rows limit.key)
      (grantsOf limit PassStatus.isCommitted after (trace ++ [entry])))
    (live : Tallies limit (after.windows.latest limit.key)
      (grantsOf limit PassStatus.live after (trace ++ [entry]))) :
    Balanced limit after (trace ++ [entry]) := by
  refine ⟨committed, live, ?_, ?_⟩
  · intro old member k p grant
    rcases List.mem_append.1 member with member | member
    · obtain ⟨notIdle, holds⟩ := balanced.granted old member k p grant
      rw [statuses]
      by_cases same : p = pass
      · subst same
        rcases ended with rfl | rfl <;> simp
      · rw [Function.update_of_ne same]
        refine ⟨notIdle, fun now n at_p => ?_⟩
        have held := holds now n at_p
        rw [holder, if_neg]
        · exact held
        · rw [held]
          exact fun eq => same (Option.some.inj eq)
    · rw [List.mem_singleton.1 member, silent k] at grant
      cases grant
  · intro p held
    rw [holder] at held
    split at held
    · cases held
    · rename_i other
      have apart : p ≠ pass := fun eq => other (eq ▸ held)
      rw [statuses, Function.update_of_ne apart]
      exact balanced.owner p held

theorem commit (balanced : Balanced limit s trace) (running : s.pass pass = .running now n)
    (silent : ∀ k, grantIn limit k entry = none) :
    Balanced limit { s.setPass pass .committed with windows := s.windows.commit pass }
      (trace ++ [entry]) := by
  refine balanced.released silent rfl (.inl rfl) (LockTable.holder_commit ..) ?_ ?_
  · by_cases mine : s.windows.holder limit.key = some pass
    · -- what was live is now committed
      rw [LockTable.commit_rows, LockTable.view_eq_latest (LockTable.available_iff.2 (.inr mine)),
        balanced.count_holder running mine silent .committed rfl PassStatus.isCommitted
          PassStatus.live rfl rfl rfl]
      exact balanced.live
    · rw [LockTable.commit_rows, LockTable.view_eq_rows mine,
        balanced.count_other running mine silent rfl]
      exact balanced.committed
  · rw [LockTable.latest_commit]
    by_cases mine : s.windows.holder limit.key = some pass
    · rw [balanced.count_holder running mine silent .committed rfl PassStatus.live PassStatus.live rfl
        rfl rfl]
      exact balanced.live
    · rw [balanced.count_other running mine silent rfl]
      exact balanced.live

theorem rollback (balanced : Balanced limit s trace) (running : s.pass pass = .running now n)
    (silent : ∀ k, grantIn limit k entry = none) :
    Balanced limit { s.setPass pass .rolledBack with windows := s.windows.rollback pass }
      (trace ++ [entry]) := by
  refine balanced.released silent rfl (.inr rfl) (LockTable.holder_rollback ..) ?_ ?_
  · rw [LockTable.rollback_rows]
    by_cases mine : s.windows.holder limit.key = some pass
    · rw [balanced.count_holder running mine silent .rolledBack rfl PassStatus.isCommitted
        PassStatus.isCommitted rfl rfl rfl]
      exact balanced.committed
    · rw [balanced.count_other running mine silent rfl]
      exact balanced.committed
  · rw [LockTable.latest_rollback]
    by_cases mine : s.windows.holder limit.key = some pass
    · -- only what was committed stays live
      rw [if_pos mine,
        balanced.count_holder running mine silent .rolledBack rfl PassStatus.live
          PassStatus.isCommitted rfl rfl rfl]
      exact balanced.committed
    · rw [if_neg mine, balanced.count_other running mine silent rfl]
      exact balanced.live

/-- A pass that is not yet running has no grants, so it may begin. -/
theorem begin (balanced : Balanced limit s trace) (idle : s.pass pass = .idle)
    (silent : ∀ k, grantIn limit k entry = none) :
    Balanced limit (s.setPass pass (.running s.clock 0)) (trace ++ [entry]) := by
  have apart : ∀ old ∈ trace, ∀ k p, grantIn limit k old = some p → p ≠ pass := by
    rintro old member k p granted rfl
    exact (balanced.granted old member k p granted).1 idle
  have counts : ∀ keep, grantsOf limit keep (s.setPass pass (.running s.clock 0))
      (trace ++ [entry]) = grantsOf limit keep s trace := by
    intro keep
    refine grantsOf_silent keep keep s silent fun old member k p granted => ?_
    simp only [State.setPass, Function.update_of_ne (apart old member k p granted)]
  refine ⟨?_, ?_, ?_, ?_⟩
  · rw [counts]; exact balanced.committed
  · rw [counts]; exact balanced.live
  · intro old member k p granted
    rcases List.mem_append.1 member with member | member
    · simp only [State.setPass, Function.update_of_ne (apart old member k p granted)]
      exact balanced.granted old member k p granted
    · rw [List.mem_singleton.1 member, silent k] at granted
      cases granted
  · intro p held
    obtain ⟨now, n, at_p⟩ := balanced.owner p held
    have other : p ≠ pass := by
      rintro rfl
      rw [idle] at at_p
      cases at_p
    exact ⟨now, n, by simpa only [State.setPass, Function.update_of_ne other] using at_p⟩

/-- A running pass that reaches the row and leaves `row` there, with `m` grants. -/
theorem upserted (balanced : Balanced limit s trace) (running : s.pass pass = .running now n)
    (free : s.windows.available pass limit.key = true) {m : Nat} {row : RateWindowRow}
    (grantee : ∀ k p, grantIn limit k entry = some p → p = pass)
    (live : Tallies limit (some row) (grantsOf limit PassStatus.live
      { s.setPass pass (.running now m) with
        windows := s.windows.write pass limit.key (some row) } (trace ++ [entry]))) :
    Balanced limit
      { s.setPass pass (.running now m) with
        windows := s.windows.write pass limit.key (some row) } (trace ++ [entry]) := by
  have statusOf : ∀ p, p ≠ pass → (s.setPass pass (.running now m)).pass p = s.pass p :=
    fun p apart => Function.update_of_ne apart ..
  refine ⟨?_, ?_, ?_, ?_⟩
  · -- a running pass counts for nothing among the committed grants
    have counts : grantsOf limit PassStatus.isCommitted
        { s.setPass pass (.running now m) with
          windows := s.windows.write pass limit.key (some row) } (trace ++ [entry]) =
        grantsOf limit PassStatus.isCommitted s trace := by
      funext k
      rw [grantsOf_append]
      have none_new : (grantIn limit k entry).any
          (fun p => PassStatus.isCommitted ((s.setPass pass (.running now m)).pass p)) = false := by
        cases granted : grantIn limit k entry with
        | none => rfl
        | some p =>
          rw [grantee k p granted]
          simp [State.setPass, PassStatus.isCommitted]
      rw [none_new]
      simp only [Bool.false_eq_true, if_false, Nat.add_zero]
      refine grantsOf_congr fun old member p granted => ?_
      by_cases same : p = pass
      · subst same
        simp [State.setPass, running, PassStatus.isCommitted]
      · rw [statusOf p same]
    rw [counts]
    exact balanced.committed
  · simpa using live
  · intro old member k p granted
    by_cases same : p = pass
    · subst same
      simp [State.setPass]
    · rcases List.mem_append.1 member with member | member
      · obtain ⟨notIdle, holds⟩ := balanced.granted old member k p granted
        rw [show State.pass _ p = s.pass p from statusOf p same]
        refine ⟨notIdle, fun now' n' at_p => absurd (holds now' n' at_p) ?_⟩
        rcases LockTable.available_iff.1 free with unheld | mine
        · rw [unheld]; exact nofun
        · rw [mine]; exact fun eq => same (Option.some.inj eq).symm
      · rw [List.mem_singleton.1 member] at granted
        exact absurd (grantee k p granted) same
  · intro p held
    simp only [LockTable.holder_write, if_true, Option.some.injEq] at held
    subst held
    exact ⟨now, m, by simp [State.setPass]⟩

/-- **One step.** -/
theorem next {input : Input} {output : Output} (balanced : Balanced limit s trace)
    (inOrder : inWindowOrder limit s input = true) (effect : Effect limit s input after output) :
    Balanced limit after (trace ++ [(input, output)]) := by
  cases effect with
  | tick ms =>
    have counts : ∀ keep, grantsOf limit keep { s with clock := s.clock + ms }
        (trace ++ [(Input.tick ms, Output.done)]) = grantsOf limit keep s trace :=
      fun keep => grantsOf_silent keep keep s (fun _ => rfl) fun _ _ _ _ _ => rfl
    refine ⟨?_, ?_, ?_, balanced.owner⟩
    · rw [counts]; exact balanced.committed
    · rw [counts]; exact balanced.live
    · intro old member k p granted
      rcases List.mem_append.1 member with member | member
      · exact balanced.granted old member k p granted
      · rw [List.mem_singleton.1 member] at granted
        cases granted
  | begin idle => exact balanced.begin idle fun _ => rfl
  | @granted pass n now row running free ok =>
    refine balanced.upserted running free ?_ ?_
    · intro k p granted
      rw [grantIn_granted] at granted
      split at granted
      · exact (Option.some.inj granted).symm
      · cases granted
    · have old : ∀ k, grantsOf limit PassStatus.live
          { s.setPass pass (.running now (n + 1)) with
            windows := s.windows.write pass limit.key (some row) } trace k =
          grantsOf limit PassStatus.live s trace k := by
        intro k
        refine grantsOf_congr fun old _ p _ => ?_
        by_cases same : p = pass
        · subst same; simp [State.setPass, running, PassStatus.live]
        · simp [State.setPass, Function.update_of_ne same]
      refine balanced.live.grant ok (fun r stored => ?_) ?_ ?_
      · simpa [inWindowOrder, running, stored] using inOrder
      · rw [grantsOf_append, old, grantIn_granted]
        simp [State.setPass, PassStatus.live]
      · intro k other
        rw [grantsOf_append, old, grantIn_granted]
        simp [Ne.symm other]
  | @deferred pass n now next row running free ok =>
    refine balanced.upserted running free (fun k p granted => by cases granted) ?_
    rw [grantsOf_silent PassStatus.live PassStatus.live s (fun _ => rfl)]
    · rw [← (consumeWindow_deferred ok).1]
      exact balanced.live
    · intro old _ k p _
      by_cases same : p = pass
      · subst same; simp [State.setPass, running]
      · simp [State.setPass, Function.update_of_ne same]
  | failed running free err => exact balanced.rollback running fun _ => rfl
  | commit running => exact balanced.commit running fun _ => rfl
  | rollback running => exact balanced.rollback running fun _ => rfl

end Balanced

theorem run_balanced (run : (governor limit).Run (fun s _ input => inWindowOrder limit s input) s trace) :
    Balanced limit s trace :=
  run.invariant (fun _ initial => balanced_initial initial)
    fun _ _ _ _ _ _ balanced inOrder stepped => balanced.next inOrder (step_effect stepped)

/-- **The bound that holds.**  When consumptions reach the row in window order, the passes
that were not taken back were granted at most the capacity of any window. -/
theorem live_le_capacity
    (run : (governor limit).Run (fun s _ input => inWindowOrder limit s input) s trace)
    (k : Int) : grantsOf limit PassStatus.live s trace k ≤ limit.capacity :=
  (run_balanced run).live.le_capacity k

/-! ## Passes that keep their grants -/

/-- The status of a pass that keeps what it was granted: it has committed, or runs on with
the grant counted and a clock reading that is in range. -/
def PassStatus.Keeps (limit : RecurringJobRateLimit) (status : PassStatus) : Prop :=
  status = .committed ∨ ∃ now n bounds, status = .running now (n + 1) ∧
    fixedWindowBounds now limit.windowMs = .ok bounds

def Kept (limit : RecurringJobRateLimit) (s : State) (trace : List (Input × Output)) : Prop :=
  ∀ entry ∈ trace, ∀ k pass, grantIn limit k entry = some pass → (s.pass pass).Keeps limit

/-- Under a policy of its own, a consumption fails only for its clock reading. -/
theorem Balanced.error_bounds (balanced : Balanced limit s trace) {now : Int} {error : RecurringJobError}
    (err : consumeWindow (s.windows.latest limit.key) limit now = .error error) :
    ∀ bounds, fixedWindowBounds now limit.windowMs ≠ .ok bounds := by
  intro bounds ok
  have tallies := balanced.live
  unfold consumeWindow at err
  simp only [ok] at err
  cases stored : s.windows.latest limit.key with
  | none => simp [stored, upsertWindow] at err
  | some row =>
    rw [stored] at err tallies
    obtain ⟨⟨capacity, window⟩, -⟩ := tallies
    unfold upsertWindow at err
    simp only [capacity, window, true_and, ne_eq] at err
    split at err
    · cases err
    · rename_i kept
      split at kept <;> cases kept
      simp [capacity, window] at err

/-- A pass that changes status must keep its old grants and the new one. -/
theorem Kept.moved {entry : Input × Output} {pass : Nat} {status : PassStatus} (kept : Kept limit s trace)
    (statuses : after.pass = Function.update s.pass pass status)
    (old : (s.pass pass).Keeps limit → status.Keeps limit)
    (new : ∀ k p, grantIn limit k entry = some p → p = pass ∧ status.Keeps limit) :
    Kept limit after (trace ++ [entry]) := by
  intro earlier member k p granted
  rw [statuses]
  rcases List.mem_append.1 member with member | member
  · have keeps := kept earlier member k p granted
    by_cases same : p = pass
    · subst same
      rw [Function.update_self]
      exact old keeps
    · rw [Function.update_of_ne same]
      exact keeps
  · rw [List.mem_singleton.1 member] at granted
    obtain ⟨rfl, keeps⟩ := new k p granted
    rw [Function.update_self]
    exact keeps

theorem Kept.next {limit : RecurringJobRateLimit} {s after : State}
    {trace : List (Input × Output)} {input : Input} {output : Output}
    (kept : Kept limit s trace) (balanced : Balanced limit s trace)
    (admitted : keepsGrants limit s input = true) (effect : Effect limit s input after output) :
    Kept limit after (trace ++ [(input, output)]) := by
  cases effect with
  | tick ms =>
    intro entry member k p granted
    rcases List.mem_append.1 member with member | member
    · exact kept entry member k p granted
    · rw [List.mem_singleton.1 member] at granted
      cases granted
  | begin idle =>
    refine kept.moved rfl ?_ fun k p granted => by cases granted
    rw [idle]
    rintro (committed | ⟨now, n, bounds, running, -⟩)
    · cases committed
    · cases running
  | @granted pass n now row running free ok =>
    have keeps : (PassStatus.running now (n + 1)).Keeps limit := by
      unfold consumeWindow at ok
      split at ok
      · cases ok
      · rename_i started next bounds
        exact .inr ⟨now, n, (started, next), rfl, bounds⟩
    refine kept.moved rfl (fun _ => keeps) fun k p granted => ⟨?_, keeps⟩
    rw [grantIn_granted] at granted
    split at granted
    · exact (Option.some.inj granted).symm
    · cases granted
  | @deferred pass n now next row running free ok =>
    refine kept.moved rfl ?_ fun k p granted => by cases granted
    rw [running]
    exact id
  | @failed pass n now error running free err =>
    refine kept.moved rfl ?_ fun k p granted => by cases granted
    rw [running]
    rintro (committed | ⟨_, _, bounds, same, ok⟩)
    · cases committed
    · cases same
      exact absurd ok (balanced.error_bounds err bounds)
  | commit running =>
    exact kept.moved rfl (fun _ => .inl rfl) fun k p granted => by cases granted
  | @rollback pass n now running =>
    refine kept.moved rfl ?_ fun k p granted => by cases granted
    have ungranted : n = 0 := by simpa [keepsGrants, inWindowOrder, running] using admitted
    rw [running]
    rintro (committed | ⟨_, _, bounds, same, -⟩)
    · cases committed
    · cases same
      cases ungranted

theorem keepsGrants_inWindowOrder (s : State) (input : Input)
    (keeps : keepsGrants limit s input = true) : inWindowOrder limit s input = true :=
  (Bool.and_eq_true_iff.1 keeps).1

theorem run_kept (run : (governor limit).Run (fun s _ input => keepsGrants limit s input) s trace) :
    Kept limit s trace :=
  run.invariant (fun _ _ entry member => by cases member)
    fun _ _ _ _ _ reached kept admitted stepped =>
      kept.next (run_balanced (reached.mono fun s _ => keepsGrants_inWindowOrder s)) admitted
        (step_effect stepped)

/-- **The window bound.**  In every run whose consumptions reach the row in window order and
whose passes keep what they were granted, no window sees more `Allowed` results than the
capacity. -/
theorem allowed_le_capacity (limit : RecurringJobRateLimit) (s : State)
    (trace : List (Input × Output))
    (run : (governor limit).Run (fun s _ input => keepsGrants limit s input) s trace)
    (k : Int) : allowedIn limit k trace ≤ limit.capacity := by
  have same : allowedIn limit k trace = grantsOf limit PassStatus.live s trace k := by
    refine List.countP_congr fun entry member => ?_
    cases granted : grantIn limit k entry with
    | none => simp
    | some pass =>
      rcases run_kept run entry member k pass granted with committed | ⟨_, _, _, running, -⟩
      · simp [committed, PassStatus.live]
      · simp [running, PassStatus.live]
  rw [same]
  exact live_le_capacity (run.mono fun s _ => keepsGrants_inWindowOrder s) k

/-! ## Two schedules -/

/-- One unit in every ten milliseconds. -/
def onePerTen : RecurringJobRateLimit where
  key := ⟨"reports", by decide⟩
  capacity := 1
  window := .fromMillis 10
  capacity_pos := by decide
  capacity_fits := by decide
  window_whole := by decide
  window_pos := by decide
  window_fits := by decide

def fresh : State := ⟨0, .empty, fun _ => .idle⟩

theorem fresh_initial : (governor onePerTen).initial fresh := ⟨rfl, rfl⟩

/-- Two passes use up two windows one after the other, and a third is deferred. -/
def inOrderSchedule : List Input :=
  [.begin 1, .consume 1, .begin 2, .commit 1, .consume 2, .commit 2, .tick 10, .begin 3,
    .consume 3, .commit 3]

theorem allowed_le_capacity_inOrder :
    ∃ s trace, (governor onePerTen).Run (fun s _ input => keepsGrants onePerTen s input) s trace ∧
      allowedIn onePerTen 0 trace = 1 ∧ allowedIn onePerTen 1 trace = 1 ∧
      ∀ k, allowedIn onePerTen k trace ≤ onePerTen.capacity := by
  obtain ⟨s, trace, run, counts⟩ := Machine.exists_run_exec (governor onePerTen)
    (fun s _ input => keepsGrants onePerTen s input) fresh_initial inOrderSchedule
    (fun _ trace => allowedIn onePerTen 0 trace = 1 ∧ allowedIn onePerTen 1 trace = 1) (by decide)
  exact ⟨s, trace, run, counts.1, counts.2, allowed_le_capacity onePerTen s trace run⟩

/-- Passes 1 and 2 begin in window 0.  Pass 1 uses the window up; pass 3 moves the row to
window 1; then pass 2 moves it back and is let into window 0 as its second consumer. -/
def straddlingSchedule : List Input :=
  [.begin 1, .begin 2, .consume 1, .commit 1, .tick 10, .begin 3, .consume 3, .commit 3,
    .consume 2, .commit 2]

theorem window_overrun :
    ∃ s trace, (governor onePerTen).Reaches s trace ∧
      onePerTen.capacity < allowedIn onePerTen 0 trace := by
  exact Machine.exists_run_exec (governor onePerTen) (fun _ _ _ => True) fresh_initial
    straddlingSchedule (fun _ trace => onePerTen.capacity < allowedIn onePerTen 0 trace)
    (by decide)

end Rustee.Cron.Governor
