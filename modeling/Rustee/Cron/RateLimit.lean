/-
# Rustee.Cron.RateLimit -- the fixed-window policy and one consumption

`rustee-jobs-cron-sqlx/src/rate_limit.rs`: the validated policy, the arithmetic of its
windows, and `consume_window`, whose upsert either counts one unit in the row of the
policy's key or leaves the row alone.  The row remembers a single window, so a consumption
whose window differs from the stored one starts counting again from one, whichever of the
two windows is the older.
-/
import Rustee.Foundation.RustStd

namespace Rustee.Cron

open Rustee.Foundation

set_option autoImplicit false

/-- `RecurringJobError`, without the driver error that `Storage` wraps. -/
inductive RecurringJobError where
  | invalidPayload
  | storedSchedule
  | clockOutOfRange
  | registrationConflict
  | rateLimitPolicyConflict
  | outboxCollision
  | storageInvariant
  | storage
  deriving DecidableEq, Repr

def maxScheduleKeyBytes : Nat := 255

def maxRateLimitWindowMs : Nat := 31536000000

/-! ## The policy -/

/-- `RecurringJobRateLimitKey`: a bounded, non-blank text. -/
@[ext] structure RecurringJobRateLimitKey where
  value : String
  valid : isBoundedText maxScheduleKeyBytes value = true
  deriving DecidableEq

inductive RecurringJobRateLimitKeyError where
  | invalidKey
  deriving DecidableEq, Repr

def RecurringJobRateLimitKey.new (key : String) :
    Except RecurringJobRateLimitKeyError RecurringJobRateLimitKey :=
  if valid : isBoundedText maxScheduleKeyBytes key = true then .ok ⟨key, valid⟩
  else .error .invalidKey

inductive RecurringJobRateLimitError where
  | capacityTooLarge
  | invalidWindow
  deriving DecidableEq, Repr

/-- `RecurringJobRateLimit`.  The fields after the data are what `new` checks (the capacity
is a `NonZeroU32`), so a value of this type can always be stored. -/
structure RecurringJobRateLimit where
  key : RecurringJobRateLimitKey
  capacity : Nat
  window : Duration
  capacity_pos : 0 < capacity
  capacity_fits : (capacity : Int) ≤ i32Max
  window_pos : window.asMillis ≠ 0
  window_whole : window.wholeMillis = true
  window_fits : window.asMillis ≤ maxRateLimitWindowMs
  deriving DecidableEq

namespace RecurringJobRateLimit

def new (key : RecurringJobRateLimitKey) (capacity : Nat) (nonZero : 0 < capacity)
    (window : Duration) : Except RecurringJobRateLimitError RecurringJobRateLimit :=
  if fits : (capacity : Int) ≤ i32Max then
    if ok : window.asMillis ≠ 0 ∧ window.wholeMillis = true ∧
        window.asMillis ≤ maxRateLimitWindowMs then
      .ok ⟨key, capacity, window, nonZero, fits, ok.1, ok.2.1, ok.2.2⟩
    else .error .invalidWindow
  else .error .capacityTooLarge

def windowMs (limit : RecurringJobRateLimit) : Int := limit.window.asMillis

/-- `capacity_i32`. -/
def capacityI32 (limit : RecurringJobRateLimit) : Int := limit.capacity

/-- `from_stored_parts`: the policy back from its three stored columns. -/
def fromStoredParts (key : String) (capacity windowMs : Int) :
    Except RecurringJobError RecurringJobRateLimit :=
  match RecurringJobRateLimitKey.new key with
  | .error _ => .error .storedSchedule
  | .ok key =>
    if nonZero : 0 < capacity.toNat then
      if windowMs < 0 then .error .storedSchedule
      else
        match new key capacity.toNat nonZero (Duration.fromMillis windowMs.toNat) with
        | .ok limit => .ok limit
        | .error _ => .error .storedSchedule
    else .error .storedSchedule

theorem windowMs_pos (limit : RecurringJobRateLimit) : 0 < limit.windowMs := by
  have := limit.window_pos
  unfold windowMs
  omega

theorem capacityI32_pos (limit : RecurringJobRateLimit) : 0 < limit.capacityI32 := by
  have := limit.capacity_pos
  unfold capacityI32
  omega

end RecurringJobRateLimit

/-! ## Windows -/

/-- `fixed_window_bounds`: the start of the window that holds `now`, and of the next one. -/
def fixedWindowBounds (now windowMs : Int) : Except RecurringJobError (Int × Int) :=
  if windowMs ≤ 0 then .error .storedSchedule
  else
    match checkedI64 (now / windowMs * windowMs) with
    | none => .error .clockOutOfRange
    | some windowStartedAt =>
      match checkedI64 (windowStartedAt + windowMs) with
      | none => .error .clockOutOfRange
      | some nextWindowAt => .ok (windowStartedAt, nextWindowAt)

variable {now : Int}

theorem fixedWindowBounds_ok {windowMs : Int} {bounds : Int × Int}
    (ok : fixedWindowBounds now windowMs = .ok bounds) :
    0 < windowMs ∧ bounds.1 = now / windowMs * windowMs ∧ bounds.2 = bounds.1 + windowMs ∧
      bounds.1 ≤ now ∧ now < bounds.2 := by
  unfold fixedWindowBounds at ok
  split at ok
  · cases ok
  · rename_i positive
    split at ok
    · cases ok
    · rename_i started startedFits
      split at ok
      · cases ok
      · rename_i next nextFits
        cases ok
        obtain ⟨rfl, -⟩ := checkedI64_eq_some.1 startedFits
        obtain ⟨rfl, -⟩ := checkedI64_eq_some.1 nextFits
        have lower := Int.ediv_mul_le now (show windowMs ≠ 0 by omega)
        have upper := Int.lt_ediv_add_one_mul_self now (show 0 < windowMs by omega)
        refine ⟨by omega, rfl, rfl, lower, ?_⟩
        rw [Int.add_mul, Int.one_mul] at upper
        exact upper

/-! ## Consumption -/

/-- A row of `rustee_recurring_job_rate_windows` under its key; `updated_at` is written and
never read. -/
structure RateWindowRow where
  capacity : Int
  windowMs : Int
  windowStartedAtMs : Int
  consumed : Int
  deriving DecidableEq, Repr

inductive ConsumeOutcome where
  | allowed
  | deferred (nextWindowAt : Int)
  deriving DecidableEq, Repr

/-- The upsert of `consume_window`: the row it leaves and the `consumed` it returns, if its
`WHERE` let it write. -/
def upsertWindow (stored : Option RateWindowRow) (excluded : RateWindowRow) :
    RateWindowRow × Option Int :=
  match stored with
  | none => (excluded, some excluded.consumed)
  | some row =>
    if row.capacity = excluded.capacity ∧ row.windowMs = excluded.windowMs ∧
        (row.windowStartedAtMs ≠ excluded.windowStartedAtMs ∨ row.consumed < row.capacity) then
      let consumed :=
        if row.windowStartedAtMs = excluded.windowStartedAtMs then row.consumed + 1 else 1
      ({ row with windowStartedAtMs := excluded.windowStartedAtMs, consumed }, some consumed)
    else (row, none)

/-- `consume_window`, given the row its key has when the upsert holds the row lock.  The
second statement reads the same row, since the upsert locks it even when it writes nothing. -/
def consumeWindow (stored : Option RateWindowRow) (limit : RecurringJobRateLimit) (now : Int) :
    Except RecurringJobError (ConsumeOutcome × RateWindowRow) :=
  match fixedWindowBounds now limit.windowMs with
  | .error error => .error error
  | .ok (windowStartedAt, nextWindowAt) =>
    match upsertWindow stored ⟨limit.capacityI32, limit.windowMs, windowStartedAt, 1⟩ with
    | (row, some _) => .ok (.allowed, row)
    | (row, none) =>
      if row.capacity ≠ limit.capacityI32 ∨ row.windowMs ≠ limit.windowMs then
        .error .rateLimitPolicyConflict
      else .ok (.deferred nextWindowAt, row)

/-- The stored row was written under this policy. -/
def RateWindowRow.Of (row : RateWindowRow) (limit : RecurringJobRateLimit) : Prop :=
  row.capacity = limit.capacityI32 ∧ row.windowMs = limit.windowMs

/-- The index of the window that holds `now`. -/
def windowIndex (limit : RecurringJobRateLimit) (now : Int) : Int := now / limit.windowMs

theorem windowIndex_eq_iff (limit : RecurringJobRateLimit) (now k : Int) :
    windowIndex limit now = k ↔ k * limit.windowMs ≤ now ∧ now < (k + 1) * limit.windowMs := by
  have positive := limit.windowMs_pos
  unfold windowIndex
  constructor
  · rintro rfl
    exact ⟨Int.ediv_mul_le now (by omega), Int.lt_ediv_add_one_mul_self now positive⟩
  · rintro ⟨lower, upper⟩
    have le : k ≤ now / limit.windowMs := (Int.le_ediv_iff_mul_le positive).2 lower
    have lt : now / limit.windowMs < k + 1 := (Int.ediv_lt_iff_lt_mul positive).2 upper
    omega

/-- **What an allowed consumption does.**  It finds no row, or one of the same policy that
counts another window or has room; it leaves the row of its own window. -/
theorem consumeWindow_allowed {stored : Option RateWindowRow} {limit : RecurringJobRateLimit}
    {after : RateWindowRow} (ok : consumeWindow stored limit now = .ok (.allowed, after)) :
    after.Of limit ∧ after.windowStartedAtMs = windowIndex limit now * limit.windowMs ∧
      match stored with
      | none => after.consumed = 1
      | some row => row.Of limit ∧
          (row.windowStartedAtMs = after.windowStartedAtMs →
            row.consumed < row.capacity ∧ after.consumed = row.consumed + 1) ∧
          (row.windowStartedAtMs ≠ after.windowStartedAtMs → after.consumed = 1) := by
  unfold consumeWindow at ok
  split at ok
  · cases ok
  · rename_i started next bounds
    obtain ⟨-, startedEq, -⟩ := fixedWindowBounds_ok bounds
    simp only at startedEq
    cases stored with
    | none =>
      simp only [upsertWindow, Except.ok.injEq, Prod.mk.injEq, true_and] at ok
      subst ok
      exact ⟨⟨rfl, rfl⟩, startedEq, rfl⟩
    | some row =>
      simp only [upsertWindow] at ok
      split at ok
      · rename_i _ _ wrote
        split at wrote
        · rename_i room
          simp only [Prod.mk.injEq] at wrote
          simp only [Except.ok.injEq, Prod.mk.injEq, true_and] at ok
          obtain ⟨wrote, -⟩ := wrote
          subst ok wrote
          obtain ⟨sameCapacity, sameWindow, room⟩ := room
          refine ⟨⟨sameCapacity, sameWindow⟩, startedEq, ⟨sameCapacity, sameWindow⟩, ?_, ?_⟩
          · intro same
            simp only at same ⊢
            exact ⟨room.resolve_left (fun ne => ne same), if_pos same⟩
          · intro ne
            exact if_neg ne
        · cases wrote
      · split at ok <;> cases ok

/-- **What a deferred consumption does.**  It leaves the full row of its own window as it
found it, and names the instant at which the next window starts. -/
theorem consumeWindow_deferred {stored : Option RateWindowRow} {limit : RecurringJobRateLimit}
    {nextWindowAt : Int} {after : RateWindowRow}
    (ok : consumeWindow stored limit now = .ok (.deferred nextWindowAt, after)) :
    stored = some after ∧ after.Of limit ∧ after.capacity ≤ after.consumed ∧
      after.windowStartedAtMs = windowIndex limit now * limit.windowMs ∧
      nextWindowAt = after.windowStartedAtMs + limit.windowMs ∧ now < nextWindowAt := by
  unfold consumeWindow at ok
  split at ok
  · cases ok
  · rename_i started next bounds
    obtain ⟨-, startedEq, nextEq, -, later⟩ := fixedWindowBounds_ok bounds
    simp only at startedEq nextEq later
    cases stored with
    | none => simp [upsertWindow] at ok
    | some row =>
      simp only [upsertWindow] at ok
      split at ok
      · cases ok
      · rename_i _ kept
        split at kept
        · cases kept
        · rename_i full
          simp only [Prod.mk.injEq, and_true] at kept
          subst kept
          split at ok
          · cases ok
          · rename_i policy
            simp only [Except.ok.injEq, Prod.mk.injEq, ConsumeOutcome.deferred.injEq] at ok
            obtain ⟨rfl, rfl⟩ := ok
            have capacityEq : row.capacity = limit.capacityI32 := by
              by_contra ne; exact policy (.inl ne)
            have windowEq : row.windowMs = limit.windowMs := by
              by_contra ne; exact policy (.inr ne)
            have sameWindow : row.windowStartedAtMs = started := by
              by_contra ne; exact full ⟨capacityEq, windowEq, .inl ne⟩
            have noRoom : row.capacity ≤ row.consumed := by
              by_contra lt; exact full ⟨capacityEq, windowEq, .inr (by omega)⟩
            exact ⟨rfl, ⟨capacityEq, windowEq⟩, noRoom, sameWindow.trans startedEq,
              by rw [sameWindow]; exact nextEq, later⟩

end Rustee.Cron
