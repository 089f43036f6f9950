/-
# Rustee.RateLimit.Redis -- the fixed-window counter in Redis

`rustee-rate-limit-redis/src/lib.rs`.  One script increments the counter of a key, gives a
new counter its expiry, and returns the count and the time left.  A script is atomic but not
all-or-nothing: when `PEXPIRE` refuses a window that reaches past the last instant of the
clock, the increment before it stays.  The counter then has no expiry, no later script gives
it one, and every later check fails on its time to live (`limiter_sticks`).

Any stores and keys are checked in any order; `storageKey_injective` keeps their counters
apart.  In a run whose checks find `Room`, every check decides, and the decisions of one
counter count down from the limit (`fixed_window`).

A counter is recognised in a run by the instant at which it expires, which is written beside
each decision.  An expired counter stays in the model until a check replaces it: Redis does
not show it, and when it takes it away makes no difference.
-/
import Rustee.Foundation.Machine
import Rustee.Foundation.Decimal
import Rustee.RateLimit.Policy
import Mathlib.Data.Int.Order.Basic
import Mathlib.Order.Nat
import Mathlib.Algebra.Group.Int.Defs

namespace Rustee.RateLimit

open Rustee.Foundation

set_option autoImplicit false

/-! ## Storage keys -/

def maxKeyNamespaceBytes : Nat := 128

/-- `byte.is_ascii_alphanumeric() || matches!(byte, b':' | b'_' | b'-' | b'.')`. -/
def isNamespaceByte (byte : UInt8) : Bool :=
  (48 ≤ byte && byte ≤ 57) || (65 ≤ byte && byte ≤ 90) || (97 ≤ byte && byte ≤ 122) ||
    byte == 58 || byte == 95 || byte == 45 || byte == 46

/-- `is_valid_key_namespace`. -/
def isValidKeyNamespace (namespace_ : String) : Bool :=
  !namespace_.isEmpty && decide (byteLen namespace_ ≤ maxKeyNamespaceBytes) &&
    (utf8 namespace_).all isNamespaceByte

/-- `RedisFixedWindowStore`, without its connection. -/
structure RedisFixedWindowStore where
  namespace_ : String
  valid : isValidKeyNamespace namespace_ = true
  deriving DecidableEq

/-- `storage_key`. -/
def storageKey (store : RedisFixedWindowStore) (key : RateLimitKey) : String :=
  "rustee:rate-limit:v1" ++ ":" ++ lengthDelimited store.namespace_ ++ ":" ++
    lengthDelimited key.value

/-- The counter of a store's key. -/
structure Slot where
  store : RedisFixedWindowStore
  key : RateLimitKey
  deriving DecidableEq

def Slot.storageKey (slot : Slot) : String := RateLimit.storageKey slot.store slot.key

theorem storageKey_eq (store : RedisFixedWindowStore) (key : RateLimitKey) :
    storageKey store key = "rustee:rate-limit:v1" ++ delimited (store.namespace_, key.value, "") :=
  String.append_empty.symm.trans (append_delimited _ _ _ "")

theorem storageKey_injective : Function.Injective Slot.storageKey := by
  rintro ⟨⟨_, _⟩, ⟨_, _⟩⟩ ⟨⟨_, _⟩, ⟨_, _⟩⟩ same
  simp only [Slot.storageKey, storageKey_eq, String.append_right_inj] at same
  cases delimited_injective same
  rfl

/-! ## The script -/

inductive RedisError where
  /-- `INCR` refuses to leave the `i64` range. -/
  | incrementOverflow
  /-- `PEXPIRE` refuses an instant past the `i64` range. -/
  | invalidExpireTime
  /-- `invalid_script_reply`, and a reply that does not convert. -/
  | unexpectedReturnType
  deriving DecidableEq, Repr

structure Counter where
  count : Int
  expireAt : Option Int
  deriving DecidableEq, Repr

/-- What Redis shows of a stored counter: it is gone once its instant has passed. -/
def live (now : Int) (stored : Option Counter) : Option Counter :=
  stored.filter fun counter => !counter.expireAt.any fun instant => instant < now

def incr (counter : Option Counter) : Except RedisError Counter :=
  match counter with
  | none => .ok ⟨1, none⟩
  | some counter =>
    if i64Max ≤ counter.count then .error .incrementOverflow
    else .ok { counter with count := counter.count + 1 }

/-- `PEXPIRE` of a positive number of milliseconds. -/
def pexpire (now : Int) (counter : Counter) (millis : Int) : Except RedisError Counter :=
  if i64Max - now < millis then .error .invalidExpireTime
  else .ok { counter with expireAt := some (now + millis) }

def pttl (now : Int) (counter : Counter) : Int :=
  match counter.expireAt with
  | none => -1
  | some instant => max (instant - now) 0

/-- `FIXED_WINDOW_SCRIPT`: the counter it leaves, and the count and time to live it returns. -/
def fixedWindowScript (now : Int) (stored : Option Counter) (windowMillis : Int) :
    Option Counter × Except RedisError (Int × Int) :=
  match incr (live now stored) with
  | .error error => (stored, .error error)
  | .ok counter =>
    if counter.count = 1 then
      match pexpire now counter windowMillis with
      -- what the script wrote before it failed stays
      | .error error => (some counter, .error error)
      | .ok counter => (some counter, .ok (counter.count, pttl now counter))
    else (some counter, .ok (counter.count, pttl now counter))

/-- The largest integer that is sure to come back from a Lua number. -/
def luaMax : Int := i64Max - 512

/-- How an integer comes back from a script.  Lua numbers are doubles: they carry integers of
53 bits exactly, and larger ones rounded. -/
structure LuaNumbers where
  carry : Int → Int
  exact_ : ∀ n, -2 ^ 53 ≤ n → n ≤ 2 ^ 53 → carry n = n
  rounded : ∀ n, 2 ^ 53 < n → n ≤ luaMax → 2 ^ 53 ≤ carry n ∧ carry n ≤ i64Max

/-- `reset_after`. -/
def resetAfter (ttlMillis : Int) : Except RedisError Duration :=
  if ttlMillis < 0 then .error .unexpectedReturnType else .ok (.fromMillis ttlMillis.toNat)

/-- `u32::try_from(count).unwrap_or(u32::MAX)`. -/
def clampU32 (count : Nat) : Nat := min count (2 ^ 32 - 1)

/-- What `check` makes of the reply, a `(u64, i64)`. -/
def decision (policy : FixedWindow) (count ttl : Int) : Except RedisError RateLimitDecision := do
  if count < 0 then throw .unexpectedReturnType
  let resetAfter ← resetAfter ttl
  if count.toNat ≤ policy.limit then
    return .allow policy (policy.limit - clampU32 count.toNat) resetAfter
  else return .deny policy resetAfter

/-- `RedisFixedWindowStore::check`, on the counter under its storage key. -/
def check (lua : LuaNumbers) (policy : FixedWindow) (now : Int) (stored : Option Counter) :
    Option Counter × Except RedisError RateLimitDecision :=
  match fixedWindowScript now stored policy.windowMillis with
  | (after, .error error) => (after, .error error)
  | (after, .ok (count, ttl)) => (after, decision policy (lua.carry count) (lua.carry ttl))

/-! ## The machine -/

structure State where
  /-- The clock of Redis, in milliseconds. -/
  now : Int
  counters : String → Option Counter

inductive Input where
  | tick (ms : Nat)
  | check (slot : Slot)
  deriving DecidableEq

inductive Output where
  | done
  /-- What a check answered, and when the counter it counted in expires. -/
  | checked (expireAt : Option Int) (result : Except RedisError RateLimitDecision)
  deriving DecidableEq

def State.counter (s : State) (slot : Slot) : Option Counter := s.counters slot.storageKey

def step (lua : LuaNumbers) (policy : Slot → FixedWindow) (s : State) :
    Input → Option (State × Output)
  | .tick ms => some ({ s with now := s.now + ms }, .done)
  | .check slot =>
    let (after, result) := check lua (policy slot) s.now (s.counter slot)
    some ({ s with counters := Function.update s.counters slot.storageKey after },
      .checked (after.bind Counter.expireAt) result)

variable {lua : LuaNumbers} {policy : Slot → FixedWindow} {slot : Slot}

theorem step_check {s : State} {counter : Counter} {result : Except RedisError RateLimitDecision}
    (checked : check lua (policy slot) s.now (s.counter slot) = (some counter, result)) :
    step lua policy s (.check slot) =
      some ({ s with counters := Function.update s.counters slot.storageKey (some counter) },
        .checked counter.expireAt result) := by
  simp only [step, checked]
  rfl

/-- Checks of any keys, each under its own policy, from any instant on. -/
def limiter (lua : LuaNumbers) (policy : Slot → FixedWindow) : Machine State Input Output where
  initial s := s.counters = fun _ => none
  step := step lua policy

/-- A check finds room: a new counter's window ends within the clock's range and is a time to
live that Lua carries, and an old counter can be incremented. -/
def RoomFor (policy : FixedWindow) (now : Int) : Option Counter → Prop
  | none => now + policy.windowMillis ≤ i64Max ∧ policy.windowMillis ≤ luaMax
  | some counter => counter.count < luaMax

def Room (policy : Slot → FixedWindow) (s : State) (_ : List (Input × Output)) : Input → Prop
  | .tick _ => True
  | .check slot => RoomFor (policy slot) s.now (live s.now (s.counter slot))

instance (policy : FixedWindow) (now : Int) : ∀ counter, Decidable (RoomFor policy now counter)
  | none => inferInstanceAs
      (Decidable (now + policy.windowMillis ≤ i64Max ∧ policy.windowMillis ≤ luaMax))
  | some counter => inferInstanceAs (Decidable (counter.count < luaMax))

instance (policy : Slot → FixedWindow) (s : State) (trace : List (Input × Output)) :
    ∀ input, Decidable (Room policy s trace input)
  | .tick _ => inferInstanceAs (Decidable True)
  | .check slot =>
    inferInstanceAs (Decidable (RoomFor (policy slot) s.now (live s.now (s.counter slot))))

/-- The decisions that were counted in the slot's counter with this expiry, oldest first. -/
def decisionsIn (slot : Slot) (expireAt : Int) (trace : List (Input × Output)) :
    List RateLimitDecision :=
  trace.filterMap fun entry =>
    match entry with
    | (.check other, .checked (some instant) (.ok decision)) =>
      if other = slot ∧ instant = expireAt then some decision else none
    | _ => none

/-! ## What a check does -/

section

variable {policy : FixedWindow} {now : Int} {stored : Option Counter}

/-- The `n`-th decision of a window. -/
structure Numbered (policy : FixedWindow) (n : Nat) (decision : RateLimitDecision) : Prop where
  remaining : decision.remaining = policy.limit - n
  allowed : decision.allowed = true ↔ n ≤ policy.limit

/-- A count and a time to live that Lua carries make the decision of that number. -/
theorem decision_ok (lua : LuaNumbers) (policy : FixedWindow) (count : Nat) (ttl : Int)
    (fits : (count : Int) ≤ luaMax) (ttlPos : 0 ≤ ttl) (ttlFits : ttl ≤ luaMax) :
    ∃ made, decision policy (lua.carry count) (lua.carry ttl) = .ok made ∧
      Numbered policy count made := by
  have limit := policy.limit_fits
  have carried : ∀ n : Int, 0 ≤ n → n ≤ luaMax →
      0 ≤ lua.carry n ∧ (n ≤ 2 ^ 53 → lua.carry n = n) ∧ (2 ^ 53 < n → 2 ^ 53 ≤ lua.carry n) := by
    intro n positive small
    by_cases exact_ : n ≤ 2 ^ 53
    · have same := lua.exact_ n (by omega) exact_
      exact ⟨by omega, fun _ => same, by omega⟩
    · have rounded := lua.rounded n (by omega) small
      exact ⟨by omega, by omega, fun _ => rounded.1⟩
  obtain ⟨countPos, countExact, countLarge⟩ := carried count (by omega) fits
  obtain ⟨ttlPos, -, -⟩ := carried ttl ttlPos ttlFits
  have reset : resetAfter (lua.carry ttl) = .ok (.fromMillis (lua.carry ttl).toNat) := by
    rw [resetAfter, if_neg (by omega)]
  have notNegative : ¬lua.carry count < 0 := by omega
  have admitted : (lua.carry count).toNat ≤ policy.limit ↔ count ≤ policy.limit := by
    by_cases exact_ : (count : Int) ≤ 2 ^ 53
    · rw [countExact exact_]
      omega
    · have large := countLarge (by omega)
      omega
  simp only [decision, notNegative, if_false, reset]
  by_cases within : count ≤ policy.limit
  · refine ⟨_, if_pos (admitted.2 within), ?_, ?_⟩
    · rw [countExact (by omega)]
      simp only [RateLimitDecision.allow, clampU32]
      omega
    · simp [RateLimitDecision.allow, within]
  · refine ⟨_, if_neg fun small => within (admitted.1 small), ?_, ?_⟩
    · simp only [RateLimitDecision.deny]
      omega
    · simp [RateLimitDecision.deny, within]

/-- The first check of a window. -/
theorem check_creates (lua : LuaNumbers) (absent : live now stored = none)
    (fits : now + policy.windowMillis ≤ i64Max) (small : policy.windowMillis ≤ luaMax) :
    ∃ made, check lua policy now stored =
        (some ⟨1, some (now + policy.windowMillis)⟩, .ok made) ∧ Numbered policy 1 made := by
  have positive := policy.windowMillis_pos
  obtain ⟨made, isMade, numbered⟩ :=
    decision_ok lua policy 1 policy.windowMillis (by decide) (by omega) small
  refine ⟨made, ?_, numbered⟩
  have script : fixedWindowScript now stored policy.windowMillis =
      (some ⟨1, some (now + policy.windowMillis)⟩, .ok (1, policy.windowMillis)) := by
    have left : max (now + policy.windowMillis - now) 0 = policy.windowMillis := by omega
    simp only [fixedWindowScript, absent, incr, pexpire, if_true,
      if_neg (show ¬i64Max - now < policy.windowMillis by omega), pttl, left]
  rw [check, script]
  exact congrArg _ isMade

/-- A later check of a window. -/
theorem check_counts (lua : LuaNumbers) {counter : Counter} {instant : Int}
    (present : live now stored = some counter) (expires : counter.expireAt = some instant)
    (near : instant ≤ now + luaMax) (positive : 1 ≤ counter.count) (room : counter.count < luaMax) :
    ∃ made, check lua policy now stored =
        (some { counter with count := counter.count + 1 }, .ok made) ∧
      Numbered policy (counter.count + 1).toNat made := by
  have bound : luaMax < i64Max := by decide
  obtain ⟨made, isMade, numbered⟩ :=
    decision_ok lua policy (counter.count + 1).toNat (max (instant - now) 0) (by omega) (by omega)
      (by omega)
  refine ⟨made, ?_, numbered⟩
  have script : fixedWindowScript now stored policy.windowMillis =
      (some { counter with count := counter.count + 1 },
        .ok (counter.count + 1, max (instant - now) 0)) := by
    simp only [fixedWindowScript, present, incr, pttl, expires,
      if_neg (show ¬i64Max ≤ counter.count by omega),
      if_neg (show ¬counter.count + 1 = 1 by omega)]
  rw [check, script]
  rw [Int.toNat_of_nonneg (by omega)] at isMade
  exact congrArg _ isMade

end

/-! ## The invariant of a run -/

theorem decisionsIn_tick (slot : Slot) (instant : Int) (trace : List (Input × Output)) (ms : Nat) :
    decisionsIn slot instant (trace ++ [(.tick ms, .done)]) = decisionsIn slot instant trace := by
  simp [decisionsIn]

theorem decisionsIn_check (slot other : Slot) (instant expireAt : Int)
    (trace : List (Input × Output)) (made : RateLimitDecision) :
    decisionsIn slot instant (trace ++ [(.check other, .checked (some expireAt) (.ok made))]) =
      decisionsIn slot instant trace ++ if other = slot ∧ expireAt = instant then [made] else [] := by
  by_cases here : other = slot ∧ expireAt = instant
  · simp [decisionsIn, here]
  · simp [decisionsIn, here]

theorem decisionsIn_other {other : Slot} {instant expireAt : Int}
    (apart : ¬(other = slot ∧ expireAt = instant)) (trace : List (Input × Output))
    (made : RateLimitDecision) :
    decisionsIn slot instant (trace ++ [(.check other, .checked (some expireAt) (.ok made))]) =
      decisionsIn slot instant trace := by
  rw [decisionsIn_check, if_neg apart, List.append_nil]

theorem live_eq_some {now : Int} {stored : Option Counter} {counter : Counter}
    (present : live now stored = some counter) : stored = some counter :=
  (Option.filter_eq_some_iff.1 present).1

/-- A counter that is not shown has passed its instant. -/
theorem lt_of_live_eq_none {now : Int} {counter : Counter} {instant : Int}
    (absent : live now (some counter) = none) (expires : counter.expireAt = some instant) :
    instant < now := by
  simpa [live, Option.filter, expires] using absent

structure Ledger (policy : Slot → FixedWindow) (s : State) (trace : List (Input × Output)) :
    Prop where
  /-- A counter expires, and it counts its decisions. -/
  counters : ∀ slot counter, s.counter slot = some counter → ∃ instant,
    counter.expireAt = some instant ∧ instant ≤ s.now + luaMax ∧ 1 ≤ counter.count ∧
      counter.count = (decisionsIn slot instant trace).length
  /-- No decision was made in a counter that expires after the one that is there. -/
  recorded : ∀ slot instant, decisionsIn slot instant trace ≠ [] → ∃ counter latest,
    s.counter slot = some counter ∧ counter.expireAt = some latest ∧ instant ≤ latest
  numbered : ∀ slot instant i made, (decisionsIn slot instant trace)[i]? = some made →
    Numbered (policy slot) (i + 1) made
  decided : ∀ entry ∈ trace, ∀ expireAt result, entry.2 = .checked expireAt result →
    ∃ instant made, expireAt = some instant ∧ result = .ok made

namespace Ledger

variable {lua : LuaNumbers} {policy : Slot → FixedWindow} {s : State}
variable {trace : List (Input × Output)}

/-- What the next check does. -/
theorem check_cases (ledger : Ledger policy s trace) (lua : LuaNumbers) (slot : Slot)
    (room : RoomFor (policy slot) s.now (live s.now (s.counter slot))) :
    ∃ counter instant made, check lua (policy slot) s.now (s.counter slot) =
        (some counter, .ok made) ∧
      counter.expireAt = some instant ∧ instant ≤ s.now + luaMax ∧
      Numbered (policy slot) counter.count.toNat made ∧
      (live s.now (s.counter slot) = none ∧ instant = s.now + (policy slot).windowMillis ∧
          counter.count = 1 ∨
        ∃ earlier, live s.now (s.counter slot) = some earlier ∧ earlier.expireAt = some instant ∧
          1 ≤ earlier.count ∧ counter.count = earlier.count + 1) := by
  cases shown : live s.now (s.counter slot) with
  | none =>
    rw [shown] at room
    obtain ⟨made, checked, numbered⟩ := check_creates lua shown room.1 room.2
    exact ⟨_, _, made, checked, rfl, by have := room.2; omega, numbered, .inl ⟨rfl, rfl, rfl⟩⟩
  | some earlier =>
    rw [shown] at room
    obtain ⟨instant, expires, near, positive, -⟩ :=
      ledger.counters slot earlier (live_eq_some shown)
    obtain ⟨made, checked, numbered⟩ := check_counts lua shown expires near positive room
    exact ⟨_, instant, made, checked, expires, near, numbered,
      .inr ⟨earlier, rfl, expires, positive, rfl⟩⟩

theorem tick (ledger : Ledger policy s trace) (ms : Nat) :
    Ledger policy { s with now := s.now + ms } (trace ++ [(.tick ms, .done)]) := by
  refine ⟨fun slot counter stored => ?_, fun slot instant some_ => ?_,
    fun slot instant i made at_ => ?_, fun entry member expireAt result isChecked => ?_⟩
  · obtain ⟨instant, expires, near, positive, count⟩ := ledger.counters slot counter stored
    refine ⟨instant, expires, ?_, positive, ?_⟩
    · simp only
      omega
    · rw [decisionsIn_tick]
      exact count
  · rw [decisionsIn_tick] at some_
    exact ledger.recorded slot instant some_
  · rw [decisionsIn_tick] at at_
    exact ledger.numbered slot instant i made at_
  · rcases List.mem_append.1 member with old | new
    · exact ledger.decided entry old expireAt result isChecked
    · rw [List.mem_singleton.1 new] at isChecked
      cases isChecked

/-- A check that finds room counts one more decision, in the counter that is shown or in a
new one. -/
theorem check (ledger : Ledger policy s trace) {slot : Slot} {counter : Counter} {instant : Int}
    {made : RateLimitDecision} (expires : counter.expireAt = some instant)
    (near : instant ≤ s.now + luaMax) (numbered : Numbered (policy slot) counter.count.toNat made)
    (count : counter.count = (decisionsIn slot instant trace).length + 1)
    (later : ∀ old latest, s.counter slot = some old → old.expireAt = some latest →
      latest ≤ instant) :
    Ledger policy
      { s with counters := Function.update s.counters slot.storageKey (some counter) }
      (trace ++ [(.check slot, .checked (some instant) (.ok made))]) := by
  have here : Function.update s.counters slot.storageKey (some counter) slot.storageKey =
      some counter := Function.update_self ..
  have elsewhere : ∀ {other : Slot}, other ≠ slot →
      Function.update s.counters slot.storageKey (some counter) other.storageKey =
        s.counter other := fun ne =>
    Function.update_of_ne (fun same => ne (storageKey_injective same)) ..
  refine ⟨fun other counter' stored => ?_, fun other instant' some_ => ?_,
    fun other instant' i made' at_ => ?_, fun entry member expireAt result isChecked => ?_⟩
  · by_cases same : other = slot
    · subst same
      cases here.symm.trans stored
      refine ⟨instant, expires, near, by omega, ?_⟩
      rw [decisionsIn_check, if_pos ⟨rfl, rfl⟩, List.length_append, List.length_singleton, count]
      push_cast
      rfl
    · obtain ⟨instant', expires', near', positive, count'⟩ :=
        ledger.counters other counter' ((elsewhere same).symm.trans stored)
      refine ⟨instant', expires', near', positive, ?_⟩
      rw [decisionsIn_other fun both => same both.1.symm]
      exact count'
  · by_cases same : other = slot
    · subst same
      refine ⟨counter, instant, here, expires, ?_⟩
      by_cases this : instant = instant'
      · exact this.ge
      · rw [decisionsIn_other fun both => this both.2] at some_
        obtain ⟨old, latest, stored, oldExpires, le⟩ := ledger.recorded other instant' some_
        exact le.trans (later old latest stored oldExpires)
    · rw [decisionsIn_other fun both => same both.1.symm] at some_
      obtain ⟨old, latest, stored, oldExpires, le⟩ := ledger.recorded other instant' some_
      exact ⟨old, latest, (elsewhere same).trans stored, oldExpires, le⟩
  · by_cases both : slot = other ∧ instant = instant'
    · obtain ⟨rfl, rfl⟩ := both
      rw [decisionsIn_check, if_pos ⟨rfl, rfl⟩] at at_
      rcases Nat.lt_or_ge i (decisionsIn slot instant trace).length with old | new
      · rw [List.getElem?_append_left old] at at_
        exact ledger.numbered slot instant i made' at_
      · rw [List.getElem?_append_right new] at at_
        obtain ⟨at_end, isMade⟩ := List.getElem?_eq_some_iff.1 at_
        simp only [List.length_singleton] at at_end
        have number : counter.count.toNat = i + 1 := by omega
        rw [← number, ← isMade]
        simpa using numbered
    · rw [decisionsIn_other both] at at_
      exact ledger.numbered other instant' i made' at_
  · rcases List.mem_append.1 member with old | new
    · exact ledger.decided entry old expireAt result isChecked
    · rw [List.mem_singleton.1 new] at isChecked
      cases isChecked
      exact ⟨instant, made, rfl, rfl⟩

/-- **One step.** -/
theorem next (ledger : Ledger policy s trace) {input : Input} {after : State} {output : Output}
    (room : Room policy s trace input) (stepped : step lua policy s input = some (after, output)) :
    Ledger policy after (trace ++ [(input, output)]) := by
  cases input with
  | tick ms =>
    cases stepped
    exact ledger.tick ms
  | check slot =>
    obtain ⟨counter, instant, made, checked, expires, near, numbered, how⟩ :=
      ledger.check_cases lua slot room
    rw [step_check checked, expires] at stepped
    cases stepped
    rcases how with ⟨absent, isNew, first⟩ | ⟨earlier, shown, sameInstant, positive, next⟩
    · have positive := (policy slot).windowMillis_pos
      have passed : ∀ old latest, s.counter slot = some old → old.expireAt = some latest →
          latest < s.now := by
        intro old latest stored oldExpires
        rw [stored] at absent
        exact lt_of_live_eq_none absent oldExpires
      have unused : decisionsIn slot instant trace = [] := by
        by_contra some_
        obtain ⟨old, latest, stored, oldExpires, le⟩ := ledger.recorded slot instant some_
        have := passed old latest stored oldExpires
        omega
      refine ledger.check expires near numbered ?_ fun old latest stored oldExpires => ?_
      · rw [unused, first]
        rfl
      · have := passed old latest stored oldExpires
        omega
    · have stored := live_eq_some shown
      obtain ⟨instant', expires', -, -, count⟩ := ledger.counters slot earlier stored
      cases sameInstant.symm.trans expires'
      refine ledger.check expires near numbered ?_ fun old latest isOld oldExpires => ?_
      · rw [next, count]
      · cases stored.symm.trans isOld
        cases sameInstant.symm.trans oldExpires
        exact le_rfl

end Ledger

theorem run_ledger {s : State} {trace : List (Input × Output)}
    (run : (limiter lua policy).Run (Room policy) s trace) :
    Ledger policy s trace := by
  refine run.invariant ?_ fun _ _ _ _ _ _ ledger room stepped => ledger.next room stepped
  rintro ⟨now, counters⟩ rfl
  refine ⟨fun slot counter stored => ?_, fun slot instant some_ => absurd rfl some_,
    fun slot instant i made at_ => ?_, fun entry member => absurd member List.not_mem_nil⟩
  · cases stored
  · cases at_

/-! ## The theorem -/

/-- Decisions that are allowed up to the limit and then denied are allowed at most that
often. -/
theorem countP_allowed_le {policy : FixedWindow} {made : List RateLimitDecision}
    (numbered : ∀ i d, made[i]? = some d → Numbered policy (i + 1) d) :
    (made.countP fun d => d.allowed) ≤ policy.limit := by
  have none_later : ((made.drop policy.limit).countP fun d => d.allowed) = 0 := by
    refine List.countP_eq_zero.2 fun d member allowed => ?_
    obtain ⟨i, at_⟩ := List.mem_iff_getElem?.1 member
    rw [List.getElem?_drop] at at_
    have := (numbered _ d at_).allowed.1 allowed
    omega
  have first : ((made.take policy.limit).countP fun d => d.allowed) ≤ policy.limit :=
    List.countP_le_length.trans (List.length_take_le _ _)
  rw [← List.take_append_drop policy.limit made, List.countP_append, none_later]
  exact first

/-- **A fixed window.**  After every run whose checks find room: a counter that is shown has
an expiry; every check made a decision, and the next one that finds room makes one, in the
counter that is shown or in a new one that expires a window later; and of the checks counted
in one counter the first `limit` are allowed and the others are not, the `n`-th leaving
`limit - n` or nothing. -/
theorem fixed_window (lua : LuaNumbers) (policy : Slot → FixedWindow) (s : State)
    (trace : List (Input × Output)) (run : (limiter lua policy).Run (Room policy) s trace) :
    (∀ slot counter, live s.now (s.counter slot) = some counter →
      ∃ instant, counter.expireAt = some instant) ∧
    (∀ slot expireAt result, (.check slot, .checked expireAt result) ∈ trace →
      ∃ instant made, expireAt = some instant ∧ result = .ok made) ∧
    (∀ slot, Room policy s trace (.check slot) → ∃ after instant made,
      step lua policy s (.check slot) = some (after, .checked (some instant) (.ok made)) ∧
      (live s.now (s.counter slot) = none ∧ instant = s.now + (policy slot).windowMillis ∨
        ∃ counter, live s.now (s.counter slot) = some counter ∧
          counter.expireAt = some instant)) ∧
    ∀ slot instant,
      ((decisionsIn slot instant trace).countP fun made => made.allowed) ≤ (policy slot).limit ∧
      ∀ i made, (decisionsIn slot instant trace)[i]? = some made →
        made.remaining = (policy slot).limit - (i + 1) ∧
          (made.allowed = true ↔ i + 1 ≤ (policy slot).limit) := by
  have ledger := run_ledger run
  refine ⟨fun slot counter shown => ?_, fun slot expireAt result member => ?_,
    fun slot room => ?_, fun slot instant => ⟨?_, fun i made at_ => ?_⟩⟩
  · obtain ⟨instant, expires, -⟩ := ledger.counters slot counter (live_eq_some shown)
    exact ⟨instant, expires⟩
  · exact ledger.decided _ member expireAt result rfl
  · obtain ⟨counter, instant, made, checked, expires, -, -, how⟩ := ledger.check_cases lua slot room
    refine ⟨_, instant, made, expires ▸ step_check checked, ?_⟩
    · rcases how with ⟨absent, isNew, -⟩ | ⟨earlier, shown, sameInstant, -⟩
      · exact .inl ⟨absent, isNew⟩
      · exact .inr ⟨earlier, shown, sameInstant⟩
  · exact countP_allowed_le (ledger.numbered slot instant)
  · exact ⟨(ledger.numbered slot instant i made at_).remaining,
      (ledger.numbered slot instant i made at_).allowed⟩

/-! ## Two policies -/

/-- Numbers as Lua carries the small ones. -/
def wholeNumbers : LuaNumbers where
  carry n := n
  exact_ _ _ _ := rfl
  rounded n large small := ⟨large.le, small.trans (by decide)⟩

def clientSlot : Slot := ⟨⟨"api", by decide⟩, ⟨"client", by decide⟩⟩

/-- Two requests a second. -/
def twoASecond : FixedWindow := .ofMillis 2 1000 (by decide)

/-- Three checks in one second, and one in the next. -/
theorem fixed_window_twoASecond :
    ∃ s trace, (limiter wholeNumbers fun _ => twoASecond).Run (Room fun _ => twoASecond) s trace ∧
      (decisionsIn clientSlot 1000 trace).map RateLimitDecision.remaining = [1, 0, 0] ∧
      (decisionsIn clientSlot 2001 trace).length = 1 ∧
      ((decisionsIn clientSlot 1000 trace).countP fun made => made.allowed) ≤ 2 := by
  obtain ⟨s, trace, run, first, second⟩ := Machine.exists_run_exec
    (limiter wholeNumbers fun _ => twoASecond) (Room fun _ => twoASecond)
    (s := ⟨0, fun _ => none⟩) rfl
    [.check clientSlot, .tick 500, .check clientSlot, .check clientSlot, .tick 501,
      .check clientSlot]
    (fun _ trace =>
      (decisionsIn clientSlot 1000 trace).map RateLimitDecision.remaining = [1, 0, 0] ∧
      (decisionsIn clientSlot 2001 trace).length = 1) (by decide +kernel)
  have bound := ((fixed_window _ _ s trace run).2.2.2 clientSlot 1000).1
  exact ⟨s, trace, run, first, second, bound⟩

/-- The longest window that `FixedWindow::new` accepts. -/
def longest : FixedWindow := .ofMillis 1 9223372036854775807 (by decide)

/-- The counter of the slot has no expiry. -/
def Stuck (slot : Slot) (s : State) : Prop :=
  ∃ count, 1 ≤ count ∧ s.counter slot = some ⟨count, none⟩

theorem check_stuck (lua : LuaNumbers) (policy : FixedWindow) (now : Int) {count : Int}
    (positive : 1 ≤ count) :
    ∃ after error, 1 ≤ after ∧
      RateLimit.check lua policy now (some ⟨count, none⟩) = (some ⟨after, none⟩, .error error) := by
  have shown : live now (some ⟨count, none⟩) = some ⟨count, none⟩ := rfl
  by_cases full : i64Max ≤ count
  · refine ⟨count, .incrementOverflow, positive, ?_⟩
    simp only [RateLimit.check, fixedWindowScript, shown, incr, if_pos full]
  · refine ⟨count + 1, .unexpectedReturnType, by omega, ?_⟩
    have ttl : lua.carry (-1) = -1 := lua.exact_ (-1) (by decide) (by decide)
    have reply : ∀ n, decision policy n (-1) = .error .unexpectedReturnType := by
      intro n
      by_cases negative : n < 0
      · simp only [decision, if_pos negative]
        rfl
      · simp only [decision, if_neg negative, resetAfter]
        rfl
    simp only [RateLimit.check, fixedWindowScript, shown, incr, if_neg full,
      if_neg (show ¬count + 1 = 1 by omega), pttl, ttl, reply]

theorem stuck_step {before after : State} {input : Input} {output : Output} (stuck : Stuck slot before)
    (stepped : step lua policy before input = some (after, output)) : Stuck slot after := by
  obtain ⟨count, positive, stored⟩ := stuck
  cases input with
  | tick ms =>
    cases stepped
    exact ⟨count, positive, stored⟩
  | check other =>
    by_cases same : other = slot
    · subst same
      obtain ⟨more, error, positive', checked⟩ := check_stuck lua (policy other) before.now positive
      rw [← stored] at checked
      rw [step_check checked] at stepped
      cases stepped
      exact ⟨more, positive', Function.update_self ..⟩
    · cases stepped
      refine ⟨count, positive, ?_⟩
      exact (Function.update_of_ne (fun keys => same (storageKey_injective keys).symm) ..).trans
        stored

/-- **The longest window sticks.**  The first check at a clock past the epoch fails in
`PEXPIRE` and leaves a counter without expiry; from then on every check fails, for good. -/
theorem limiter_sticks :
    ∃ s trace, (limiter wholeNumbers fun _ => longest).Reaches s trace ∧
      trace.map Prod.snd = [.checked none (.error .invalidExpireTime),
        .checked none (.error .unexpectedReturnType)] ∧
      live s.now (s.counter clientSlot) = some ⟨2, none⟩ ∧
      ∀ later, (limiter wholeNumbers fun _ => longest).Leads s later →
        ∃ after expireAt error, step wholeNumbers (fun _ => longest) later (.check clientSlot) =
          some (after, .checked expireAt (.error error)) := by
  obtain ⟨s, trace, run, outputs, stored⟩ := Machine.exists_run_exec
    (limiter wholeNumbers fun _ => longest) (fun _ _ _ => True) (s := ⟨1, fun _ => none⟩) rfl
    [.check clientSlot, .check clientSlot]
    (fun s trace => trace.map Prod.snd = [.checked none (.error .invalidExpireTime),
        .checked none (.error .unexpectedReturnType)] ∧
      s.counter clientSlot = some ⟨2, none⟩) (by decide +kernel)
  refine ⟨s, trace, run, outputs, ?_, fun later leads => ?_⟩
  · rw [stored]
    rfl
  · have stuck : Stuck clientSlot later :=
      leads.preserves (fun _ _ _ _ => stuck_step) ⟨2, by decide, stored⟩
    obtain ⟨count, positive, isStuck⟩ := stuck
    obtain ⟨more, error, -, checked⟩ :=
      check_stuck wholeNumbers longest later.now positive
    rw [← isStuck] at checked
    exact ⟨_, _, error, step_check checked⟩

end Rustee.RateLimit
