/-
# Rustee.RateLimit.Policy -- keys, fixed windows and decisions

`rustee-rate-limit/src/policy.rs`.  A window is a whole number of milliseconds that fits an
`i64`, so that every store can keep it; nothing ties it to the clock it will be added to.
-/
import Rustee.Foundation.Text
import Mathlib.Algebra.Group.Nat.Defs

namespace Rustee.RateLimit

open Rustee.Foundation

set_option autoImplicit false

def maxKeyBytes : Nat := 256

/-- `char::is_control`: the Unicode category `Cc`. -/
def isControl (c : Char) : Bool := c.toNat < 32 || (127 ≤ c.toNat && c.toNat < 160)

/-- What `RateLimitKey::new` admits. -/
def isRateLimitKey (value : String) : Bool :=
  !(isBlank value || decide (maxKeyBytes < byteLen value) || value.toList.any isControl)

structure RateLimitKey where
  value : String
  valid : isRateLimitKey value = true
  deriving DecidableEq

/-- `FixedWindow`.  The fields after the data are what `new` checks; `window_millis` is
computed from the window. -/
structure FixedWindow where
  limit : Nat
  window : Duration
  limit_pos : 0 < limit
  limit_fits : limit < 2 ^ 32
  window_pos : 0 < window.asMillis
  window_whole : window.wholeMillis = true
  window_fits : (window.asMillis : Int) ≤ i64Max

namespace FixedWindow

/-- A window of whole milliseconds. -/
def ofMillis (limit millis : Nat)
    (ok : 0 < limit ∧ limit < 2 ^ 32 ∧ 0 < millis ∧ (millis : Int) ≤ i64Max) : FixedWindow where
  limit := limit
  window := .fromMillis millis
  limit_pos := ok.1
  limit_fits := ok.2.1
  window_pos := by
    rw [Duration.asMillis_fromMillis]
    exact ok.2.2.1
  window_whole := decide_eq_true (Nat.mul_mod_left millis 1000000)
  window_fits := by
    rw [Duration.asMillis_fromMillis]
    exact ok.2.2.2

def windowMillis (policy : FixedWindow) : Int := policy.window.asMillis

theorem windowMillis_pos (policy : FixedWindow) : 0 < policy.windowMillis :=
  Int.natCast_pos.2 policy.window_pos

end FixedWindow

structure RateLimitDecision where
  allowed : Bool
  limit : Nat
  remaining : Nat
  resetAfter : Duration
  deriving DecidableEq, Repr

namespace RateLimitDecision

/-- `RateLimitDecision::allowed`. -/
def allow (policy : FixedWindow) (remaining : Nat) (resetAfter : Duration) : RateLimitDecision :=
  ⟨true, policy.limit, min remaining policy.limit, resetAfter⟩

/-- `RateLimitDecision::denied`. -/
def deny (policy : FixedWindow) (resetAfter : Duration) : RateLimitDecision :=
  ⟨false, policy.limit, 0, resetAfter⟩

end RateLimitDecision

end Rustee.RateLimit
