/-
# Rustee.Ai.Usage -- reservations of usage

`rustee-ai` (`src/context.rs`, `src/usage.rs`, `src/usage/budget.rs`): the content-free reservation
a provider attempt is accounted under.
-/
import Rustee.Foundation.RustStd

namespace Rustee.Ai

open Rustee.Foundation

set_option autoImplicit false

def maxTenantBytes : Nat := 255

def maxSubjectBytes : Nat := 255

def maxIdempotencyKeyBytes : Nat := 512

/-- `AiExecutionContext`; the last two fields are what `new` checks. -/
structure AiExecutionContext where
  tenant : String
  subject : String
  tenant_valid : isBoundedText maxTenantBytes tenant = true
  subject_valid : isBoundedText maxSubjectBytes subject = true
  deriving DecidableEq

structure AiBudgetRequest where
  model : String
  inputCharacters : Nat
  toolCount : Nat
  toolResultCount : Nat
  deriving DecidableEq, Repr

structure AiUsageReservation where
  context : AiExecutionContext
  idempotencyKey : String
  request : AiBudgetRequest
  deriving DecidableEq

structure Usage where
  inputTokens : Nat
  outputTokens : Nat
  deriving DecidableEq, Repr

end Rustee.Ai
