/-
# Rustee.Rag.Values -- embeddings

`rustee-ai-rag/src/ingestion/model/`.  An embedding carries what its constructor checks.
-/
import Mathlib.Algebra.Order.Ring.Nat

namespace Rustee.Rag

set_option autoImplicit false

/-- The bits of an `f32`. -/
abbrev F32 := UInt32

/-- `f32::is_finite`: not all bits of the exponent are set. -/
def F32.isFinite (value : F32) : Bool := (value.toNat / 2 ^ 23) % 2 ^ 8 ≠ 255

inductive EmbeddingError where
  | empty
  | nonFinite
  deriving DecidableEq, Repr

structure Embedding where
  values : List F32
  nonempty : values ≠ []
  finite : values.all F32.isFinite = true

def Embedding.new (values : List F32) : Except EmbeddingError Embedding :=
  if empty : values = [] then .error .empty
  else if finite : values.all F32.isFinite = true then .ok ⟨values, empty, finite⟩
  else .error .nonFinite

end Rustee.Rag
