/-
# Rustee.Static.Encoding -- the precompressed variants a client accepts

`rustee-static/src/encoding.rs`.  The file server negotiates for itself: its loop over the
`Accept-Encoding` values and its reading of a quality are, word for word, those of the compression
layer, so `tally` stands for both, and only what is made of the two maxima is written differently.

`both_layers_negotiate_alike` says that the layers agree, and on what.
-/
import Rustee.Compression.Negotiation

namespace Rustee.Static

set_option autoImplicit false

open Rustee.Foundation Rustee.Compression

inductive PrecompressedEncoding where
  | brotli
  | gzip
  deriving DecidableEq, Repr

def PrecompressedEncoding.token : PrecompressedEncoding → Text
  | .brotli => "br".toList
  | .gzip => "gzip".toList

/-- `found.then_some(…).flatten()`. -/
def encodingQuality (values : List (Option Text)) (encoding : PrecompressedEncoding) : Option Nat :=
  let (⟨explicit, wildcard⟩, found) := tally encoding.token values
  (if found then some ((explicit.or wildcard).filter fun quality => quality > 0) else none).join

def preferredPrecompressedEncodings (values : List (Option Text)) : List PrecompressedEncoding :=
  match encodingQuality values .brotli, encodingQuality values .gzip with
  | some brotli, some gzip => if brotli ≥ gzip then [.brotli, .gzip] else [.gzip, .brotli]
  | some _, none => [.brotli]
  | none, some _ => [.gzip]
  | none, none => []

/-- The coding a variant is stored in. -/
def PrecompressedEncoding.coding : PrecompressedEncoding → ContentCoding
  | .brotli => .brotli
  | .gzip => .gzip

theorem PrecompressedEncoding.token_coding (encoding : PrecompressedEncoding) :
    encoding.coding.token = encoding.token := by
  cases encoding <;> rfl

theorem encodingQuality_eq (values : List (Option Text)) (encoding : PrecompressedEncoding) :
    encodingQuality values encoding = qualityFor values encoding.coding := by
  rw [encodingQuality, qualityFor, encoding.token_coding]
  cases tally encoding.token values with
  | mk maxima found => cases found <;> rfl

theorem head?_preferredPrecompressedEncodings (values : List (Option Text)) :
    (preferredPrecompressedEncodings values).head?.map PrecompressedEncoding.coding =
      selectCoding true true values := by
  rw [preferredPrecompressedEncodings, selectCoding, encodingQuality_eq, encodingQuality_eq, if_pos rfl,
    if_pos rfl]
  unfold PrecompressedEncoding.coding
  cases qualityFor values .brotli with
  | none => cases qualityFor values .gzip <;> rfl
  | some brotli =>
    cases qualityFor values .gzip with
    | none => rfl
    | some gzip =>
      by_cases atLeast : brotli ≥ gzip
      · simp [atLeast]
      · simp [atLeast]

/-- Both layers choose the same coding; which one depends on the members alone, in whatever order,
on whatever lines and with whatever blanks around them they stand; and it is the one of greatest
quality, brotli on a tie and none of quality zero. -/
theorem both_layers_negotiate_alike (values : List (Option Text)) :
    (preferredPrecompressedEncodings values).head?.map PrecompressedEncoding.coding =
        selectCoding true true values ∧
      (∀ other, ((items other).map Text.trim).Perm ((items values).map Text.trim) →
        selectCoding true true other = selectCoding true true values) ∧
      ∀ coding, selectCoding true true values = some coding ↔ Prefers (items values) coding :=
  ⟨head?_preferredPrecompressedEncodings values, fun _ same => selectCoding_perm same,
    fun _ => selectCoding_eq_some⟩

-- a malformed quality counts as zero, and the named coding does not fall back on the wildcard
example : selectCoding true true [some "BR;q=2, gzip; Q=0.5".toList, none, some "*".toList] =
    some .gzip := by decide +kernel

end Rustee.Static
