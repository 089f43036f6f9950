/-
# Rustee.Oidc.Jwks -- the keys of a key set

`compatible_keys` of `rustee-auth-oidc/src/jwks.rs`.  `compatibleKeys` reads the keys that may
verify a token out of a fetched set; `compatibleKeys_eq_some` says which: the one entry with its
identifier, if that is compatible.
-/
import Rustee.Foundation.Chars
import Mathlib.Data.List.Induction

namespace Rustee.Oidc

open Rustee.Foundation

set_option autoImplicit false

/-! ## Key sets -/

inductive Algorithm where
  | hs256 | hs384 | hs512 | es256 | es384 | rs256 | rs384 | rs512 | ps256 | ps384 | ps512 | edDSA
  deriving DecidableEq, Repr

inductive KeyAlgorithm where
  | hs256 | hs384 | hs512 | es256 | es384 | rs256 | rs384 | rs512 | ps256 | ps384 | ps512 | edDSA
  | rsa1_5 | rsaOaep | rsaOaep256 | unknownAlgorithm
  deriving DecidableEq, Repr

inductive PublicKeyUse where
  | signature
  | encryption
  | other (name : Text)
  deriving DecidableEq, Repr

inductive KeyOperations where
  | sign | verify | encrypt | decrypt | wrapKey | unwrapKey | deriveKey | deriveBits
  | other (name : Text)
  deriving DecidableEq, Repr

/-- A `Jwk`: the common parameters that are checked, and the rest. -/
structure Jwk (Material : Type) where
  keyId : Option Text
  keyAlgorithm : Option KeyAlgorithm
  publicKeyUse : Option PublicKeyUse
  keyOperations : Option (List KeyOperations)
  material : Material

variable {Material Key : Type}

def algorithmMatches : Algorithm → Option KeyAlgorithm → Bool
  | .rs256, some .rs256 | .rs384, some .rs384 | .rs512, some .rs512 => true
  | .ps256, some .ps256 | .ps384, some .ps384 | .ps512, some .ps512 => true
  | .es256, some .es256 | .es384, some .es384 | .edDSA, some .edDSA => true
  | _, _ => false

def isCompatibleJwk (jwk : Jwk Material) (algorithm : Algorithm) : Bool :=
  algorithmMatches algorithm jwk.keyAlgorithm &&
    (jwk.publicKeyUse = none || jwk.publicKeyUse = some .signature) &&
    jwk.keyOperations.all fun operations => operations.contains .verify

/-- The locals of `compatible_keys`. -/
structure Reading (Key : Type) where
  keys : Text → Option Key
  seen : List Text
  duplicates : List Text

/-- `DecodingKey::from_jwk` is the library's. -/
def readJwk (fromJwk : Jwk Material → Option Key) (algorithm : Algorithm) (reading : Reading Key)
    (jwk : Jwk Material) : Reading Key :=
  match jwk.keyId with
  | none => reading
  | some kid =>
    if kid ∈ reading.seen then { reading with duplicates := kid :: reading.duplicates }
    else
      let reading := { reading with seen := kid :: reading.seen }
      if isCompatibleJwk jwk algorithm then
        match fromJwk jwk with
        | some key => { reading with keys := Function.update reading.keys kid (some key) }
        | none => reading
      else reading

def compatibleKeys (fromJwk : Jwk Material → Option Key) (algorithm : Algorithm)
    (set : List (Jwk Material)) : Text → Option Key :=
  let reading := set.foldl (readJwk fromJwk algorithm) ⟨fun _ => none, [], []⟩
  reading.duplicates.foldl (fun keys duplicate => Function.update keys duplicate none) reading.keys

/-! ## Which keys are read -/

section Reading

variable (fromJwk : Jwk Material → Option Key) (algorithm : Algorithm)

/-- The entries with an identifier. -/
def entriesOf (set : List (Jwk Material)) (kid : Text) : List (Jwk Material) :=
  set.filter fun jwk => jwk.keyId = some kid

def usableKey (jwk : Jwk Material) : Option Key :=
  if isCompatibleJwk jwk algorithm then fromJwk jwk else none

/-- What the loop knows of an identifier, from the entries that it has seen of it. -/
structure Knows (reading : Reading Key) (kid : Text) (entries : List (Jwk Material)) : Prop where
  seen : kid ∈ reading.seen ↔ entries ≠ []
  duplicate : kid ∈ reading.duplicates ↔ 2 ≤ entries.length
  key : reading.keys kid = entries.head?.bind (usableKey fromJwk algorithm)

variable {fromJwk algorithm}

variable {kid : Text}

theorem Knows.other {reading : Reading Key} {entries : List (Jwk Material)}
    (knows : Knows fromJwk algorithm reading kid entries) {jwk : Jwk Material}
    (notMine : jwk.keyId ≠ some kid) :
    Knows fromJwk algorithm (readJwk fromJwk algorithm reading jwk) kid entries := by
  unfold readJwk
  split
  · exact knows
  · rename_i other isOther
    have differs : kid ≠ other := by
      rintro rfl
      exact notMine isOther
    split
    · exact ⟨knows.seen, by simpa [differs] using knows.duplicate, knows.key⟩
    · have seen : kid ∈ other :: reading.seen ↔ entries ≠ [] := by
        simpa [differs] using knows.seen
      simp only
      split
      · split
        · refine ⟨seen, knows.duplicate, ?_⟩
          rw [← knows.key]
          exact Function.update_of_ne differs _ _
        · exact ⟨seen, knows.duplicate, knows.key⟩
      · exact ⟨seen, knows.duplicate, knows.key⟩

theorem Knows.mine {reading : Reading Key} {entries : List (Jwk Material)}
    (knows : Knows fromJwk algorithm reading kid entries) {jwk : Jwk Material}
    (mine : jwk.keyId = some kid) :
    Knows fromJwk algorithm (readJwk fromJwk algorithm reading jwk) kid (entries ++ [jwk]) := by
  simp only [readJwk, mine]
  by_cases again : kid ∈ reading.seen
  · obtain ⟨first, rest, rfl⟩ := List.exists_cons_of_ne_nil (knows.seen.1 again)
    rw [if_pos again]
    exact ⟨by simpa using again, by simp, knows.key⟩
  · have empty : entries = [] := not_not.1 fun some_ => again (knows.seen.2 some_)
    subst empty
    rw [if_neg again]
    have noDuplicate : kid ∉ reading.duplicates := fun inside => by
      simpa using knows.duplicate.1 inside
    have noKey : reading.keys kid = none := knows.key
    by_cases compatible : isCompatibleJwk jwk algorithm = true
    · rw [if_pos compatible]
      cases isKey : fromJwk jwk with
      | some key =>
        exact ⟨by simp, by simpa using noDuplicate, by simp [usableKey, compatible, isKey]⟩
      | none =>
        exact ⟨by simp, by simpa using noDuplicate, by simp [usableKey, compatible, isKey, noKey]⟩
    · rw [if_neg compatible]
      exact ⟨by simp, by simpa using noDuplicate, by simp [usableKey, compatible, noKey]⟩

theorem knows_foldl (set : List (Jwk Material)) (kid : Text) :
    Knows fromJwk algorithm (set.foldl (readJwk fromJwk algorithm) ⟨fun _ => none, [], []⟩) kid
      (entriesOf set kid) := by
  induction set using List.reverseRecOn with
  | nil => exact ⟨by simp [entriesOf], by simp [entriesOf], rfl⟩
  | append_singleton set jwk ih =>
    rw [List.foldl_concat, entriesOf, List.filter_append]
    by_cases mine : jwk.keyId = some kid
    · have one : [jwk].filter (fun jwk => jwk.keyId = some kid) = [jwk] := by simp [mine]
      rw [one]
      exact ih.mine mine
    · have none : [jwk].filter (fun jwk => jwk.keyId = some kid) = [] := by simp [mine]
      rw [none, List.append_nil]
      exact ih.other mine

theorem foldl_remove (duplicates : List Text) (keys : Text → Option Key) (kid : Text) :
    duplicates.foldl (fun keys duplicate => Function.update keys duplicate none) keys kid =
      if kid ∈ duplicates then none else keys kid := by
  induction duplicates generalizing keys with
  | nil => simp
  | cons first rest ih =>
    rw [List.foldl_cons, ih, Function.update_apply]
    by_cases here : kid = first
    · simp [here]
    · simp [here]

/-- **Which keys a set has**: those of identifiers with one entry, if it is usable. -/
theorem compatibleKeys_eq_some {set : List (Jwk Material)} {key : Key} :
    compatibleKeys fromJwk algorithm set kid = some key ↔
      ∃ jwk, entriesOf set kid = [jwk] ∧ usableKey fromJwk algorithm jwk = some key := by
  have knows : Knows fromJwk algorithm _ kid (entriesOf set kid) := knows_foldl set kid
  rw [compatibleKeys, foldl_remove]
  by_cases duplicate : 2 ≤ (entriesOf set kid).length
  · rw [if_pos (knows.duplicate.2 duplicate)]
    constructor
    · intro impossible
      cases impossible
    · rintro ⟨jwk, one, -⟩
      rw [one] at duplicate
      simp at duplicate
  · rw [if_neg (mt knows.duplicate.1 duplicate), knows.key]
    cases isEntries : entriesOf set kid with
    | nil => simp
    | cons jwk rest =>
      have noMore : rest = [] := by
        rw [isEntries, List.length_cons] at duplicate
        exact List.length_eq_zero_iff.1 (by omega)
      simp [noMore]

end Reading

end Rustee.Oidc
