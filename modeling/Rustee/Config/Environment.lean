/-
# Rustee.Config.Environment -- configuration read from environment variables

`collect_environment_values` walks the variables in the order the process gives them.  A
variable whose name starts with the prefix names a path of lower-case segments, cut at each
double underscore, and its value, read as JSON where that is possible, is inserted there.

The order of the variables must not matter.  Two variables can only meet at a path that
both name, or where the path of one goes on below that of the other.  The first is refused
in every order.  The second is refused too, as long as the longer variable comes first, or
the shorter one's value cannot take the rest of the path in; but where that value is itself
an object with room for it, the longer variable is admitted after the shorter one
(`environment_order`).
-/
import Rustee.Foundation.Chars
import Rustee.Foundation.Json
import Rustee.Foundation.NestedMap
import Mathlib.Data.List.Sort
import Mathlib.Data.String.Basic
import Mathlib.Data.List.Pairwise

namespace Rustee.Config

set_option autoImplicit false

open Rustee.Foundation
open Rustee.Foundation.NestedMap (insertKey Nesting)
open Rustee.Foundation.NestedMap.Nesting (Apart)
open Rustee.Foundation.Keyed (hget)

/-! ## Errors and limits -/

structure ConfigError where
  key : String
  message : String
  deriving DecidableEq, Repr

def maxEnvironmentVariables : Nat := 256

def maxEnvironmentKeyBytes : Nat := 512

def maxEnvironmentPathSegments : Nat := 16

def maxEnvironmentValueBytes : Nat := 64 * 1024

def environmentPathError (message : String) : ConfigError := ⟨"environment", message⟩

def environmentPrefixError : ConfigError :=
  ⟨"environment", "environment variable prefix must not be empty"⟩

def environmentVariableLimitError : ConfigError :=
  ⟨"environment", "matching environment variable count exceeds the bounded limit"⟩

def environmentKeyLimitError : ConfigError :=
  ⟨"environment", "matching environment variable name exceeds the bounded limit"⟩

def environmentPathLimitError : ConfigError :=
  ⟨"environment", "environment variable path depth exceeds the bounded limit"⟩

def environmentValueLimitError : ConfigError :=
  ⟨"environment", "matching environment variable value exceeds the bounded limit"⟩

def environmentUnicodeError : ConfigError :=
  ⟨"environment", "matching environment variable name or value is not valid Unicode"⟩

/-- Where a variable meets what an earlier one has put. -/
def environmentConflictError : ConfigError :=
  environmentPathError "environment variable paths must not be duplicated or conflict"

/-! ## Insertion -/

/-- `serde_json`'s map of an object: the entries in the order of their keys. -/
abbrev Map := List (String × Json)

def insertPath : List String → Json → Map → Except ConfigError Map
  | [], _, _ => .error (environmentPathError "environment variable paths must not be empty")
  | [head], value, values =>
    if (hget values head).isSome then .error environmentConflictError
    else .ok (insertKey head value values)
  | head :: next :: tail, value, values =>
    -- an entry that is missing is made an empty object first
    match (hget values head).getD (.object []) with
    | .object child =>
      (insertPath (next :: tail) value child).map fun child =>
        insertKey head (.object child) values
    | _ => .error environmentConflictError

/-! ## One variable -/

/-- A text of the operating system: Unicode, or something else. -/
inductive OsString (Raw : Type) where
  | unicode (text : String)
  | other (raw : Raw)
  deriving DecidableEq, Repr

/-- What the standard library and `serde_json` read. -/
structure Externals (Raw : Type) where
  toStringLossy : Raw → String
  fromStr : String → Option Json

abbrev Variable (Raw : Type) := OsString Raw × OsString Raw

/-- `split("__")`. -/
def splitDoubleUnderscore : Text → List Text
  | [] => [[]]
  | '_' :: '_' :: rest => [] :: splitDoubleUnderscore rest
  | c :: rest =>
    match splitDoubleUnderscore rest with
    | [] => [[c]]
    | piece :: pieces => (c :: piece) :: pieces

example : splitDoubleUnderscore "http___port__x".toList =
    ["http".toList, "_port".toList, "x".toList] := by decide

def validEnvironmentSegment (segment : Text) : Bool :=
  segment.all fun c => c.isAlphanum || c == '_' || c == '-'

/-- The loop over the segments of a name; `depth` segments have been taken. -/
def normalizedPath : Nat → List Text → Except ConfigError (List String)
  | _, [] => .ok []
  | depth, segment :: rest =>
    if segment = [] then
      .error (environmentPathError "environment variable paths must not contain empty segments")
    else if !validEnvironmentSegment segment then
      .error (environmentPathError "environment variable paths must contain only ASCII letters, digits, underscores, or hyphens")
    else if depth = maxEnvironmentPathSegments then .error environmentPathLimitError
    else
      (normalizedPath (depth + 1) rest).map fun path =>
        String.ofList segment.toAsciiLowercase :: path

section

variable {Raw : Type}

/-- The text of a value, within its bound. -/
def boundedValue : OsString Raw → Except ConfigError String
  | .other _ => .error environmentUnicodeError
  | .unicode text =>
    if byteLen text > maxEnvironmentValueBytes then .error environmentValueLimitError
    else .ok text

variable (ext : Externals Raw) (keyPrefix : String)

def parseEnvironmentValue (value : String) : Json := (ext.fromStr value).getD (.string value)

/-- The name of a variable that the prefix selects, with what follows the prefix. -/
def selected : OsString Raw → Except ConfigError (Option (String × Text))
  | .other raw =>
    if keyPrefix.toList.isPrefixOf (ext.toStringLossy raw).toList then .error environmentUnicodeError
    else .ok none
  | .unicode key =>
    match key.toList.dropPrefix? keyPrefix.toList with
    | none => .ok none
    | some [] => .ok none
    | some path => .ok (some (key, path))

structure Collected where
  values : Map
  matchedVariables : Nat

/-- The body of the loop over the variables. -/
def collectVariable (state : Collected) (variable_ : Variable Raw) :
    Except ConfigError Collected := do
  match ← selected ext keyPrefix variable_.1 with
  | none => .ok state
  | some (key, path) =>
    if byteLen key > maxEnvironmentKeyBytes then .error environmentKeyLimitError
    else if state.matchedVariables = maxEnvironmentVariables then
      .error environmentVariableLimitError
    else
      let path ← normalizedPath 0 (splitDoubleUnderscore path)
      let rawValue ← boundedValue variable_.2
      let values ← insertPath path (parseEnvironmentValue ext rawValue) state.values
      .ok ⟨values, state.matchedVariables + 1⟩

def collectEnvironmentValues (environment : List (Variable Raw)) : Except ConfigError Map :=
  if keyPrefix = "" then .error environmentPrefixError
  else
    (environment.foldlM (collectVariable ext keyPrefix) ⟨[], 0⟩).map
      Collected.values

/-! ## What a variable asks for -/

/-- The path a variable names and the value for it: nothing where the prefix does not select
it, and an error where it is refused whatever the other variables are. -/
def admission (variable_ : Variable Raw) : Except ConfigError (Option (List String × Json)) := do
  match ← selected ext keyPrefix variable_.1 with
  | none => .ok none
  | some (key, path) =>
    if byteLen key > maxEnvironmentKeyBytes then .error environmentKeyLimitError
    else
      let path ← normalizedPath 0 (splitDoubleUnderscore path)
      let rawValue ← boundedValue variable_.2
      .ok (some (path, parseEnvironmentValue ext rawValue))

def entryOf (variable_ : Variable Raw) : Option (List String × Json) :=
  (admission ext keyPrefix variable_).toOption.join

/-- The paths and values the variables ask for, in their order. -/
def entries (environment : List (Variable Raw)) : List (List String × Json) :=
  environment.filterMap (entryOf ext keyPrefix)

/-- Every variable is admissible by itself, and there are not too many. -/
def Admissible (environment : List (Variable Raw)) : Prop :=
  (∀ variable_ ∈ environment, (admission ext keyPrefix variable_).isOk = true) ∧
    (entries ext keyPrefix environment).length ≤ maxEnvironmentVariables

/-! ## Insertion places a value in nested maps -/

/-- JSON values as nested maps. -/
def jsonNesting : Nesting String Json where
  children
    | .object fields => some fields
    | _ => none
  node := .object
  children_node _ := rfl

theorem put_object (head : String) (tail : List String) (value : Json) (values : Map) :
    jsonNesting.put (head :: tail) value (some (.object values)) =
      (jsonNesting.put tail value (hget values head)).map fun x =>
        .object (insertKey head x values) := rfl

theorem insertPath_toOption (path : List String) (value : Json) (values : Map) :
    (insertPath path value values).toOption.map Json.object =
      jsonNesting.put path value (some (.object values)) := by
  induction path generalizing values with
  | nil => rfl
  | cons head tail ih =>
    rw [put_object]
    cases tail with
    | nil =>
      cases at_ : hget values head <;> simp [insertPath, at_, Nesting.put, Except.toOption]
    | cons next tail =>
      have descend : ∀ child, (hget values head).getD (.object []) = .object child →
          (insertPath (head :: next :: tail) value values).toOption.map Json.object =
            (jsonNesting.put (next :: tail) value (some (.object child))).map fun x =>
              .object (insertKey head x values) := by
        intro child entered
        rw [insertPath, entered, ← ih child]
        show Option.map _ (Except.map _ (insertPath (next :: tail) value child)).toOption = _
        cases insertPath (next :: tail) value child <;> rfl
      cases at_ : hget values head with
      | none =>
        rw [jsonNesting.put_cons_none]
        exact descend [] (by rw [at_]; rfl)
      | some old =>
        cases old with
        | object child => exact descend child (by rw [at_]; rfl)
        | _ => simp [insertPath, at_, Nesting.put, Nesting.inside, jsonNesting, Except.toOption]

theorem normalizedPath_length {depth : Nat} {segments : List Text} {path : List String}
    (ok : normalizedPath depth segments = .ok path) : path.length = segments.length := by
  induction segments generalizing depth path with
  | nil =>
    cases ok
    rfl
  | cons segment rest ih =>
    rw [normalizedPath] at ok
    split_ifs at ok
    obtain ⟨others, isOthers, rfl⟩ := map_eq_ok.1 ok
    rw [List.length_cons, List.length_cons, ih isOthers]

theorem splitDoubleUnderscore_ne_nil (text : Text) : splitDoubleUnderscore text ≠ [] := by
  fun_cases splitDoubleUnderscore text <;> simp_all

variable {ext keyPrefix}

variable {variable_ : Variable Raw} {environment environment' : List (Variable Raw)}

theorem admit_path_ne_nil {path : List String} {value : Json}
    (admitted : admission ext keyPrefix variable_ = .ok (some (path, value))) :
    path ≠ [] := by
  obtain ⟨chosen, -, admitted⟩ := bind_eq_ok.1 admitted
  cases chosen with
  | none => cases admitted
  | some named =>
    obtain ⟨key, rest⟩ := named
    dsimp only at admitted
    split_ifs at admitted
    obtain ⟨normalized, isNormalized, admitted⟩ := bind_eq_ok.1 admitted
    obtain ⟨rawValue, -, admitted⟩ := bind_eq_ok.1 admitted
    cases admitted
    intro empty
    have length := normalizedPath_length isNormalized
    rw [empty, List.length_nil, eq_comm, List.length_eq_zero_iff] at length
    exact splitDoubleUnderscore_ne_nil rest length

/-- One turn of the loop: the variable is passed over, or what it asks for is inserted. -/
theorem collectVariable_eq_ok {state state' : Collected} :
    collectVariable ext keyPrefix state variable_ = .ok state' ↔
      (admission ext keyPrefix variable_ = .ok none ∧ state' = state) ∨
      ∃ path value values,
        admission ext keyPrefix variable_ = .ok (some (path, value)) ∧
        state.matchedVariables ≠ maxEnvironmentVariables ∧
        insertPath path value state.values = .ok values ∧
        state' = ⟨values, state.matchedVariables + 1⟩ := by
  unfold collectVariable admission
  cases selected ext keyPrefix variable_.1 with
  | error e => simp [Bind.bind, Except.bind]
  | ok chosen =>
    cases chosen with
    | none => simp [Bind.bind, Except.bind, eq_comm]
    | some named =>
      obtain ⟨key, rest⟩ := named
      simp only [Bind.bind, Except.bind]
      by_cases long : byteLen key > maxEnvironmentKeyBytes
      · simp [long]
      · simp only [if_neg long]
        cases normalizedPath 0 (splitDoubleUnderscore rest) with
        | error e => split_ifs <;> simp
        | ok path =>
          cases boundedValue variable_.2 with
          | error e => split_ifs <;> simp
          | ok rawValue =>
            split_ifs with full
            · simp [full]
            · cases inserted :
                insertPath path (parseEnvironmentValue ext rawValue) state.values with
              | error e => simp [inserted]
              | ok values => simp [inserted, full, eq_comm]

/-! ## The whole loop -/

theorem entries_cons_skipped {rest : List (Variable Raw)}
    (skipped : admission ext keyPrefix variable_ = .ok none) :
    entries ext keyPrefix (variable_ :: rest) =
      entries ext keyPrefix rest := by
  simp [entries, entryOf, skipped, Except.toOption]

theorem entries_cons_admitted {rest : List (Variable Raw)} {entry : List String × Json}
    (admitted : admission ext keyPrefix variable_ = .ok (some entry)) :
    entries ext keyPrefix (variable_ :: rest) =
      entry :: entries ext keyPrefix rest := by
  simp [entries, entryOf, admitted, Except.toOption]

/-- The loop succeeds when no variable is refused by itself, the bound on their number is not
passed, and what they ask for can be placed one after the other. -/
theorem collectAll_eq_ok {state : Collected} {values : Map}
    (bounded : state.matchedVariables ≤ maxEnvironmentVariables) :
    (environment.foldlM (collectVariable ext keyPrefix) state).map
        Collected.values = .ok values ↔
      (∀ variable_ ∈ environment,
        (admission ext keyPrefix variable_).isOk = true) ∧
      state.matchedVariables + (entries ext keyPrefix environment).length ≤
        maxEnvironmentVariables ∧
      jsonNesting.putAll (entries ext keyPrefix environment)
        (.object state.values) = some (.object values) := by
  induction environment generalizing state with
  | nil => simpa [entries, Nesting.putAll, pure, Except.pure, Except.map] using fun _ => bounded
  | cons variable_ rest ih =>
    have unrolled : ((variable_ :: rest).foldlM
          (collectVariable ext keyPrefix) state).map Collected.values =
        .ok values ↔
        ∃ next, collectVariable ext keyPrefix state variable_ = .ok next ∧
          (rest.foldlM (collectVariable ext keyPrefix) next).map
            Collected.values = .ok values := by
      rw [List.foldlM_cons]
      cases collectVariable ext keyPrefix state variable_ <;>
        simp [Bind.bind, Except.bind, Except.map]
    rw [unrolled, List.forall_mem_cons]
    simp only [collectVariable_eq_ok]
    cases admitted : admission ext keyPrefix variable_ with
    | error e => simp [Except.isOk, Except.toBool]
    | ok asked =>
      cases asked with
      | none =>
        rw [entries_cons_skipped admitted]
        simp [ih bounded, Except.isOk, Except.toBool]
      | some entry =>
        obtain ⟨path, value⟩ := entry
        rw [entries_cons_admitted admitted, List.length_cons, Nesting.putAll,
          ← insertPath_toOption]
        cases inserted : insertPath path value state.values with
        | error e => simp [inserted, Except.toOption]
        | ok values' =>
          by_cases full : state.matchedVariables = maxEnvironmentVariables
          · simp [full]
          · have room : state.matchedVariables + 1 ≤ maxEnvironmentVariables := by omega
            have later := @ih ⟨values', state.matchedVariables + 1⟩ room
            simp [inserted, full, later, Except.isOk, Except.toBool, Except.toOption]
            omega

theorem collectEnvironmentValues_eq_ok {values : Map} :
    collectEnvironmentValues ext keyPrefix environment = .ok values ↔
      keyPrefix ≠ "" ∧ Admissible ext keyPrefix environment ∧
        jsonNesting.putAll (entries ext keyPrefix environment) (.object []) =
          some (.object values) := by
  unfold collectEnvironmentValues
  split_ifs with named
  · simp [named]
  · rw [collectAll_eq_ok (Nat.zero_le _), Nat.zero_add, Admissible, and_assoc]
    exact (and_iff_right named).symm

theorem entries_path_ne_nil {entry : List String × Json}
    (member : entry ∈ entries ext keyPrefix environment) : entry.1 ≠ [] := by
  obtain ⟨variable_, -, asked⟩ := List.mem_filterMap.1 member
  rw [entryOf, Option.join_eq_some_iff] at asked
  cases admitted : admission ext keyPrefix variable_ with
  | error e => rw [admitted] at asked; cases asked
  | ok found =>
    rw [admitted] at asked
    cases asked
    exact admit_path_ne_nil admitted

/-- Success is a matter of the order in which paths and values are asked for. -/
theorem collectEnvironmentValues_isOk :
    (collectEnvironmentValues ext keyPrefix environment).isOk = true ↔
      keyPrefix ≠ "" ∧ Admissible ext keyPrefix environment ∧
        (entries ext keyPrefix environment).Pairwise fun e f =>
          jsonNesting.Leaves e.1 e.2 f.1 := by
  have free : ∀ entry ∈ entries ext keyPrefix environment,
      jsonNesting.free entry.1 (some (.object [])) = true :=
    fun entry member => jsonNesting.free_empty (entries_path_ne_nil member)
  have placed := jsonNesting.putAll_isSome
    (entries ext keyPrefix environment) (.object [])
  rw [and_iff_right free, Option.isSome_iff_exists] at placed
  have succeeds :
      (collectEnvironmentValues ext keyPrefix environment).isOk = true ↔
        ∃ values, collectEnvironmentValues ext keyPrefix environment =
          .ok values := by
    cases collectEnvironmentValues ext keyPrefix environment <;>
      simp [Except.isOk, Except.toBool]
  simp only [succeeds, collectEnvironmentValues_eq_ok, exists_and_left, ← placed]
  refine and_congr_right fun _ => and_congr_right fun _ => ?_
  constructor
  · rintro ⟨values, found⟩
    exact ⟨_, found⟩
  · rintro ⟨x, found⟩
    obtain ⟨values, rfl⟩ := jsonNesting.putAll_node (l := []) found
    exact ⟨values, found⟩

/-! ## Orders -/

theorem entries_perm (reordered : environment.Perm environment') :
    (entries ext keyPrefix environment).Perm
      (entries ext keyPrefix environment') :=
  reordered.filterMap _

theorem Admissible.perm (admissible : Admissible ext keyPrefix environment)
    (reordered : environment.Perm environment') :
    Admissible ext keyPrefix environment' :=
  ⟨fun variable_ member => admissible.1 variable_ (reordered.mem_iff.2 member),
    (entries_perm reordered).length_eq ▸ admissible.2⟩

variable (ext keyPrefix)

/-- Every order of the variables gives the same map, or an error, and there is a map only
where no path equals or is a prefix of another. -/
structure OrderIndependent (environment : List (Variable Raw)) : Prop where
  sameResult : ∀ reordered, reordered.Perm environment →
    (collectEnvironmentValues ext keyPrefix reordered).toOption =
      (collectEnvironmentValues ext keyPrefix environment).toOption
  prefixFree :
    (collectEnvironmentValues ext keyPrefix environment).isOk = true →
      (entries ext keyPrefix environment).Pairwise fun e f => Apart e.1 f.1

/-- One variable goes on below another, and nothing but the order of the two decides
whether they are admitted: no variable is refused by itself, no path is asked for twice, and
every value that a longer path leads into is an object with room for the rest. -/
structure Ambiguous (environment : List (Variable Raw)) : Prop where
  named : keyPrefix ≠ ""
  admissible : Admissible ext keyPrefix environment
  distinct : (entries ext keyPrefix environment).Pairwise fun e f => e.1 ≠ f.1
  nested : ∃ e ∈ entries ext keyPrefix environment,
    ∃ f ∈ entries ext keyPrefix environment, e.1 <+: f.1 ∧ e.1 ≠ f.1
  room : ∀ e ∈ entries ext keyPrefix environment,
    ∀ f ∈ entries ext keyPrefix environment,
      ∀ rest, f.1 = e.1 ++ rest → rest ≠ [] → jsonNesting.free rest (some e.2) = true

variable {ext keyPrefix}

theorem Ambiguous.perm (ambiguous : Ambiguous ext keyPrefix environment)
    (reordered : environment.Perm environment') : Ambiguous ext keyPrefix environment' := by
  have same : (entries ext keyPrefix environment).Perm (entries ext keyPrefix environment') :=
    entries_perm reordered
  obtain ⟨e, member, f, member', below⟩ := ambiguous.nested
  refine ⟨ambiguous.named, ambiguous.admissible.perm reordered, ?_, ?_, ?_⟩
  · exact same.pairwise ambiguous.distinct fun {_ _} => Ne.symm
  · exact ⟨e, same.mem_iff.1 member, f, same.mem_iff.1 member', below⟩
  · intro e member f member'
    exact ambiguous.room e (same.mem_iff.2 member) f (same.mem_iff.2 member')

/-- How deep the path of a variable is; a variable that asks for nothing has depth zero. -/
def depth (ext : Externals Raw) (keyPrefix : String) (variable_ : Variable Raw) : Nat :=
  (entryOf ext keyPrefix variable_).elim 0 fun entry => entry.1.length

/-- Among the orders of ambiguous variables there is one that is admitted: the shorter
paths first. -/
theorem Ambiguous.succeeds (ambiguous : Ambiguous ext keyPrefix environment) :
    ∃ reordered : List (Variable Raw), reordered.Perm environment ∧
      (collectEnvironmentValues ext keyPrefix reordered).isOk = true := by
  let le : Variable Raw → Variable Raw → Bool := fun a b =>
    depth ext keyPrefix a ≤ depth ext keyPrefix b
  have sorted : (environment.mergeSort le).Pairwise fun a b => le a b := by
    refine List.pairwise_mergeSort ?_ ?_ environment
    · intro a b c first second
      simp only [le, decide_eq_true_eq] at first second ⊢
      exact first.trans second
    · intro a b
      simpa [le] using Nat.le_total _ _
  have reordered := List.mergeSort_perm environment le
  have moved := ambiguous.perm reordered.symm
  have lengths : (entries ext keyPrefix (environment.mergeSort le)).Pairwise
      fun e f => e.1.length ≤ f.1.length := by
    refine sorted.filterMap _ fun a b before e asked f asked' => ?_
    simpa [le, depth, Option.mem_def.1 asked, Option.mem_def.1 asked'] using before
  refine ⟨_, reordered, collectEnvironmentValues_isOk.2 ⟨moved.named, moved.admissible, ?_⟩⟩
  refine (lengths.and moved.distinct).imp_of_mem fun {e f} member member' both => ⟨?_, ?_⟩
  · intro below
    exact both.2 (below.eq_of_length_le both.1).symm
  · intro rest same
    refine moved.room e member f member' rest same fun empty => both.2 ?_
    rw [same, empty, List.append_nil]

/-- What is admitted is ambiguous, or its paths are apart. -/
theorem apart_of_isOk (clear : ¬ Ambiguous ext keyPrefix environment)
    (ok : (collectEnvironmentValues ext keyPrefix environment).isOk = true) :
    (entries ext keyPrefix environment).Pairwise fun e f => Apart e.1 f.1 := by
  obtain ⟨named, admissible, ordered⟩ := collectEnvironmentValues_isOk.1 ok
  have distinct := ordered.imp fun {e f} leaves =>
    (fun same => leaves.1 (same ▸ List.prefix_rfl) : e.1 ≠ f.1)
  have room : ∀ e ∈ entries ext keyPrefix environment, ∀ f ∈ entries ext keyPrefix environment,
      ∀ rest, f.1 = e.1 ++ rest → rest ≠ [] → jsonNesting.free rest (some e.2) = true := by
    let Related : List String × Json → List String × Json → Prop := fun e f =>
      jsonNesting.Leaves e.1 e.2 f.1 ∨ jsonNesting.Leaves f.1 f.2 e.1
    have : Std.Symm Related := ⟨fun _ _ => Or.symm⟩
    have related : (entries ext keyPrefix environment).Pairwise Related := ordered.imp .inl
    intro e member f member' rest below more
    have other : e ≠ f := by
      rintro rfl
      exact more (List.self_eq_append_right.1 below)
    rcases related.forall member member' other with leaves | leaves
    · exact leaves.2 rest below
    · exact absurd ⟨rest, below.symm⟩ leaves.1
  -- a pair that is not apart would be the nesting that makes the variables ambiguous
  refine (ordered.and distinct).imp_of_mem fun {e f} member member' both => ⟨fun below => ?_, both.1.1⟩
  exact clear ⟨named, admissible, distinct, ⟨e, member, f, member', below, both.2⟩, room⟩

theorem toOption_eq_of_apart (reordered : environment'.Perm environment)
    (apart : (entries ext keyPrefix environment).Pairwise fun e f => Apart e.1 f.1) :
    (collectEnvironmentValues ext keyPrefix environment').toOption =
      (collectEnvironmentValues ext keyPrefix environment).toOption := by
  have placed : jsonNesting.putAll (entries ext keyPrefix environment) (.object []) =
      jsonNesting.putAll (entries ext keyPrefix environment') (.object []) :=
    jsonNesting.putAll_perm (entries_perm reordered.symm) apart _
  have admissible : Admissible ext keyPrefix environment' ↔ Admissible ext keyPrefix environment :=
    ⟨fun ok => ok.perm reordered, fun ok => ok.perm reordered.symm⟩
  have results : ∀ values, collectEnvironmentValues ext keyPrefix environment' = .ok values ↔
      collectEnvironmentValues ext keyPrefix environment = .ok values := by
    intro values
    rw [collectEnvironmentValues_eq_ok, collectEnvironmentValues_eq_ok, admissible, placed]
  refine Option.ext fun values => ?_
  rw [toOption_eq_some, toOption_eq_some]
  exact results values

/-- The order of the variables does not matter exactly when they are not ambiguous. -/
theorem environment_order (ext : Externals Raw) (keyPrefix : String)
    (environment : List (Variable Raw)) :
    OrderIndependent ext keyPrefix environment ↔ ¬ Ambiguous ext keyPrefix environment := by
  constructor
  · intro independent ambiguous
    obtain ⟨reordered, isOrder, ok⟩ := ambiguous.succeeds
    have same := independent.sameResult reordered isOrder
    have ok' : (collectEnvironmentValues ext keyPrefix environment).isOk = true := by
      rwa [← isSome_toOption, same, isSome_toOption] at ok
    have : Std.Symm fun e f : List String × Json => Apart e.1 f.1 := ⟨fun _ _ => Apart.symm⟩
    obtain ⟨e, member, f, member', below, other⟩ := ambiguous.nested
    have apart := (independent.prefixFree ok').forall member member'
      fun same => other (congrArg Prod.fst same)
    exact apart.1 below
  · intro clear
    refine ⟨fun reordered isOrder => ?_, apart_of_isOk clear⟩
    by_cases ok : (collectEnvironmentValues ext keyPrefix environment).isOk = true
    · exact toOption_eq_of_apart isOrder (apart_of_isOk clear ok)
    · by_cases ok' : (collectEnvironmentValues ext keyPrefix reordered).isOk = true
      · have clear' : ¬ Ambiguous ext keyPrefix reordered := fun ambiguous =>
          clear (ambiguous.perm isOrder)
        exact (toOption_eq_of_apart isOrder.symm (apart_of_isOk clear' ok')).symm
      · rw [← isSome_toOption, Option.not_isSome_iff_eq_none] at ok ok'
        rw [ok, ok']

end

/-! ## A value that takes a later variable in -/

/-- `serde_json` on the two values below: one is an object, the other is no JSON. -/
def twoValues : Externals Empty where
  toStringLossy := Empty.elim
  fromStr text := if text = "\x7b\"port\":1\x7d" then some (.object [("port", .ofU64 1)]) else none

def httpObject : Variable Empty := (.unicode "APP_HTTP", .unicode "\x7b\"port\":1\x7d")

def httpHost : Variable Empty := (.unicode "APP_HTTP__HOST", .unicode "localhost")

/-- `APP_HTTP={"port":1}` and `APP_HTTP__HOST=localhost` are admitted in this order and
refused in the other. -/
theorem host_joins_object :
    httpObject.1 ≠ httpHost.1 ∧
      (collectEnvironmentValues twoValues "APP_" [httpObject, httpHost]).isOk = true ∧
      (collectEnvironmentValues twoValues "APP_" [httpHost, httpObject]).isOk = false ∧
      ¬ OrderIndependent twoValues "APP_" [httpObject, httpHost] := by
  have names : httpObject.1 ≠ httpHost.1 := by decide
  have first : (collectEnvironmentValues twoValues "APP_" [httpObject, httpHost]).isOk = true := by
    decide +kernel
  have second : (collectEnvironmentValues twoValues "APP_" [httpHost, httpObject]).isOk = false := by
    decide +kernel
  refine ⟨names, first, second, fun independent => ?_⟩
  have same := independent.sameResult _ (List.Perm.swap httpObject httpHost [])
  rw [← isSome_toOption] at first second
  rw [same, first] at second
  exact Bool.noConfusion second

end Rustee.Config
