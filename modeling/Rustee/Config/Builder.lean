/-
# Rustee.Config.Builder -- configuration sources, merged in order of precedence

`rustee-config/src/builder.rs`.  The sources are merged one after the other into an empty object.
Where both sides are objects the merge goes into them, key by key; anywhere else the value of the
source replaces what was there.

A key is looked at by itself (`hget_mergeFields`), so what comes of it depends on the values the
sources give it, and of these only on the objects at the end (`resolve`): a value that is no object
wipes out what came before.  `merged_by_precedence` is that, and that a source merged twice is merged
once.
-/
import Rustee.Config.Environment
import Mathlib.Data.List.DropRight

namespace Rustee.Config

set_option autoImplicit false

open Rustee.Foundation
open Rustee.Foundation.NestedMap
open Rustee.Foundation.Keyed (hget)

/-! ## Merging -/

mutual

def mergeValues : Json → Json → Json
  | .object target, .object source => .object (mergeFields target source)
  | _, source => source

/-- The loop over the fields of a source; a missing entry is made `null` first. -/
def mergeFields (target : Map) : Map → Map
  | [] => target
  | (key, value) :: rest =>
    mergeFields (insertKey key (mergeValues ((hget target key).getD .null) value) target) rest

end

def mergeAll (values : List Json) : Json := values.foldl mergeValues (.object [])

/-! ## The builder -/

inductive Source where
  | defaults
  | local_
  | environment
  | deployment
  deriving DecidableEq, Repr

def Source.key : Source → String
  | .defaults => "defaults"
  | .local_ => "local"
  | .environment => "environment"
  | .deployment => "deployment"

structure ConfigBuilder where
  sources : Source → Option Json

namespace ConfigBuilder

def new : ConfigBuilder := ⟨fun _ => none⟩

def insert (builder : ConfigBuilder) (source : Source) (value : Json) : ConfigBuilder :=
  ⟨fun other => if other = source then some value else builder.sources other⟩

def ensureSourceAvailable (builder : ConfigBuilder) (source : Source) : Except ConfigError Unit :=
  if (builder.sources source).isSome then
    .error ⟨source.key, "a configuration source may only be configured once"⟩
  else .ok ()

def source (builder : ConfigBuilder) (source : Source) (value : Json) :
    Except ConfigError ConfigBuilder := do
  builder.ensureSourceAvailable source
  if !value.isObject then .error ⟨source.key, "a configuration source must be a JSON object"⟩
  else .ok (builder.insert source value)

def environment {Raw : Type} (builder : ConfigBuilder) (ext : Externals Raw) (keyPrefix : String)
    (vars : List (Variable Raw)) : Except ConfigError ConfigBuilder := do
  builder.ensureSourceAvailable .environment
  let values ← collectEnvironmentValues ext keyPrefix vars
  .ok (builder.insert .environment (.object values))

/-- The merged value; `fromValue` is what the application reads from it. -/
def build {T : Type} (builder : ConfigBuilder) (fromValue : Json → Option T) : Except ConfigError T :=
  let merged :=
    mergeAll ([Source.defaults, .local_, .environment, .deployment].filterMap builder.sources)
  match fromValue merged with
  | some value => .ok value
  | none => .error ⟨"configuration", "the value does not match the expected schema"⟩

end ConfigBuilder

/-! ## Objects -/

/-- The objects of a value have their keys in order, as `serde_json` keeps them.  What stands in an
array is never merged. -/
inductive Ordered : Json → Prop where
  | object {fields : Map} (ascending : Ascending fields)
      (values : ∀ field ∈ fields, Ordered field.2) : Ordered (.object fields)
  | plain {value : Json} (isPlain : value.isObject = false) : Ordered value

theorem ordered_object_iff {fields : Map} :
    Ordered (.object fields) ↔
      Ascending fields ∧ ∀ key value, hget fields key = some value → Ordered value := by
  constructor
  · intro ordered
    cases ordered with
    | object ascending values =>
      exact ⟨ascending, fun key value found => values (key, value) (Keyed.hget_mem found)⟩
    | plain isPlain => cases isPlain
  · rintro ⟨ascending, values⟩
    exact .object ascending fun field member => values field.1 field.2 (ascending.hget_eq_some.2 member)

/-- A source, or an object in one. -/
structure ConfigObject where
  fields : Map
  ordered : Ordered (.object fields)

def ConfigObject.value (source : ConfigObject) : Json := .object source.fields

theorem ConfigObject.ordered_value (source : ConfigObject) : Ordered source.value := source.ordered

/-! ## One merge -/

@[simp] theorem mergeValues_object (target source : Map) :
    mergeValues (.object target) (.object source) = .object (mergeFields target source) := by
  rw [mergeValues]

variable {target : Json}

theorem mergeValues_of_plain_target (isPlain : target.isObject = false) (source : Json) :
    mergeValues target source = source := by
  rw [mergeValues]
  rintro fields _ rfl
  cases isPlain

theorem mergeValues_of_plain {source : Json} (isPlain : source.isObject = false) (target : Json) :
    mergeValues target source = source := by
  rw [mergeValues]
  rintro _ fields _ rfl
  cases isPlain

/-- What a merge does to one key. -/
def mergeEntry (before : Option Json) : Option Json → Option Json
  | none => before
  | some value => some (mergeValues (before.getD .null) value)

theorem hget_mergeFields {source : Map} (ascending : Ascending source) (target : Map) (key : String) :
    hget (mergeFields target source) key = mergeEntry (hget target key) (hget source key) := by
  induction source generalizing target with
  | nil => rw [mergeFields, hget_nil, mergeEntry]
  | cons field rest ih =>
    obtain ⟨name, value⟩ := field
    obtain ⟨below, tail⟩ := ascending_cons.1 ascending
    rw [mergeFields, ih tail, hget_insertKey, hget_cons]
    by_cases here : name = key
    · subst here
      have absent : hget rest name = none := by
        cases found : hget rest name with
        | none => rfl
        | some other => exact absurd (below _ (Keyed.hget_mem found)) (lt_irrefl _)
      rw [if_pos rfl, if_pos rfl, absent]
      rfl
    · rw [if_neg here, if_neg here]

theorem ascending_mergeFields {target : Map} (ascending : Ascending target) (source : Map) :
    Ascending (mergeFields target source) := by
  induction source generalizing target with
  | nil => rwa [mergeFields]
  | cons field rest ih =>
    rw [mergeFields]
    exact ih (ascending.insertKey _ _)

/-- Into an empty object, everything is copied. -/
theorem mergeFields_nil {source : Map} (ascending : Ascending source) :
    mergeFields [] source = source := by
  refine Ascending.ext (ascending_mergeFields List.Pairwise.nil source) ascending fun key => ?_
  rw [hget_mergeFields ascending, hget_nil]
  cases hget source key with
  | none => rfl
  | some value => rw [mergeEntry, Option.getD_none, mergeValues_of_plain_target rfl]

/-- So a value that is no object counts as an empty one. -/
theorem mergeValues_empty {source : Json} (ordered : Ordered source) :
    mergeValues (.object []) source = source := by
  cases ordered with
  | object ascending _ => rw [mergeValues_object, mergeFields_nil ascending]
  | plain isPlain => exact mergeValues_of_plain isPlain _

theorem ordered_getD {before : Option Json} (ordered : ∀ value, before = some value → Ordered value) :
    Ordered (before.getD .null) := by
  cases before with
  | none => exact .plain rfl
  | some value => exact ordered value rfl

theorem Ordered.mergeValues {source : Json} (ordered : Ordered target)
    (orderedSource : Ordered source) : Ordered (mergeValues target source) := by
  induction orderedSource generalizing target with
  | plain isPlain =>
    rw [mergeValues_of_plain isPlain]
    exact .plain isPlain
  | @object fields ascending values ih =>
    cases ordered with
    | plain isPlain =>
      rw [mergeValues_of_plain_target isPlain]
      exact .object ascending values
    | @object before ascendingBefore valuesBefore =>
      have holds := (ordered_object_iff.1 (.object ascendingBefore valuesBefore)).2
      rw [mergeValues_object]
      refine ordered_object_iff.2 ⟨ascending_mergeFields ascendingBefore fields, ?_⟩
      intro key value found
      rw [hget_mergeFields ascending] at found
      cases given : hget fields key with
      | none =>
        rw [given] at found
        exact holds key value found
      | some new =>
        rw [given] at found
        cases found
        exact ih _ (Keyed.hget_mem given) (ordered_getD (holds key))

/-- Merging a source once more changes nothing. -/
theorem mergeValues_twice {source : Json} (ordered : Ordered target) (orderedSource : Ordered source) :
    mergeValues (mergeValues target source) source = mergeValues target source := by
  induction orderedSource generalizing target with
  | plain isPlain => rw [mergeValues_of_plain isPlain, mergeValues_of_plain isPlain]
  | @object fields ascending values ih =>
    -- into a value that is no object the source is copied, as into an empty one
    have once : ∃ before, Ascending before ∧ (∀ key value, hget before key = some value → Ordered value) ∧
        mergeValues target (.object fields) = .object (mergeFields before fields) := by
      cases ordered with
      | @object before ascendingBefore valuesBefore =>
        obtain ⟨asc, holds⟩ := ordered_object_iff.1 (.object ascendingBefore valuesBefore)
        exact ⟨before, asc, holds, mergeValues_object before fields⟩
      | plain isPlain =>
        refine ⟨[], List.Pairwise.nil, fun key value found => (nomatch found), ?_⟩
        rw [mergeValues_of_plain_target isPlain, mergeFields_nil ascending]
    obtain ⟨before, ascendingBefore, holds, isOnce⟩ := once
    rw [isOnce, mergeValues_object]
    congr 1
    have asc := ascending_mergeFields ascendingBefore fields
    refine Ascending.ext (ascending_mergeFields asc fields) asc fun key => ?_
    rw [hget_mergeFields ascending, hget_mergeFields ascending]
    cases given : hget fields key with
    | none => rfl
    | some new =>
      simp only [mergeEntry, Option.getD_some]
      rw [ih _ (Keyed.hget_mem given) (ordered_getD (holds key))]

/-! ## All of them -/

def merge (sources : List ConfigObject) : Json := mergeAll (sources.map ConfigObject.value)

/-- The values the sources give a key, in order. -/
def given (key : String) (sources : List ConfigObject) : List Json :=
  sources.filterMap fun source => source.value.get key

/-- What becomes of a key: the last value or, if that is an object, what the objects at the end merge
to. -/
def resolve (values : List Json) : Option Json :=
  match values.getLast? with
  | none => none
  | some last => if last.isObject then some (mergeAll (values.rtakeWhile Json.isObject)) else some last

/-- The same, value by value. -/
def mergeGiven (before : Option Json) (values : List Json) : Option Json :=
  values.foldl (fun before value => mergeEntry before (some value)) before

theorem merge_concat (sources : List ConfigObject) (last : ConfigObject) :
    merge (sources ++ [last]) = mergeValues (merge sources) last.value := by
  simp [merge, mergeAll]

theorem merge_append (before after : List ConfigObject) :
    merge (before ++ after) = (after.map ConfigObject.value).foldl mergeValues (merge before) := by
  simp [merge, mergeAll]

/-- The merge is a map again, and each key is merged by itself. -/
theorem merge_eq (sources : List ConfigObject) : ∃ merged : ConfigObject,
    merge sources = merged.value ∧
      ∀ key, merged.value.get key = mergeGiven none (given key sources) := by
  induction sources using List.reverseRecOn with
  | nil => exact ⟨⟨[], .object List.Pairwise.nil (by simp)⟩, rfl, fun key => rfl⟩
  | append_singleton sources last ih =>
    obtain ⟨merged, isMerged, keys⟩ := ih
    have next : merge (sources ++ [last]) = .object (mergeFields merged.fields last.fields) := by
      rw [merge_concat, isMerged]
      exact mergeValues_object merged.fields last.fields
    have ordered : Ordered (.object (mergeFields merged.fields last.fields)) := by
      rw [← mergeValues_object]
      exact merged.ordered.mergeValues last.ordered
    refine ⟨⟨_, ordered⟩, next, fun key => ?_⟩
    have entry : (Json.object (mergeFields merged.fields last.fields)).get key =
        mergeEntry (merged.value.get key) (last.value.get key) :=
      hget_mergeFields (ordered_object_iff.1 last.ordered).1 merged.fields key
    rw [ConfigObject.value, entry, keys, given, given, List.filterMap_append]
    cases found : last.value.get key with
    | none => simp [found, mergeEntry]
    | some value => simp [found, mergeGiven]

theorem get_merge (sources : List ConfigObject) (key : String) :
    (merge sources).get key = mergeGiven none (given key sources) := by
  obtain ⟨merged, isMerged, keys⟩ := merge_eq sources
  rw [isMerged, keys]

theorem mergeAll_concat (values : List Json) (last : Json) :
    mergeAll (values ++ [last]) = mergeValues (mergeAll values) last := by
  simp [mergeAll]

theorem resolve_concat (values : List Json) (last : Json) :
    resolve (values ++ [last]) =
      if last.isObject then some (mergeAll ((values ++ [last]).rtakeWhile Json.isObject))
      else some last := by
  simp [resolve]

/-- What an object is merged into: the objects right before it, or as good as nothing. -/
theorem mergeValues_resolve (values : List Json) {last : Json} (ordered : Ordered last) :
    mergeValues ((resolve values).getD .null) last =
      mergeValues (mergeAll (values.rtakeWhile Json.isObject)) last := by
  have copied {before : Json} (isPlain : before.isObject = false) :
      mergeValues before last = mergeValues (mergeAll []) last := by
    rw [mergeValues_of_plain_target isPlain]
    exact (mergeValues_empty ordered).symm
  rcases List.eq_nil_or_concat values with rfl | ⟨front, value, rfl⟩
  · exact copied rfl
  · rw [List.concat_eq_append, resolve_concat]
    cases isObject : value.isObject with
    | true => rw [if_pos rfl, Option.getD_some]
    | false =>
      rw [if_neg Bool.false_ne_true, Option.getD_some,
        List.rtakeWhile_concat_neg _ _ _ (by rw [isObject]; exact Bool.false_ne_true)]
      exact copied isObject

theorem mergeGiven_eq_resolve {values : List Json} (ordered : ∀ value ∈ values, Ordered value) :
    mergeGiven none values = resolve values := by
  induction values using List.reverseRecOn with
  | nil => rfl
  | append_singleton values last ih =>
    have earlier := ih fun value member => ordered value (List.mem_append_left _ member)
    have orderedLast := ordered last (by simp)
    have step : mergeGiven none (values ++ [last]) =
        some (mergeValues ((resolve values).getD .null) last) := by
      rw [← earlier]
      simp [mergeGiven, mergeEntry]
    rw [step, resolve_concat]
    cases isObject : last.isObject with
    | true =>
      rw [if_pos rfl, List.rtakeWhile_concat_pos _ _ _ isObject, mergeAll_concat,
        mergeValues_resolve values orderedLast]
    | false => rw [if_neg Bool.false_ne_true, mergeValues_of_plain isObject]

theorem ordered_of_mem_given {key : String} {sources : List ConfigObject} {value : Json}
    (member : value ∈ given key sources) : Ordered value := by
  obtain ⟨source, -, found⟩ := List.mem_filterMap.1 member
  exact (ordered_object_iff.1 source.ordered).2 key value found

/-- A value that is no object makes what came before it forgotten. -/
theorem mergeGiven_of_plain {value : Json} (isPlain : value.isObject = false) (before : Option Json)
    (after : List Json) : mergeGiven before (value :: after) = mergeGiven (some value) after := by
  rw [mergeGiven, List.foldl_cons, mergeEntry, mergeValues_of_plain isPlain]
  rfl

theorem mergeGiven_append (before : Option Json) (values after : List Json) :
    mergeGiven before (values ++ after) = mergeGiven (mergeGiven before values) after := by
  simp [mergeGiven]

theorem isSome_mergeGiven (before : Option Json) (values : List Json) :
    (mergeGiven before values).isSome = true ↔ before.isSome = true ∨ values ≠ [] := by
  induction values generalizing before with
  | nil => simp [mergeGiven]
  | cons value rest ih =>
    rw [mergeGiven, List.foldl_cons, ← mergeGiven, ih]
    simp [mergeEntry]

/-- **The merged configuration.**  It is an object with the keys of the sources, and each key is what
the values given to it resolve to.  So a source that does not give a key leaves it as it is; one that
gives it a value that is no object (`null`, too) replaces what the lower ones gave, whatever comes
after; and a source merged twice in a row is merged once. -/
theorem merged_by_precedence (sources : List ConfigObject) :
    (∃ merged : ConfigObject, merge sources = merged.value) ∧
    (∀ key, ((merge sources).get key).isSome = true ↔
      ∃ source ∈ sources, (source.value.get key).isSome = true) ∧
    (∀ key, (merge sources).get key = resolve (given key sources)) ∧
    (∀ higher : ConfigObject, ∀ key, higher.value.get key = none →
      (merge (sources ++ [higher])).get key = (merge sources).get key) ∧
    (∀ higher : ConfigObject, ∀ key value, higher.value.get key = some value →
      value.isObject = false → (merge (sources ++ [higher])).get key = some value ∧
        ∀ after, (merge (sources ++ higher :: after)).get key = (merge (higher :: after)).get key) ∧
    ∀ source after, merge (sources ++ source :: source :: after) =
      merge (sources ++ source :: after) := by
  refine ⟨?_, fun key => ?_, fun key => ?_, fun higher key absent => ?_,
    fun higher key value found isPlain => ⟨?_, fun after => ?_⟩, fun source after => ?_⟩
  · obtain ⟨merged, isMerged, -⟩ := merge_eq sources
    exact ⟨merged, isMerged⟩
  · rw [get_merge, isSome_mergeGiven]
    simp [given, List.filterMap_eq_nil_iff, Option.isSome_iff_ne_none]
  · rw [get_merge, mergeGiven_eq_resolve fun value member => ordered_of_mem_given member]
  · rw [get_merge, get_merge]
    simp [given, absent]
  · rw [get_merge]
    simp [given, found, mergeGiven_append, mergeGiven_of_plain isPlain]
    rfl
  · rw [get_merge, get_merge]
    simp [given, found, mergeGiven_append, mergeGiven_of_plain isPlain]
  · obtain ⟨merged, isMerged, -⟩ := merge_eq sources
    rw [merge_append, merge_append, isMerged]
    simp only [List.map_cons, List.foldl_cons]
    rw [mergeValues_twice merged.ordered_value source.ordered_value]

-- below the replaced `http`, the port of the first source is forgotten
example : mergeAll [.object [("http", .object [("port", .bool true)]), ("name", .string "a")],
      .object [("http", .null)], .object [("http", .object [("host", .string "b")])]] =
    .object [("http", .object [("host", .string "b")]), ("name", .string "a")] := by
  rfl

end Rustee.Config
