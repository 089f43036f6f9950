/-
# Rustee.Core.PathParameters -- the values of route parameters

The `Path` extractor of `rustee-core/src/extract/parameters.rs`.  A value is the raw segment of the
path.  A test of its escapes comes first, because `percent_decode_str` passes over what is no
escape; then the bytes are decoded, read as UTF-8, and handed to the deserializer through a form
encoding.

`decodePathParameter_eq_ok` says what the first three do together: a value is accepted exactly when
it is a percent encoding of a text, and gives that text.  The form encoding is taken to be
reversible (`FormCodec`), as `url` and `serde_urlencoded` are on pairs.
-/
import Rustee.Foundation.FormUrlencoded
import Rustee.Router.Pattern

namespace Rustee.Core

open Rustee.Foundation
open Rustee.Router (Segment RoutePattern RouteParams)
open Rustee.Router.RoutePattern (parameterNames)

set_option autoImplicit false

structure Error where
  status : Nat
  message : String
  deriving DecidableEq, Repr

def Error.badRequest (message : String) : Error := ⟨400, message⟩

/-! ## One value -/

def isAsciiHexdigit (byte : UInt8) : Bool :=
  (48 ≤ byte && byte ≤ 57) || (97 ≤ byte && byte ≤ 102) || (65 ≤ byte && byte ≤ 70)

/-- `has_valid_percent_encoding`, with what is left of the bytes for the index. -/
def hasValidPercentEncoding : List UInt8 → Bool
  | [] => true
  | 37 :: high :: low :: rest =>
    isAsciiHexdigit high && isAsciiHexdigit low && hasValidPercentEncoding rest
  | byte :: rest => byte ≠ 37 && hasValidPercentEncoding rest

/-- `percent_decode_str`: a percent sign without two digits stays. -/
def percentDecodeStr : List UInt8 → List UInt8
  | [] => []
  | 37 :: high :: low :: rest =>
    match hexValue high, hexValue low with
    | some first, some second => (first * 16 + second) :: percentDecodeStr rest
    | _, _ => 37 :: percentDecodeStr (high :: low :: rest)
  | byte :: rest => byte :: percentDecodeStr rest

def decodePathParameter (value : Text) : Except Error Text :=
  if !hasValidPercentEncoding value.bytes then .error (.badRequest "invalid path parameters")
  else
    match Text.fromUtf8 (percentDecodeStr value.bytes) with
    | none => .error (.badRequest "invalid path parameters")
    | some text => .ok text

/-! ## The extractor -/

/-- `form_urlencoded::Serializer`, and the pairs that `serde_urlencoded` reads back. -/
structure FormCodec where
  serialize : List (Text × Text) → Text
  parse : Text → List (Text × Text)
  inverse : ∀ pairs, parse (serialize pairs) = pairs

def putPair (map : Text → Option Text) (pair : Text × Text) : Text → Option Text :=
  Function.update map pair.1 (some pair.2)

/-- A map of strings, as `serde` collects it. -/
def collectMap (pairs : List (Text × Text)) : Option (Text → Option Text) :=
  some (pairs.foldl putPair fun _ => none)

/-- The values of a struct with these fields: each must be there once, others are ignored. -/
def collectStruct (fields : List Text) (pairs : List (Text × Text)) : Option (List Text) :=
  fields.mapM fun field =>
    match pairs.filter fun pair => pair.1 = field with
    | [pair] => some pair.2
    | _ => none

/-- `Path::from_request`; `deserialize` is the target's. -/
def Path.fromRequest {T : Type} (codec : FormCodec) (deserialize : List (Text × Text) → Option T)
    (params : RouteParams) : Except Error T :=
  match params.mapM fun pair => (decodePathParameter pair.2).map (Prod.mk pair.1) with
  | .error error => .error error
  | .ok pairs =>
    match deserialize (codec.parse (codec.serialize pairs)) with
    | none => .error (.badRequest "invalid path parameters")
    | some value => .ok value

/-! ## What one value decodes to -/

theorem isAsciiHexdigit_eq (byte : UInt8) : isAsciiHexdigit byte = (hexValue byte).isSome := by
  unfold isAsciiHexdigit hexValue
  split_ifs <;> simp_all

theorem hexValue_combine {high low first second : UInt8} (isFirst : hexValue high = some first)
    (isSecond : hexValue low = some second) :
    first <<< 4 ||| second = first * (16 : UInt8) + second := by
  have table : ∀ one other : Fin 16, UInt8.ofNat one <<< 4 ||| UInt8.ofNat other =
      UInt8.ofNat one * (16 : UInt8) + UInt8.ofNat other := by decide +kernel
  have value := table ⟨first.toNat, (isHexDigit_of_hexValue isFirst).lt⟩
    ⟨second.toNat, (isHexDigit_of_hexValue isSecond).lt⟩
  simpa only [UInt8.ofNat_toNat] using value

/-- After the test, decoding takes every percent sign for an escape. -/
theorem percentDecode_of_valid (bytes : List UInt8) : percentDecode bytes =
    if hasValidPercentEncoding bytes = true then some (percentDecodeStr bytes) else none := by
  induction bytes using hasValidPercentEncoding.induct with
  | case1 => rfl
  | case2 high low rest ih =>
    rw [percentDecode, hasValidPercentEncoding, percentDecodeStr, ih, isAsciiHexdigit_eq,
      isAsciiHexdigit_eq]
    cases isFirst : hexValue high with
    | none => simp
    | some first =>
      cases isSecond : hexValue low with
      | none => simp
      | some second =>
        cases hasValidPercentEncoding rest with
        | false => simp
        | true => simp [hexValue_combine isFirst isSecond]
  | case3 byte rest shape ih =>
    have once : percentDecode (byte :: rest) =
        if byte = 37 then none else (percentDecode rest).map (byte :: ·) := by
      rw [percentDecode]
      exact shape
    have tested : hasValidPercentEncoding (byte :: rest) =
        (decide (byte ≠ 37) && hasValidPercentEncoding rest) := by
      rw [hasValidPercentEncoding]
      exact shape
    have decoded : percentDecodeStr (byte :: rest) = byte :: percentDecodeStr rest := by
      rw [percentDecodeStr]
      exact shape
    rw [once, tested, decoded, ih]
    by_cases percent : byte = 37
    · simp [percent]
    · cases hasValidPercentEncoding rest <;> simp [percent]

theorem decodePathParameter_eq_ok {value text : Text} :
    decodePathParameter value = .ok text ↔ PercentEncodes value.bytes text.bytes := by
  rw [← percentDecode_eq_some, percentDecode_of_valid, decodePathParameter]
  cases hasValidPercentEncoding value.bytes with
  | false => simp
  | true =>
    simp only [Bool.not_true, Bool.false_eq_true, if_false, if_true, Option.some.injEq]
    rw [← Text.fromUtf8_eq_some]
    cases Text.fromUtf8 (percentDecodeStr value.bytes) <;> simp

/-! ## What a request gives -/

/-- A template with the values of its parameters put in, in order. -/
def fillParameters : List Segment → List Text → List Text
  | [], _ => []
  | .static text :: rest, values => text :: fillParameters rest values
  | .parameter _ :: rest, value :: values => value :: fillParameters rest values
  | .parameter _ :: _, [] => []

variable {values texts : List Text} {pairs : List (Text × Text)}

theorem matchSegments_fill {kinds : List Segment} (params : RouteParams)
    (count : values.length = (parameterNames kinds).length) :
    RoutePattern.matchSegments kinds (fillParameters kinds values) params =
      some (params ++ (parameterNames kinds).zip values) := by
  induction kinds generalizing values params with
  | nil => simp [fillParameters, RoutePattern.matchSegments, parameterNames]
  | cons kind rest ih =>
    cases kind with
    | static text => simpa [fillParameters, RoutePattern.matchSegments, parameterNames,
        List.filterMap_cons, Segment.parameterName] using ih params count
    | parameter name =>
      cases values with
      | nil => simp [parameterNames, Segment.parameterName] at count
      | cons value values =>
        have fewer : values.length = (parameterNames rest).length := by
          simpa [parameterNames, Segment.parameterName] using count
        simp [fillParameters, RoutePattern.matchSegments, parameterNames, Segment.parameterName,
          ih _ fewer]

theorem mapM_decode {names : List Text}
    (encoded : List.Forall₂ (fun value text => PercentEncodes (Text.bytes value) (Text.bytes text))
      values texts) :
    (names.zip values).mapM (fun pair => (decodePathParameter pair.2).map (Prod.mk pair.1)) =
      .ok (names.zip texts) := by
  induction encoded generalizing names with
  | nil => simp [pure, Except.pure]
  | cons first _ ih =>
    cases names with
    | nil => simp [pure, Except.pure]
    | cons name others =>
      rw [List.zip_cons_cons, List.mapM_cons, decodePathParameter_eq_ok.2 first, ih]
      rfl

theorem fromRequest_eq {T : Type} (codec : FormCodec) (deserialize : List (Text × Text) → Option T)
    {names : List Text}
    (encoded : List.Forall₂ (fun value text => PercentEncodes (Text.bytes value) (Text.bytes text))
      values texts)
    {result : T} (read : deserialize (names.zip texts) = some result) :
    Path.fromRequest codec deserialize (names.zip values) = .ok result := by
  rw [Path.fromRequest, mapM_decode encoded]
  simp only [codec.inverse, read]

theorem isSegment_of_encodes (nonempty : ∀ text ∈ texts, text ≠ [])
    (encoded : List.Forall₂
      (fun value text => '/' ∉ value ∧ PercentEncodes (Text.bytes value) (Text.bytes text))
      values texts) :
    ∀ value ∈ values, IsSegment '/' value := by
  induction encoded with
  | nil => simp
  | @cons value text _ _ both _ ih =>
    obtain ⟨mine, others⟩ := List.forall_mem_cons.1 nonempty
    refine List.forall_mem_cons.2 ⟨⟨?_, both.1⟩, ih others⟩
    rintro rfl
    have noBytes : Text.bytes [] = Text.bytes text := Option.some.inj (percentDecode_eq_some.2 both.2)
    exact mine (Option.some.inj ((Text.fromUtf8_eq_some.2 noBytes).symm.trans
      (Text.fromUtf8_eq_some.2 rfl)))

/-- The segments of a template with values in it can stand in a path. -/
theorem filled_path {template : Text} {pattern : RoutePattern}
    (isPattern : RoutePattern.parse template = .ok pattern)
    (areSegments : ∀ value ∈ values, IsSegment '/' value) :
    ∀ piece ∈ fillParameters pattern.segments values, IsSegment '/' piece := by
  have areTemplates := RoutePattern.isTemplate_of_parse isPattern
  generalize pattern.segments = kinds at areTemplates ⊢
  induction kinds generalizing values with
  | nil => simp [fillParameters]
  | cons kind rest ih =>
    obtain ⟨mine, others⟩ := List.forall_mem_cons.1 areTemplates
    cases kind with
    | static text => exact List.forall_mem_cons.2 ⟨mine, ih areSegments others⟩
    | parameter name =>
      cases values with
      | nil => simp [fillParameters]
      | cons value values =>
        obtain ⟨first, more⟩ := List.forall_mem_cons.1 areSegments
        exact List.forall_mem_cons.2 ⟨first, ih more others⟩

/-! ## Maps and structs -/

theorem foldl_putPair (keys : (pairs.map Prod.fst).Nodup) (start : Text → Option Text) :
    (∀ pair ∈ pairs, pairs.foldl putPair start pair.1 = some pair.2) ∧
      ∀ name ∉ pairs.map Prod.fst, pairs.foldl putPair start name = start name := by
  induction pairs generalizing start with
  | nil => simp
  | cons pair rest ih =>
    rw [List.map_cons, List.nodup_cons] at keys
    obtain ⟨found, others⟩ := ih keys.2 (putPair start pair)
    constructor
    · refine List.forall_mem_cons.2 ⟨?_, found⟩
      rw [List.foldl_cons, others _ keys.1, putPair, Function.update_self]
    · intro name absent
      rw [List.map_cons, List.mem_cons, not_or] at absent
      rw [List.foldl_cons, others _ absent.2, putPair, Function.update_of_ne absent.1]

theorem filter_key (keys : (pairs.map Prod.fst).Nodup) {pair : Text × Text} (member : pair ∈ pairs) :
    pairs.filter (fun other => other.1 = pair.1) = [pair] := by
  induction pairs with
  | nil => cases member
  | cons first rest ih =>
    rw [List.map_cons, List.nodup_cons] at keys
    have elsewhere : ∀ other ∈ rest, other.1 ≠ first.1 :=
      fun other isOther same => keys.1 (same ▸ List.mem_map_of_mem isOther)
    rcases List.mem_cons.1 member with rfl | member
    · simpa using elsewhere
    · rw [List.filter_cons_of_neg (by simpa using (elsewhere pair member).symm), ih keys.2 member]

theorem collectStruct_eq (keys : (pairs.map Prod.fst).Nodup) {fields : List Text}
    (there : ∀ field ∈ fields, field ∈ pairs.map Prod.fst) :
    ∃ strings, collectStruct fields pairs = some strings ∧
      List.Forall₂ (fun field string => (field, string) ∈ pairs) fields strings := by
  induction fields with
  | nil => exact ⟨[], rfl, .nil⟩
  | cons field rest ih =>
    obtain ⟨mine, others⟩ := List.forall_mem_cons.1 there
    obtain ⟨pair, member, rfl⟩ := List.mem_map.1 mine
    obtain ⟨strings, collected, all⟩ := ih others
    refine ⟨pair.2 :: strings, ?_, .cons member all⟩
    rw [collectStruct] at collected ⊢
    rw [List.mapM_cons, collected, filter_key keys member]
    rfl

/-! ## Failures -/

theorem decodePathParameter_error {value : Text}
    (refused : ¬∃ text, PercentEncodes value.bytes (Text.bytes text)) :
    decodePathParameter value = .error (.badRequest "invalid path parameters") := by
  unfold decodePathParameter
  split
  · rfl
  · rename_i valid
    split
    · rfl
    · rename_i text isText
      refine absurd ⟨text, decodePathParameter_eq_ok.1 ?_⟩ refused
      simp [decodePathParameter, valid, isText]

theorem fromRequest_error {T : Type} (codec : FormCodec) (deserialize : List (Text × Text) → Option T)
    {params : RouteParams} {pair : Text × Text} (member : pair ∈ params)
    (refused : ¬∃ text, PercentEncodes (Text.bytes pair.2) (Text.bytes text)) :
    Path.fromRequest codec deserialize params = .error (.badRequest "invalid path parameters") := by
  have failed : params.mapM (fun pair => (decodePathParameter pair.2).map (Prod.mk pair.1)) =
      .error (.badRequest "invalid path parameters") := by
    induction params with
    | nil => cases member
    | cons first rest ih =>
      rw [List.mapM_cons]
      by_cases encodes : ∃ text, PercentEncodes (Text.bytes first.2) (Text.bytes text)
      · obtain ⟨text, encodes⟩ := encodes
        have later : pair ∈ rest := by
          refine (List.mem_cons.1 member).resolve_left ?_
          rintro rfl
          exact refused ⟨text, encodes⟩
        rw [decodePathParameter_eq_ok.2 encodes, ih later]
        rfl
      · rw [decodePathParameter_error encodes]
        rfl
  rw [Path.fromRequest, failed]

/-- **Route parameters are decoded exactly once.**  Every encoding of texts fits into a path; every
path with such segments gives the texts themselves; and a value that is no percent encoding, or one
of bytes that are not UTF-8, is refused. -/
theorem parameters_decoded_once (codec : FormCodec) :
    (∀ template pattern, RoutePattern.parse template = .ok pattern → ∀ values texts : List Text,
      (∀ text ∈ texts, text ≠ []) →
      List.Forall₂ (fun value text =>
        '/' ∉ value ∧ PercentEncodes (Text.bytes value) (Text.bytes text)) values texts →
      values.length = (parameterNames pattern.segments).length →
      (∃ path, ¬Repeats '/' path ∧ segments '/' path = fillParameters pattern.segments values) ∧
      ∀ path, ¬Repeats '/' path → segments '/' path = fillParameters pattern.segments values →
        ∃ params, pattern.matches_ path = some params ∧
          (∃ map, Path.fromRequest codec collectMap params = .ok map ∧
            (∀ pair ∈ (parameterNames pattern.segments).zip texts, map pair.1 = some pair.2) ∧
            ∀ name ∉ parameterNames pattern.segments, map name = none) ∧
          ∀ fields, (∀ field ∈ fields, field ∈ parameterNames pattern.segments) →
            ∃ strings, Path.fromRequest codec (collectStruct fields) params = .ok strings ∧
              List.Forall₂ (fun field string =>
                (field, string) ∈ (parameterNames pattern.segments).zip texts) fields strings) ∧
    ∀ (T : Type) (deserialize : List (Text × Text) → Option T) (params : RouteParams),
      (∃ pair ∈ params, (∀ bytes, ¬PercentEncodes (Text.bytes pair.2) bytes) ∨
        ∃ bytes, PercentEncodes (Text.bytes pair.2) bytes ∧ Text.fromUtf8 bytes = none) →
      Path.fromRequest codec deserialize params = .error (.badRequest "invalid path parameters") := by
  constructor
  · intro template pattern isPattern values texts nonempty encoded count
    have areSegments := isSegment_of_encodes nonempty encoded
    have unslashed := encoded.imp fun value text both => both.2
    refine ⟨⟨render '/' (fillParameters pattern.segments values), ?_, ?_⟩, fun path once filled => ?_⟩
    · rw [← List.append_nil (render '/' _),
        repeats_render_append_iff (filled_path isPattern areSegments)]
      exact of_decide_eq_false rfl
    · exact segments_render (filled_path isPattern areSegments)
    · have keys : ((parameterNames pattern.segments).zip texts).map Prod.fst =
          parameterNames pattern.segments := by
        rw [List.map_fst_zip]
        rw [← encoded.length_eq, count]
      have nodup : (((parameterNames pattern.segments).zip texts).map Prod.fst).Nodup := by
        rw [keys]
        exact RoutePattern.nodup_parameterNames isPattern
      refine ⟨(parameterNames pattern.segments).zip values, ?_, ?_, ?_⟩
      · rw [RoutePattern.matches_eq_some, filled]
        exact ⟨once, by simpa using matchSegments_fill [] count⟩
      · obtain ⟨found, others⟩ := foldl_putPair nodup fun _ => none
        rw [keys] at others
        exact ⟨_, fromRequest_eq codec collectMap unslashed rfl, found, others⟩
      · intro fields there
        obtain ⟨strings, collected, all⟩ := collectStruct_eq nodup (keys.symm ▸ there)
        exact ⟨strings, fromRequest_eq codec _ unslashed collected, all⟩
  · rintro T deserialize params ⟨pair, member, refused⟩
    refine fromRequest_error codec deserialize member ?_
    rintro ⟨text, encodes⟩
    rcases refused with malformed | ⟨bytes, encodes', notUtf8⟩
    · exact malformed _ encodes
    · have same := (percentDecode_eq_some.2 encodes).symm.trans (percentDecode_eq_some.2 encodes')
      rw [← Option.some.inj same, Text.fromUtf8_eq_some.2 rfl] at notUtf8
      cases notUtf8

def formCodec : FormCodec := ⟨Form.serialize, Form.parse, Form.parse_serialize⟩

/-- A slash, a plus sign and a percent sign. -/
theorem parameters_decoded_once_file : ∃ pattern params map,
    RoutePattern.parse "/files/:name".toList = .ok pattern ∧
      pattern.matches_ "/files/a%2fb+%25".toList = some params ∧
      formCodec.serialize [("name".toList, "a/b+%".toList)] = "name=a%2Fb%2B%25".toList ∧
      Path.fromRequest formCodec collectMap params = .ok map ∧
      map "name".toList = some "a/b+%".toList ∧
      Path.fromRequest formCodec collectMap [("name".toList, "%2".toList)] =
        .error (.badRequest "invalid path parameters") := by
  have isPattern : RoutePattern.parse "/files/:name".toList =
      .ok ⟨[.static "files".toList, .parameter "name".toList], 1⟩ := by decide +kernel
  have encodes : PercentEncodes (Text.bytes "a%2fb+%25".toList) (Text.bytes "a/b+%".toList) :=
    percentDecode_eq_some.1 (by decide +kernel)
  obtain ⟨decoded, refused⟩ := parameters_decoded_once formCodec
  obtain ⟨-, matched⟩ := decoded _ _ isPattern ["a%2fb+%25".toList] ["a/b+%".toList] (by decide +kernel)
    (.cons ⟨by decide +kernel, encodes⟩ .nil) rfl
  obtain ⟨params, isMatch, ⟨map, read, found, -⟩, -⟩ := matched "/files/a%2fb+%25".toList
    (by decide +kernel) (by decide +kernel)
  refine ⟨_, params, map, isPattern, isMatch, by decide +kernel, read, found _ List.mem_cons_self, ?_⟩
  refine refused _ _ _ ⟨_, List.mem_cons_self, .inl fun bytes encodes => ?_⟩
  have none : percentDecode (Text.bytes "%2".toList) = none := by decide +kernel
  rw [percentDecode_eq_some.2 encodes] at none
  cases none

end Rustee.Core
