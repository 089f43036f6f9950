/-
# Rustee.Static.Range -- byte ranges: which bytes of a file a request asks for

`rustee-static/src/range.rs`.  The members of a range set are read one by one against the length of
the file; those that ask for some byte are sorted, and ranges that overlap or touch become one.

`parse_range_set_normalized` says what comes out for any text: disjoint ranges in order that are
exactly the bytes the members denote, or a refusal and why.  A member is checked only as far as its
own first byte is inside the file, and a number may have a plus sign; `strict_iff` says for which
sets of members this shows.
-/
import Rustee.Foundation.Chars
import Rustee.Foundation.Stretches

namespace Rustee.Static

set_option autoImplicit false

open Rustee.Foundation

def u64Max : Nat := 18446744073709551615

def maxMultipartRanges : Nat := 16

def maxRangeMembers : Nat := 64

/-- `last` is the source's `end`. -/
abbrev ByteRange := Stretch

def ByteRange.len (range : ByteRange) : Option Nat := do
  let span ← checkedSub range.last range.start
  checkedAdd u64Max span 1

inductive RequestedRange where
  | full
  | partialRange (range : ByteRange)
  | multipart (ranges : List ByteRange)
  | unsatisfiable
  deriving DecidableEq, Repr

/-! ## One member -/

/-- What is made of a member: nothing if arithmetic leaves `u64`. -/
abbrev MemberResult := Option (Except Unit (Option ByteRange))

/-- `str::parse::<u64>`. -/
def parseU64 (text : Text) : Option Nat := Text.parseUnsigned u64Max text

def suffixRange (suffixLength length : Nat) : MemberResult :=
  if suffixLength = 0 ∨ length = 0 then some (.ok none)
  else do
    let last ← checkedSub length 1
    some (.ok (some ⟨length - suffixLength, last⟩))

/-- The last byte of a range whose first byte is in the file. -/
def lastByte (last : Text) (length : Nat) : Option (Except Unit Nat) :=
  if last.isEmpty then (checkedSub length 1).map .ok
  else
    match parseU64 last with
    | none => some (.error ())
    | some last => (checkedSub length 1).map fun bound => .ok (min last bound)

def boundedRange (start : Nat) (last : Text) (length : Nat) : MemberResult :=
  if start ≥ length then some (.ok none)
  else do
    match ← lastByte last length with
    | .error () => some (.error ())
    | .ok last => if last < start then some (.error ()) else some (.ok (some ⟨start, last⟩))

def parseRangeMember (specifier : Text) (length : UInt64) : MemberResult :=
  match Text.splitOnce '-' specifier with
  | none => some (.error ())
  | some (start, last) =>
    if start.isEmpty then
      match parseU64 last with
      | none => some (.error ())
      | some suffixLength => suffixRange suffixLength length.toNat
    else
      match parseU64 start with
      | none => some (.error ())
      | some start => boundedRange start last length.toNat

/-! ## The set -/

/-- The loop over the members, which may return early. -/
def collectRanges (length : UInt64) : Nat → List Text → List ByteRange →
    Option (Except RequestedRange (List ByteRange))
  | _, [], ranges => some (.ok ranges)
  | index, specifier :: rest, ranges =>
    if index ≥ maxRangeMembers then some (.error .unsatisfiable)
    else
      match parseRangeMember (Text.trim specifier) length with
      | none => none
      | some (.ok (some range)) => collectRanges length (index + 1) rest (ranges ++ [range])
      | some (.ok none) => collectRanges length (index + 1) rest ranges
      | some (.error ()) => some (.error .unsatisfiable)

/-- The order of the keys `(start, end)`. -/
def InOrder (one other : ByteRange) : Prop :=
  one.start < other.start ∨ (one.start = other.start ∧ one.last ≤ other.last)

instance : DecidableRel InOrder := fun one other =>
  inferInstanceAs (Decidable (one.start < other.start ∨ (one.start = other.start ∧ one.last ≤ other.last)))

/-- The next range is merged into the last one so far, which stands first. -/
def mergeRange : List ByteRange → ByteRange → List ByteRange
  | [], range => [range]
  | previous :: earlier, range =>
    if range.start ≤ min (previous.last + 1) u64Max then
      { previous with last := max previous.last range.last } :: earlier
    else range :: previous :: earlier

/-- Equal keys are equal ranges, so that there is one sorted list. -/
def normalize (ranges : List ByteRange) : List ByteRange :=
  ((ranges.insertionSort InOrder).foldl mergeRange []).reverse

def selectRanges (ranges : List ByteRange) : RequestedRange :=
  if ranges.isEmpty then .unsatisfiable
  else if (normalize ranges).length > maxMultipartRanges then .unsatisfiable
  else
    match normalize ranges with
    | [range] => .partialRange range
    | normalized => .multipart normalized

def parseRangeSet (specifier : Text) (length : UInt64) : Option RequestedRange := do
  match ← collectRanges length 0 (specifier.splitOn ',') [] with
  | .error result => some result
  | .ok ranges => some (selectRanges ranges)

/-! ## The headers -/

/-- Of the validators, what `If-Range` is compared with: nanoseconds since the epoch. -/
structure CacheValidators where
  modified : Int

def truncateToSeconds (modified : Int) : Option Int :=
  if modified < 0 then none else some (modified / 1000000000 * 1000000000)

/-- The values of a header, each a text if it is visible ASCII. -/
abbrev HeaderValues := List (Option Text)

section

-- `httpdate::parse_http_date`
variable (parseHttpDate : Text → Option Int)

def ifRangeMatches (values : HeaderValues) (validators : Option CacheValidators) : Bool :=
  match values, validators with
  | [], _ => true
  | [some value], some validators =>
    match parseHttpDate value, truncateToSeconds validators.modified with
    | some date, some modified => modified ≤ date
    | _, _ => false
  | _, _ => false

def requestedRange (range ifRange : HeaderValues) (length : UInt64)
    (validators : Option CacheValidators) : Option RequestedRange :=
  match range with
  | [] => some .full
  | [some value] =>
    match Text.splitOnce '=' (Text.trim value) with
    | none => some .unsatisfiable
    | some (unit, specifier) =>
      if Text.toAsciiLowercase unit ≠ "bytes".toList then some .full
      else if !ifRangeMatches parseHttpDate ifRange validators then some .full
      else parseRangeSet (Text.trim specifier) length
  | _ => some .unsatisfiable

end

/-! ## What a member denotes -/

inductive Member where
  /-- `first-last` -/
  | bounded (first last : Nat)
  /-- `first-` -/
  | tail (first : Nat)
  /-- `-count` -/
  | suffix (count : Nat)
  deriving DecidableEq, Repr

/-- The bytes of a file of that length that a member asks for. -/
def Member.Asks (length : Nat) : Member → Nat → Prop
  | .bounded first last, byte => byte < length ∧ first ≤ byte ∧ byte ≤ last
  | .tail first, byte => byte < length ∧ first ≤ byte
  | .suffix count, byte => byte < length ∧ length ≤ byte + count

instance (length : Nat) (member : Member) (byte : Nat) : Decidable (member.Asks length byte) :=
  match member with
  | .bounded _ _ | .tail _ | .suffix _ => inferInstanceAs (Decidable (_ ∧ _))

/-- A member as it is written, whatever file it is about. -/
def readMember (specifier : Text) : Option Member := do
  let (start, last) ← Text.splitOnce '-' specifier
  if start.isEmpty then (parseU64 last).map .suffix
  else do
    let first ← parseU64 start
    if last.isEmpty then some (.tail first) else (parseU64 last).map (.bounded first)

/-- The texts of the members, without the blanks around them. -/
def members (specifier : Text) : List Text := (specifier.splitOn ',').map Text.trim

/-- The bytes that some member asks for. -/
def Asked (specifier : Text) (length : Nat) (byte : Nat) : Prop :=
  ∃ text ∈ members specifier, ∃ member ∈ readMember text, member.Asks length byte

instance (specifier : Text) (length : Nat) : DecidablePred (Asked specifier length) := fun byte =>
  inferInstanceAs (Decidable (∃ text ∈ members specifier, ∃ member ∈ readMember text,
    member.Asks length byte))

/-- The result says which bytes, if any, are asked for. -/
structure Denotes (length : Nat) (member : Option Member) (range : Option ByteRange) : Prop where
  inside : ∀ found ∈ range, found.start ≤ found.last ∧ found.last < length
  bytes : ∀ byte, (∃ found ∈ range, found.Contains byte) ↔ ∃ asked ∈ member, asked.Asks length byte

theorem suffixRange_denotes {count length : Nat} :
    ∃ range, suffixRange count length = some (.ok range) ∧
      Denotes length (some (.suffix count)) range := by
  unfold suffixRange
  split_ifs with nothing
  · refine ⟨none, rfl, by simp, fun byte => ?_⟩
    simp [Member.Asks]
    omega
  · push Not at nothing
    rw [checkedSub, if_pos (by omega)]
    refine ⟨_, rfl, ?_, fun byte => ?_⟩
    · simp
      omega
    · simp [Member.Asks, Stretch.Contains]
      omega

/-- A file that ends before the first byte of the range has nothing of it, however it goes on. -/
theorem denotes_none {start length : Nat} {member : Option Member} (outside : length ≤ start)
    (shape : ∀ found ∈ member, found = .tail start ∨ ∃ last, found = .bounded start last) :
    Denotes length member none := by
  refine ⟨by simp, fun byte => ⟨by simp, ?_⟩⟩
  rintro ⟨found, isFound, asks⟩
  rcases shape found isFound with rfl | ⟨last, rfl⟩
  · simp only [Member.Asks] at asks
    omega
  · simp only [Member.Asks] at asks
    omega

/-- Whether the text is refused for a file of that length. -/
def refuses (length : Nat) (text : Text) : Bool :=
  match Text.splitOnce '-' text with
  | none => true
  | some (start, last) =>
    if start.isEmpty then (parseU64 last).isNone
    else
      match parseU64 start with
      | none => true
      | some first => first < length && !last.isEmpty && (parseU64 last).all fun last => last < first

/-- The rest of a member whose first byte is a number. -/
def readRest (first : Nat) (last : Text) : Option Member :=
  if last.isEmpty then some (.tail first) else (parseU64 last).map (.bounded first)

theorem boundedRange_spec (start : Nat) (last : Text) (length : Nat) :
    if start < length ∧ last.isEmpty = false ∧ ((parseU64 last).all fun last => last < start) = true then
      boundedRange start last length = some (.error ())
    else ∃ range, boundedRange start last length = some (.ok range) ∧
      Denotes length (readRest start last) range := by
  rw [boundedRange]
  by_cases outside : length ≤ start
  · rw [if_neg (fun both => absurd both.1 (Nat.not_lt.2 outside)), if_pos outside]
    refine ⟨none, rfl, denotes_none outside fun found isFound => ?_⟩
    unfold readRest at isFound
    split_ifs at isFound
    · exact .inl (Option.some.inj isFound).symm
    · obtain ⟨last, -, same⟩ := Option.map_eq_some_iff.1 isFound
      exact .inr ⟨last, same.symm⟩
  · have inside : start < length := Nat.lt_of_not_le outside
    have bound : checkedSub length 1 = some (length - 1) := if_pos (by omega)
    rw [if_neg outside]
    cases empty : last.isEmpty with
    | true =>
      rw [if_neg (by simp)]
      simp only [lastByte, empty, if_true, bound, readRest]
      refine ⟨some ⟨start, length - 1⟩, ?_, ?_, fun byte => ?_⟩
      · simp
        omega
      · simp
        omega
      · simp [Member.Asks, Stretch.Contains]
        omega
    | false =>
      cases number : parseU64 last with
      | none => simp [lastByte, empty, number, inside]
      | some value =>
        simp only [lastByte, empty, number, bound, readRest, Bool.false_eq_true, if_false,
          Option.map_some, Option.all_some, decide_eq_true_eq, inside, true_and]
        by_cases reversed : value < start
        · have early : min value (length - 1) < start := by omega
          simp [reversed, early]
        · have late : ¬min value (length - 1) < start := by omega
          rw [if_neg reversed]
          refine ⟨some ⟨start, min value (length - 1)⟩, by simp [late], ?_, fun byte => ?_⟩
          · simp
            omega
          · simp [Member.Asks, Stretch.Contains]
            omega

/-- **A member** is refused, or gives the bytes it asks for. -/
theorem parseRangeMember_spec (text : Text) (length : UInt64) :
    if refuses length.toNat text = true then parseRangeMember text length = some (.error ())
    else ∃ range, parseRangeMember text length = some (.ok range) ∧
      Denotes length.toNat (readMember text) range := by
  unfold refuses parseRangeMember readMember
  cases Text.splitOnce '-' text with
  | none => simp
  | some parts =>
    obtain ⟨start, last⟩ := parts
    simp only [Option.bind_eq_bind, Option.bind_some]
    cases start.isEmpty with
    | true =>
      cases parseU64 last with
      | none => simp
      | some count => simpa using suffixRange_denotes
    | false =>
      cases parseU64 start with
      | none => simp
      | some first => simpa [and_assoc, readRest] using boundedRange_spec first last length.toNat

/-- The range of a member that asks for some byte. -/
def satisfied (length : UInt64) (text : Text) : Option ByteRange :=
  match parseRangeMember text length with
  | some (.ok range) => range
  | _ => none

variable {length : UInt64} {text : Text} {range : ByteRange}

theorem parseRangeMember_of_refuses (refused : refuses length.toNat text = true) :
    parseRangeMember text length = some (.error ()) := by
  simpa [refused] using parseRangeMember_spec text length

theorem parseRangeMember_of_not_refuses (taken : refuses length.toNat text = false) :
    parseRangeMember text length = some (.ok (satisfied length text)) ∧
      Denotes length.toNat (readMember text) (satisfied length text) := by
  have spec := parseRangeMember_spec text length
  rw [taken, if_neg Bool.false_ne_true] at spec
  obtain ⟨range, parsed, denotes⟩ := spec
  rw [satisfied, parsed]
  exact ⟨rfl, denotes⟩

/-! ## What the members denote together -/

theorem collectRanges_spec (length : UInt64) {index : Nat} (texts : List Text)
    (ranges : List ByteRange) (counted : index ≤ maxRangeMembers) :
    collectRanges length index texts ranges =
      some (if (texts.any fun text => refuses length.toNat (Text.trim text)) = true ∨
          maxRangeMembers < index + texts.length then .error .unsatisfiable
        else .ok (ranges ++ texts.filterMap fun text => satisfied length (Text.trim text))) := by
  induction texts generalizing index ranges with
  | nil => simp [collectRanges, Nat.not_lt.2 counted]
  | cons text rest ih =>
    rw [collectRanges]
    by_cases full : maxRangeMembers ≤ index
    · have long : maxRangeMembers < index + (text :: rest).length := by
        rw [List.length_cons]
        omega
      rw [if_pos full, if_pos (.inr long)]
    · rw [if_neg full]
      have next : index + 1 ≤ maxRangeMembers := Nat.lt_of_not_le full
      have shifted : index + 1 + rest.length = index + (text :: rest).length := by
        rw [List.length_cons]
        omega
      cases refused : refuses length.toNat (Text.trim text) with
      | true => simp [parseRangeMember_of_refuses refused, refused]
      | false =>
        rw [(parseRangeMember_of_not_refuses refused).1]
        cases found : satisfied length (Text.trim text) with
        | none => simp only [ih _ next, shifted, List.any_cons, refused, Bool.false_or,
            List.filterMap_cons, found]
        | some range => simp only [ih _ next, shifted, List.any_cons, refused, Bool.false_or,
            List.filterMap_cons, found, List.append_assoc, List.singleton_append]

/-- The ranges of the members that ask for some byte. -/
def satisfiable (specifier : Text) (length : UInt64) : List ByteRange :=
  (members specifier).filterMap (satisfied length)

theorem parseRangeSet_eq (specifier : Text) (length : UInt64) :
    parseRangeSet specifier length =
      some (if ((members specifier).any (refuses length.toNat)) = true ∨
          maxRangeMembers < (members specifier).length then .unsatisfiable
        else selectRanges (satisfiable specifier length)) := by
  have start : 0 ≤ maxRangeMembers := Nat.zero_le _
  rw [parseRangeSet, collectRanges_spec length _ _ start]
  simp only [members, List.any_map, List.length_map, satisfiable, List.filterMap_map,
    Function.comp_def, List.nil_append, Nat.zero_add]
  split_ifs <;> rfl

section

variable {specifier : Text} {length : UInt64}

theorem satisfiable_inside (taken : ∀ text ∈ members specifier, refuses length.toNat text = false) :
    ∀ range ∈ satisfiable specifier length, range.start ≤ range.last ∧ range.last < length.toNat := by
  intro range member
  obtain ⟨text, isMember, found⟩ := List.mem_filterMap.1 member
  exact (parseRangeMember_of_not_refuses (taken text isMember)).2.inside range found

theorem covers_satisfiable (taken : ∀ text ∈ members specifier, refuses length.toNat text = false)
    (byte : Nat) :
    Stretch.Covers (satisfiable specifier length) byte ↔ Asked specifier length.toNat byte := by
  constructor
  · rintro ⟨range, member, contains⟩
    obtain ⟨text, isMember, found⟩ := List.mem_filterMap.1 member
    have denotes := (parseRangeMember_of_not_refuses (taken text isMember)).2
    exact ⟨text, isMember, (denotes.bytes byte).1 ⟨range, found, contains⟩⟩
  · rintro ⟨text, isMember, asked⟩
    have denotes := (parseRangeMember_of_not_refuses (taken text isMember)).2
    obtain ⟨range, found, contains⟩ := (denotes.bytes byte).2 asked
    exact ⟨range, List.mem_filterMap.2 ⟨text, isMember, found⟩, contains⟩

end

/-! ## Sorting and merging -/

instance : Std.Total InOrder where
  total one other := by
    unfold InOrder
    omega

instance : IsTrans ByteRange InOrder where
  trans one other third before after := by
    unfold InOrder at *
    omega

theorem mergeRange_eq {done : List ByteRange} (small : range.start ≤ u64Max) :
    mergeRange done range = Stretch.absorb done range := by
  cases done with
  | nil => rfl
  | cons previous earlier =>
    have saturated : range.start ≤ min (previous.last + 1) u64Max ↔
        range.start ≤ previous.last + 1 := by omega
    simp only [mergeRange, Stretch.absorb, saturated]

/-- The addition that saturates makes no difference to ranges of a file. -/
theorem normalize_eq {ranges : List ByteRange} (small : ∀ range ∈ ranges, range.start ≤ u64Max) :
    normalize ranges = Stretch.coalesce (ranges.insertionSort InOrder) := by
  rw [normalize, Stretch.coalesce]
  refine congrArg List.reverse (List.foldl_ext _ _ _ fun done range member => mergeRange_eq ?_)
  exact small range ((List.mem_insertionSort InOrder).1 member)

theorem normalize_spec {ranges : List ByteRange} {length : Nat} (inU64 : length ≤ u64Max)
    (inside : ∀ range ∈ ranges, range.start ≤ range.last ∧ range.last < length) :
    (∀ range ∈ normalize ranges, range.start ≤ range.last ∧ range.last < length) ∧
      (normalize ranges).Pairwise Stretch.Apart ∧
      ∀ byte, Stretch.Covers (normalize ranges) byte ↔ Stretch.Covers ranges byte := by
  have small : ∀ range ∈ ranges, range.start ≤ u64Max := fun range member => by
    have := inside range member
    omega
  have same (range : ByteRange) : range ∈ ranges.insertionSort InOrder ↔ range ∈ ranges :=
    List.mem_insertionSort InOrder
  have sorted : (ranges.insertionSort InOrder).Pairwise fun one other => one.start ≤ other.start := by
    refine (List.pairwise_insertionSort InOrder ranges).imp fun {one other} ordered => ?_
    unfold InOrder at ordered
    omega
  obtain ⟨proper, apart, covers⟩ := Stretch.coalesce_spec sorted fun range member =>
    (inside range ((same range).1 member)).1
  rw [normalize_eq small]
  have bytes (byte : Nat) : Stretch.Covers (Stretch.coalesce (ranges.insertionSort InOrder)) byte ↔
      Stretch.Covers ranges byte := by
    rw [covers]
    simp only [Stretch.Covers, same]
  refine ⟨fun range member => ⟨proper range member, ?_⟩, apart, bytes⟩
  obtain ⟨original, isOriginal, -, below⟩ :=
    (bytes range.last).1 ⟨range, member, proper range member, le_rfl⟩
  exact below.trans_lt (inside original isOriginal).2

/-! ## The result -/

/-- The ranges that are sent. -/
def RequestedRange.ranges : RequestedRange → Option (List ByteRange)
  | .partialRange range => some [range]
  | .multipart ranges => some ranges
  | .full | .unsatisfiable => none

/-- What the choice says about the ranges, which merge to at least one. -/
structure Selection (ranges : List ByteRange) (result : RequestedRange) : Prop where
  refused : result = .unsatisfiable ↔ ranges = [] ∨ maxMultipartRanges < (normalize ranges).length
  sent : ∀ found, result.ranges = some found →
    found = normalize ranges ∧ found.length ≤ maxMultipartRanges
  several : ∀ found, result = .multipart found → 2 ≤ found.length
  notFull : result ≠ .full

theorem selectRanges_spec {ranges : List ByteRange} (merged : ranges ≠ [] → normalize ranges ≠ []) :
    Selection ranges (selectRanges ranges) := by
  unfold selectRanges
  by_cases empty : ranges = []
  · rw [if_pos (List.isEmpty_iff.2 empty)]
    exact ⟨by simp [empty], by simp [RequestedRange.ranges], by simp, by simp⟩
  · rw [if_neg (mt List.isEmpty_iff.1 empty)]
    by_cases many : maxMultipartRanges < (normalize ranges).length
    · rw [if_pos many]
      exact ⟨by simp [many], by simp [RequestedRange.ranges], by simp, by simp⟩
    · rw [if_neg many]
      have few := Nat.le_of_not_lt many
      cases isNormalized : normalize ranges with
      | nil => exact absurd isNormalized (merged empty)
      | cons first rest =>
        rw [isNormalized] at few many
        cases rest with
        | nil => exact ⟨by simp [empty, isNormalized, maxMultipartRanges],
            by simpa [RequestedRange.ranges, isNormalized] using few, by simp, by simp⟩
        | cons second others =>
          refine ⟨by simpa [empty, isNormalized] using few, ?_, ?_, by simp⟩
          · simpa [RequestedRange.ranges, isNormalized] using few
          · simp

/-- Ranges in order with gaps between them, which are what the members ask for. -/
structure Normalized (specifier : Text) (length : Nat) (ranges : List ByteRange) : Prop where
  apart : ranges.Pairwise Stretch.Apart
  inside : ∀ range ∈ ranges, range.start ≤ range.last ∧ range.last < length
  few : ranges.length ≤ maxMultipartRanges
  bytes : ∀ byte, Stretch.Covers ranges byte ↔ Asked specifier length byte
  lengths : ∀ range ∈ ranges, ByteRange.len range = some (range.last - range.start + 1)

theorem toNat_le_u64Max (length : UInt64) : length.toNat ≤ u64Max :=
  Nat.le_of_lt_succ length.toNat_lt

theorem len_eq_some (inside : range.start ≤ range.last ∧ range.last < length.toNat) :
    ByteRange.len range = some (range.last - range.start + 1) := by
  have inU64 := toNat_le_u64Max length
  have span : checkedSub range.last range.start = some (range.last - range.start) := if_pos inside.1
  have sum : checkedAdd u64Max (range.last - range.start) 1 = some (range.last - range.start + 1) :=
    if_pos (by omega)
  rw [ByteRange.len, span]
  exact sum

section

variable {specifier : Text} {length : UInt64}

theorem normalize_ne_nil {ranges : List ByteRange}
    (inside : ∀ range ∈ ranges, range.start ≤ range.last ∧ range.last < length.toNat)
    (nonempty : ranges ≠ []) : normalize ranges ≠ [] := by
  intro none_
  obtain ⟨range, member⟩ := List.exists_mem_of_ne_nil ranges nonempty
  have covered := ((normalize_spec (toNat_le_u64Max length) inside).2.2 range.start).2
    ⟨range, member, le_rfl, (inside range member).1⟩
  rw [none_] at covered
  exact Stretch.covers_nil _ covered

theorem normalized_of_taken (taken : ∀ text ∈ members specifier, refuses length.toNat text = false)
    (few : (normalize (satisfiable specifier length)).length ≤ maxMultipartRanges) :
    Normalized specifier length.toNat (normalize (satisfiable specifier length)) := by
  obtain ⟨inside, apart, bytes⟩ :=
    normalize_spec (toNat_le_u64Max length) (satisfiable_inside taken)
  exact ⟨apart, inside, few, fun byte => (bytes byte).trans (covers_satisfiable taken byte),
    fun range member => len_eq_some (inside range member)⟩

end

/-- The ranges that are sent are normalized, and several if they are sent as parts. -/
theorem parseRangeSet_sent {specifier : Text} {result : RequestedRange}
    (parsed : parseRangeSet specifier length = some result) : result ≠ .full ∧
      (∀ ranges, result.ranges = some ranges → Normalized specifier length.toNat ranges) ∧
      ∀ ranges, result = .multipart ranges → 2 ≤ ranges.length := by
  rw [parseRangeSet_eq, Option.some.injEq] at parsed
  subst parsed
  split_ifs with stops
  · exact ⟨by simp, by simp [RequestedRange.ranges], by simp⟩
  · push Not at stops
    have taken : ∀ text ∈ members specifier, refuses length.toNat text = false := by
      simpa using stops.1
    have selection := selectRanges_spec (normalize_ne_nil (satisfiable_inside taken))
    refine ⟨selection.notFull, fun ranges isSent => ?_, selection.several⟩
    obtain ⟨rfl, few⟩ := selection.sent ranges isSent
    exact normalized_of_taken taken few

/-- The reasons to refuse a set, in terms of what is made of its members. -/
theorem parseRangeSet_refused (specifier : Text) (length : UInt64) :
    parseRangeSet specifier length = some .unsatisfiable ↔
      (∃ text ∈ members specifier, refuses length.toNat text = true) ∨
      maxRangeMembers < (members specifier).length ∨ satisfiable specifier length = [] ∨
      maxMultipartRanges < (normalize (satisfiable specifier length)).length := by
  rw [parseRangeSet_eq, Option.some.injEq]
  split_ifs with stops
  · refine iff_of_true rfl ?_
    rcases stops with refused | many
    · exact .inl (List.any_eq_true.1 refused)
    · exact .inr (.inl many)
  · push Not at stops
    have taken : ∀ text ∈ members specifier, refuses length.toNat text = false := by
      simpa using stops.1
    have noneRefused : ¬∃ text ∈ members specifier, refuses length.toNat text = true := by
      rintro ⟨text, isMember, refused⟩
      rw [taken text isMember] at refused
      cases refused
    rw [(selectRanges_spec (normalize_ne_nil (satisfiable_inside taken))).refused]
    simp only [noneRefused, Nat.not_lt.2 stops.2, false_or]

theorem parseRangeMember_eq_error :
    parseRangeMember text length = some (.error ()) ↔ refuses length.toNat text = true := by
  cases refused : refuses length.toNat text with
  | true => simp [parseRangeMember_of_refuses refused]
  | false => simp [(parseRangeMember_of_not_refuses refused).1]

theorem asked_lt {specifier : Text} {length byte : Nat} (asked : Asked specifier length byte) :
    byte < length := by
  obtain ⟨text, -, member, -, asks⟩ := asked
  cases member with
  | bounded first last => exact asks.1
  | tail first => exact asks.1
  | suffix count => exact asks.1

theorem parseRangeSet_unsatisfiable_iff (specifier : Text) (length : UInt64) :
    parseRangeSet specifier length = some .unsatisfiable ↔
      (∃ text ∈ members specifier, refuses length.toNat text = true) ∨
      maxRangeMembers < (members specifier).length ∨
      (∀ byte, ¬Asked specifier length.toNat byte) ∨
      maxMultipartRanges < Stretch.runs (Asked specifier length.toNat) length.toNat := by
  rw [parseRangeSet_refused]
  by_cases refused : ∃ text ∈ members specifier, refuses length.toNat text = true
  · exact iff_of_true (.inl refused) (.inl refused)
  have taken : ∀ text ∈ members specifier, refuses length.toNat text = false := by
    simpa using refused
  have inside := satisfiable_inside taken
  have nothing : satisfiable specifier length = [] ↔ ∀ byte, ¬Asked specifier length.toNat byte := by
    constructor
    · intro none_ byte asked
      rw [← covers_satisfiable taken, none_] at asked
      exact Stretch.covers_nil byte asked
    · intro none_
      rw [List.eq_nil_iff_forall_not_mem]
      intro range member
      exact none_ range.start ((covers_satisfiable taken _).1
        ⟨range, member, le_rfl, (inside range member).1⟩)
  obtain ⟨within, apart, covers⟩ := normalize_spec (toNat_le_u64Max length) inside
  have counted : (normalize (satisfiable specifier length)).length =
      Stretch.runs (Asked specifier length.toNat) length.toNat :=
    Stretch.length_eq_runs apart (fun range member => (within range member).1)
      (fun byte => (covers byte).trans (covers_satisfiable taken byte)) (fun _ => asked_lt)
  rw [nothing, counted]

/-- A member that can be read is refused only if it ends before it begins. -/
theorem refuses_of_readMember {member : Member} {length : Nat} (reads : readMember text = some member) :
    refuses length text = true ↔
      ∃ first last, member = .bounded first last ∧ last < first ∧ first < length := by
  unfold readMember at reads
  unfold refuses
  cases isSplit : Text.splitOnce '-' text with
  | none => simp [isSplit] at reads
  | some parts =>
    obtain ⟨start, last⟩ := parts
    simp only [isSplit, Option.bind_eq_bind, Option.bind_some] at reads ⊢
    cases noStart : start.isEmpty with
    | true =>
      simp only [noStart, if_true] at reads ⊢
      obtain ⟨count, isCount, rfl⟩ := Option.map_eq_some_iff.1 reads
      simp [isCount]
    | false =>
      simp only [noStart, Bool.false_eq_true, if_false] at reads ⊢
      obtain ⟨first, isFirst, reads⟩ := Option.bind_eq_some_iff.1 reads
      rw [isFirst]
      cases noLast : last.isEmpty with
      | true =>
        obtain rfl : Member.tail first = member := by simpa [noLast] using reads
        simp
      | false =>
        obtain ⟨value, isValue, rfl⟩ : ∃ value, parseU64 last = some value ∧
            Member.bounded first value = member := by
          simpa [noLast] using reads
        simp [isValue, and_comm]

/-- **Byte ranges are normalized.**  Every text is read without arithmetic leaving `u64`.  The
ranges that are sent are in order, with gaps between them, inside the file, at most sixteen, and are
the bytes that the members ask for; the request is refused when a member is, when there are too many
of them, when none asks for a byte, or when the bytes are in too many runs. -/
theorem parse_range_set_normalized (specifier : Text) (length : UInt64) :
    (∃ result, parseRangeSet specifier length = some result ∧ result ≠ .full ∧
      (∀ ranges, result.ranges = some ranges → Normalized specifier length.toNat ranges) ∧
      (∀ ranges, result = .multipart ranges → 2 ≤ ranges.length) ∧
      (result = .unsatisfiable ↔
        (∃ text ∈ members specifier, parseRangeMember text length = some (.error ())) ∨
        maxRangeMembers < (members specifier).length ∨
        (∀ byte, ¬Asked specifier length.toNat byte) ∨
        maxMultipartRanges < Stretch.runs (Asked specifier length.toNat) length.toNat)) ∧
    ∀ text member, readMember text = some member →
      (parseRangeMember text length = some (.error ()) ↔
        ∃ first last, member = .bounded first last ∧ last < first ∧ first < length.toNat) := by
  constructor
  · obtain ⟨result, parsed⟩ : ∃ result, parseRangeSet specifier length = some result :=
      ⟨_, parseRangeSet_eq specifier length⟩
    obtain ⟨notFull, normalized, several⟩ := parseRangeSet_sent parsed
    refine ⟨result, parsed, notFull, normalized, several, ?_⟩
    have refused := parseRangeSet_unsatisfiable_iff specifier length
    rw [parsed, Option.some.injEq] at refused
    simp only [refused, parseRangeMember_eq_error]
  · intro text member reads
    rw [parseRangeMember_eq_error, refuses_of_readMember reads]

example : parseRangeSet "5-9, 0-4,-5".toList 20 = some (.multipart [⟨0, 9⟩, ⟨15, 19⟩]) := by
  decide +kernel

/-! ## Members that are not well formed -/

/-- `digits-`, `digits-digits` with the last position not below the first, or `-digits`. -/
def isWellFormed (text : Text) : Bool :=
  match Text.splitOnce '-' text with
  | none => false
  | some (first, last) =>
    if first.isEmpty then Text.isDigits last
    else Text.isDigits first && (last.isEmpty ||
      (Text.isDigits last && Text.digitsValue first ≤ Text.digitsValue last))

/-- Every member is well formed, or there is a reason to refuse the set whatever the grammar says:
a member that is refused for this length, too many members, no byte that is asked for, or too many
runs of bytes. -/
def Strict (specifier : Text) (length : Nat) : Prop :=
  (∀ text ∈ members specifier, isWellFormed text = true) ∨
    (∃ text ∈ members specifier, refuses length text = true) ∨
    maxRangeMembers < (members specifier).length ∨
    (∀ byte, ¬Asked specifier length byte) ∨
    maxMultipartRanges < Stretch.runs (Asked specifier length) length

/-- **When a malformed member makes the set unsatisfiable.** -/
theorem strict_iff (specifier : Text) (length : UInt64) :
    ((∃ text ∈ members specifier, isWellFormed text = false) →
      parseRangeSet specifier length = some .unsatisfiable) ↔ Strict specifier length.toNat := by
  rw [parseRangeSet_unsatisfiable_iff]
  constructor
  · intro refuses
    by_cases formed : ∀ text ∈ members specifier, isWellFormed text = true
    · exact .inl formed
    · exact .inr (refuses (by simpa using formed))
  · rintro (formed | reason) ⟨text, isMember, malformed⟩
    · rw [formed text isMember] at malformed
      cases malformed
    · exact reason

/-- A member behind the end of the file is skipped unread, so that the same set is taken or refused
as the file is shorter or longer; and a sign is taken for part of a number. -/
theorem malformed_members_taken :
    (∃ text ∈ members "0-4,20-x".toList, isWellFormed text = false) ∧
      parseRangeSet "0-4,20-x".toList 10 = some (.partialRange ⟨0, 4⟩) ∧
      parseRangeSet "0-4,20-x".toList 30 = some .unsatisfiable ∧
      isWellFormed "20-12".toList = false ∧
      parseRangeSet "0-4,20-12".toList 10 = some (.partialRange ⟨0, 4⟩) ∧
      isWellFormed "+0-4".toList = false ∧
      parseRangeSet "+0-4".toList 10 = some (.partialRange ⟨0, 4⟩) := by
  decide +kernel

end Rustee.Static
