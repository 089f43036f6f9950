/-
# Rustee.Compression.Negotiation -- which content coding a client prefers

`rustee-middleware/src/compression/negotiation.rs`.  The members of all `Accept-Encoding` values are
gone through once for each coding, with two running maxima: of the members that name the coding,
and of the wildcards.

The loop's result depends only on which members there are (`tally_eq`), so that a coding has a
quality in the sense of `Rated`: the greatest among the members that name it or, if none does,
among the wildcards.  What a member names and what it weighs is said of its text (`Written`,
`Weighs`), without the functions that read it.  `selectCoding_eq_some` says which coding is chosen.
-/
import Rustee.Foundation.FieldSyntax
import Mathlib.Data.List.ReduceOption
import Mathlib.Algebra.Ring.Nat
import Mathlib.Order.Bounds.Basic

namespace Rustee.Compression

set_option autoImplicit false

open Rustee.Foundation

inductive ContentCoding where
  | brotli
  | gzip
  deriving DecidableEq, Repr

def ContentCoding.token : ContentCoding → Text
  | .brotli => "br".toList
  | .gzip => "gzip".toList

/-! ## Qualities -/

/-- `parsed * scale`, for one to three digits. -/
def scaled (fraction : Text) : Option Nat :=
  match fraction.length with
  | 1 => some (Text.digitsValue fraction * 100)
  | 2 => some (Text.digitsValue fraction * 10)
  | 3 => some (Text.digitsValue fraction)
  | _ => none

/-- In thousandths.  No digits at all do not parse as a `u16`. -/
def parseQuality (value : Text) : Option Nat :=
  if value = "0".toList ∨ value = "0.".toList then some 0
  else if value = "1".toList ∨ value = "1.".toList then some 1000
  else
    match Text.splitOnce '.' value with
    | none => none
    | some (whole, fraction) =>
      if fraction.length > 3 || !fraction.all Char.isDigit then none
      else if whole = "0".toList then scaled fraction
      else if whole = "1".toList ∧ fraction.all (· = '0') = true then some 1000
      else none

/-- A weight, and its thousandths: `0` or `1`, with up to three decimals that are zero
behind `1`. -/
inductive IsWeight : Text → Nat → Prop where
  | zero : IsWeight "0".toList 0
  | one : IsWeight "1".toList 1000
  | fraction {digits : Text} {quality : Nat} (short : digits.length ≤ 3)
      (all : digits.all Char.isDigit = true)
      (value : quality * 10 ^ digits.length = Text.digitsValue digits * 1000) :
      IsWeight ('0' :: '.' :: digits) quality
  | whole {zeros : Text} (short : zeros.length ≤ 3) (all : zeros.all (· = '0') = true) :
      IsWeight ('1' :: '.' :: zeros) 1000

theorem scaled_eq_some {fraction : Text} {quality : Nat} : scaled fraction = some quality ↔
    fraction ≠ [] ∧ fraction.length ≤ 3 ∧
      quality * 10 ^ fraction.length = Text.digitsValue fraction * 1000 := by
  have empty : fraction = [] ↔ fraction.length = 0 := List.length_eq_zero_iff.symm
  rw [scaled, ne_eq, empty]
  generalize fraction.length = count
  match count with
  | 0 => simp
  | 1 => simp; omega
  | 2 => simp; omega
  | 3 => simp; omega
  | more + 4 => simp

theorem parseQuality_eq_some {value : Text} {quality : Nat} :
    parseQuality value = some quality ↔ IsWeight value quality := by
  constructor
  · intro parsed
    unfold parseQuality at parsed
    split_ifs at parsed with isZero isOne
    · cases parsed
      rcases isZero with rfl | rfl
      · exact .zero
      · exact .fraction (by decide) rfl rfl
    · cases parsed
      rcases isOne with rfl | rfl
      · exact .one
      · exact .whole (by decide) rfl
    · cases split : Text.splitOnce '.' value with
      | none => simp [split] at parsed
      | some parts =>
        obtain ⟨whole, fraction⟩ := parts
        rw [Text.eq_of_splitOnce split]
        simp only [split, gt_iff_lt, Bool.or_eq_true, decide_eq_true_eq, Bool.not_eq_true'] at parsed
        split_ifs at parsed with long zero one
        · push Not at long
          obtain ⟨-, short, scale⟩ := scaled_eq_some.1 parsed
          rw [zero]
          exact .fraction short (by simpa using long.2) scale
        · push Not at long
          cases parsed
          rw [one.1]
          exact .whole (Nat.le_of_not_lt (Nat.not_lt.2 long.1)) one.2
  · intro weight
    cases weight with
    | zero => rfl
    | one => rfl
    | @fraction digits _ short all scale =>
      cases digits with
      | nil =>
        simp only [List.length_nil, pow_zero, Nat.mul_one] at scale
        rw [scale]
        rfl
      | cons first rest =>
        have split : Text.splitOnce '.' ('0' :: '.' :: first :: rest) =
            some ("0".toList, first :: rest) := rfl
        have scales := scaled_eq_some.2 ⟨List.cons_ne_nil first rest, short, scale⟩
        rw [parseQuality, if_neg (by simp), if_neg (by simp), split]
        simp only [all, Nat.not_lt.2 short, decide_false, Bool.not_true, Bool.or_self,
          Bool.false_eq_true, if_false, if_true, scales]
    | @whole zeros short all =>
      cases zeros with
      | nil => rfl
      | cons first rest =>
        have split : Text.splitOnce '.' ('1' :: '.' :: first :: rest) =
            some ("1".toList, first :: rest) := rfl
        have digits : (first :: rest).all Char.isDigit = true := by
          rw [List.all_eq_true] at all ⊢
          intro c member
          rw [of_decide_eq_true (all c member)]
          rfl
        rw [parseQuality, if_neg (by simp), if_neg (by simp), split]
        simp only [all, digits, Nat.not_lt.2 short, decide_false, Bool.not_true,
          Bool.or_self, Bool.false_eq_true, if_false, and_self, if_true]
        rfl

/-! ## Members -/

/-- The locals of the loop. -/
structure Tally where
  explicit : Option Nat
  wildcard : Option Nat

/-- The value of the first parameter that is called `q`, in any case. -/
def qParameter (parameters : List Text) : Option Text :=
  parameters.findSome? (Text.assigned "q".toList)

/-- What the loop looks at of a member. -/
structure Member where
  token : Text
  q : Option Text
  deriving DecidableEq, Repr

def readMember (item : Text) : Member :=
  match item.splitOn ';' with
  | [] => ⟨[], none⟩
  | token :: parameters => ⟨Text.trim token, qParameter parameters⟩

def Member.quality (member : Member) : Nat :=
  match member.q with
  | none => 1000
  | some value => (parseQuality value).getD 0

def Member.names (token : Text) (member : Member) : Bool :=
  Text.toAsciiLowercase member.token = Text.toAsciiLowercase token

def Member.isWildcard (member : Member) : Bool := member.token = "*".toList

/-- `Some(best.unwrap_or(0).max(quality))`. -/
def raise (best : Option Nat) (quality : Nat) : Option Nat := some (max (best.getD 0) quality)

def countMember (token : Text) (tally : Tally) (member : Member) : Tally :=
  if member.names token then { tally with explicit := raise tally.explicit member.quality }
  else if member.isWildcard then { tally with wildcard := raise tally.wildcard member.quality }
  else tally

/-- The texts of the members, of the values that are visible ASCII, in order. -/
def items (values : List (Option Text)) : List Text :=
  values.reduceOption.flatMap fun value => value.splitOn ','

def members (values : List (Option Text)) : List Member := (items values).map readMember

/-- Both loops, value by value and member by member, and whether there was a value at all. -/
def tally (token : Text) (values : List (Option Text)) : Tally × Bool :=
  values.foldl (fun state value =>
    match value with
    | none => state
    | some value =>
      ((value.splitOn ',').foldl (fun tally item => countMember token tally (readMember item)) state.1,
        true)) (⟨none, none⟩, false)

def qualityFor (values : List (Option Text)) (coding : ContentCoding) : Option Nat :=
  let result := tally coding.token values
  if !result.2 then none
  else (result.1.explicit.or result.1.wildcard).filter fun quality => quality > 0

def selectCoding (brotliEnabled gzipEnabled : Bool) (values : List (Option Text)) :
    Option ContentCoding :=
  let brotli := if brotliEnabled then qualityFor values .brotli else none
  let gzip := if gzipEnabled then qualityFor values .gzip else none
  match brotli, gzip with
  | some brotli, some gzip => if brotli ≥ gzip then some .brotli else some .gzip
  | none, some _ => some .gzip
  | some _, none => some .brotli
  | none, none => none

/-! ## The loop -/

/-- The greatest quality among the members that pass a test. -/
def best (test : Member → Bool) (members : List Member) : Option Nat :=
  ((members.filter test).map Member.quality).max?

theorem foldl_raise (start : Nat) (qualities : List Nat) :
    qualities.foldl raise (some start) = some (qualities.foldl max start) := by
  induction qualities generalizing start with
  | nil => rfl
  | cons quality rest ih => exact ih (max start quality)

theorem foldl_raise_none (qualities : List Nat) : qualities.foldl raise none = qualities.max? := by
  cases qualities with
  | nil => rfl
  | cons quality rest =>
    have first : raise none quality = some quality := by simp [raise]
    rw [List.foldl_cons, first, foldl_raise, List.max?_cons']

/-- A wildcard that does not name the coding itself. -/
def Member.stands (token : Text) (member : Member) : Bool := !member.names token && member.isWildcard

theorem foldl_countMember (token : Text) (start : Tally) (members : List Member) :
    members.foldl (countMember token) start =
      ⟨((members.filter (Member.names token)).map Member.quality).foldl raise start.explicit,
        ((members.filter (Member.stands token)).map Member.quality).foldl raise start.wildcard⟩ := by
  induction members generalizing start with
  | nil => rfl
  | cons member rest ih =>
    rw [List.foldl_cons, ih]
    cases named : member.names token with
    | true => simp [countMember, Member.stands, named]
    | false =>
      cases wild : member.isWildcard with
      | true => simp [countMember, Member.stands, named, wild]
      | false => simp [countMember, Member.stands, named, wild]

theorem foldl_values (token : Text) (start : Tally) (found : Bool) (values : List (Option Text)) :
    values.foldl (fun (state : Tally × Bool) value =>
      match value with
      | none => state
      | some value =>
        ((value.splitOn ',').foldl (fun tally item => countMember token tally (readMember item))
          state.1, true)) (start, found) =
      ((members values).foldl (countMember token) start, found || !values.reduceOption.isEmpty) := by
  induction values generalizing start found with
  | nil => simp [members, items, List.reduceOption]
  | cons value rest ih =>
    cases value with
    | none =>
      rw [List.foldl_cons, ih]
      rfl
    | some value =>
      rw [List.foldl_cons, ih]
      simp [members, items, List.reduceOption, List.foldl_append, List.foldl_map]

/-- The loop depends on the members only. -/
theorem tally_eq (token : Text) (values : List (Option Text)) :
    (tally token values).1 = ⟨best (Member.names token) (members values),
      best (Member.stands token) (members values)⟩ ∧
    ((tally token values).2 = false → members values = []) := by
  rw [tally, foldl_values, foldl_countMember, foldl_raise_none, foldl_raise_none]
  refine ⟨rfl, fun none_ => ?_⟩
  have empty : values.reduceOption = [] := by simpa using none_
  rw [members, items, empty, List.flatMap_nil, List.map_nil]

/-- The quality of a coding, if any is given. -/
def quality (token : Text) (members : List Member) : Option Nat :=
  (best (Member.names token) members).or (best (Member.stands token) members)

theorem qualityFor_eq (values : List (Option Text)) (coding : ContentCoding) :
    qualityFor values coding =
      (quality coding.token (members values)).filter fun quality => quality > 0 := by
  obtain ⟨isTally, unfound⟩ := tally_eq coding.token values
  rw [qualityFor]
  simp only [isTally]
  cases found : (tally coding.token values).2 with
  | true => rfl
  | false =>
    rw [unfound found]
    rfl

/-! ## What a member says -/

/-- A member is written as a name, with blanks around it, and parameters behind semicolons. -/
def Written (item name : Text) (parameters : List Text) : Prop :=
  ∃ first, item.splitOn ';' = first :: parameters ∧ Padded name first

/-- In either case. -/
def Names (token item : Text) : Prop :=
  ∃ name parameters, Written item name parameters ∧ Text.toAsciiLowercase name = token

def IsWildcard (item : Text) : Prop := ∃ parameters, Written item "*".toList parameters

def IsQ (parameter value : Text) : Prop := Assigns "q".toList parameter value

/-- The quality that parameters give: that of the first `q`, none standing for one, and zero if it is
malformed. -/
inductive Gives : List Text → Nat → Prop where
  | absent : Gives [] 1000
  | other {parameter : Text} {rest : List Text} {quality : Nat} (no : ∀ value, ¬IsQ parameter value)
      (later : Gives rest quality) : Gives (parameter :: rest) quality
  | weight {parameter value : Text} {rest : List Text} {quality : Nat} (isQ : IsQ parameter value)
      (isWeight : IsWeight value quality) : Gives (parameter :: rest) quality
  | malformed {parameter value : Text} {rest : List Text} (isQ : IsQ parameter value)
      (no : ∀ value quality, IsQ parameter value → ¬IsWeight value quality) : Gives (parameter :: rest) 0

def Weighs (item : Text) (quality : Nat) : Prop :=
  ∃ name parameters, Written item name parameters ∧ Gives parameters quality

/-- The greatest quality among the members that name the coding or, if none does, among the
wildcards. -/
inductive Rated (items : List Text) (token : Text) (quality : Nat) : Prop where
  | named (some_ : ∃ item ∈ items, Names token item)
      (greatest : IsGreatest {quality | ∃ item ∈ items, Names token item ∧ Weighs item quality} quality)
  | wildcard (none_ : ∀ item ∈ items, ¬Names token item)
      (greatest : IsGreatest {quality | ∃ item ∈ items, IsWildcard item ∧ Weighs item quality} quality)

/-! ## What is read of a member -/

theorem assigned_of_isQ {parameter value : Text} (isQ : IsQ parameter value) :
    Text.assigned "q".toList parameter = some (Text.trim value) :=
  isQ.assigned (by decide) (by simp [isWhitespace])

theorem IsWeight.trim_eq {value : Text} {quality : Nat} (weight : IsWeight value quality) :
    Text.trim value = value := by
  have digit {c : Char} (isDigit : c.isDigit = true) : isWhitespace c = false :=
    isWhitespace_of_visible (isAlphanum_visible (by simp [Char.isAlphanum, isDigit]))
  refine Text.trim_solid ?_
  cases weight with
  | zero => exact Solid.of_forall (by decide) (by simp [isWhitespace])
  | one => exact Solid.of_forall (by decide) (by simp [isWhitespace])
  | fraction short all value =>
    refine Solid.of_forall (by simp) (List.forall_mem_cons.2 ⟨rfl, List.forall_mem_cons.2 ⟨rfl, ?_⟩⟩)
    exact fun c isChar => digit (List.all_eq_true.1 all c isChar)
  | whole short all =>
    refine Solid.of_forall (by simp) (List.forall_mem_cons.2 ⟨rfl, List.forall_mem_cons.2 ⟨rfl, ?_⟩⟩)
    intro c isChar
    rw [of_decide_eq_true (List.all_eq_true.1 all c isChar)]
    rfl

section

variable {parameter value : Text} {rest : List Text} {quality : Nat}

theorem gives_cons_other (no : ∀ value, ¬IsQ parameter value) :
    Gives (parameter :: rest) quality ↔ Gives rest quality := by
  refine ⟨fun gives => ?_, .other no⟩
  cases gives with
  | other _ later => exact later
  | weight isQ _ => exact (no _ isQ).elim
  | malformed isQ _ => exact (no _ isQ).elim

theorem gives_cons_q (read : Text.assigned "q".toList parameter = some value) :
    Gives (parameter :: rest) quality ↔ (parseQuality value).getD 0 = quality := by
  have isQ : IsQ parameter value := Text.assigns_of_assigned read
  -- a weight has no blanks around it, so it is the value that is read
  have only {other : Text} {rate : Nat} (isOther : IsQ parameter other) (weight : IsWeight other rate) :
      parseQuality value = some rate := by
    have same := assigned_of_isQ isOther
    rw [read, weight.trim_eq] at same
    rw [Option.some.inj same]
    exact parseQuality_eq_some.2 weight
  constructor
  · intro gives
    cases gives with
    | other no _ => exact (no value isQ).elim
    | weight isOther weight => rw [only isOther weight, Option.getD_some]
    | malformed _ no =>
      cases parsed : parseQuality value with
      | none => rfl
      | some rate => exact (no value rate isQ (parseQuality_eq_some.1 parsed)).elim
  · rintro rfl
    cases parsed : parseQuality value with
    | none =>
      refine .malformed isQ fun other rate isOther weight => ?_
      simp [only isOther weight] at parsed
    | some rate => exact .weight isQ (parseQuality_eq_some.1 parsed)

theorem gives_iff {parameters : List Text} : Gives parameters quality ↔
    (Member.mk [] (qParameter parameters)).quality = quality := by
  induction parameters with
  | nil =>
    constructor
    · rintro ⟨⟩
      rfl
    · rintro rfl
      exact .absent
  | cons parameter rest ih =>
    cases read : Text.assigned "q".toList parameter with
    | none =>
      have skipped : qParameter (parameter :: rest) = qParameter rest := by
        simp only [qParameter, List.findSome?_cons, read]
      rw [skipped, ← ih]
      refine gives_cons_other fun value isQ => ?_
      rw [assigned_of_isQ isQ] at read
      cases read
    | some value =>
      have found : qParameter (parameter :: rest) = some value := by
        simp only [qParameter, List.findSome?_cons, read]
      rw [found, gives_cons_q read]
      rfl

end

theorem readMember_written {item name : Text} {parameters : List Text}
    (written : Written item name parameters) :
    readMember item = ⟨Text.trim name, qParameter parameters⟩ := by
  obtain ⟨first, isSplit, padded⟩ := written
  simp only [readMember, isSplit, padded.trim_eq]

theorem exists_written (item : Text) : ∃ name parameters, Written item name parameters ∧
    readMember item = ⟨name, qParameter parameters⟩ := by
  obtain ⟨first, parameters, isSplit⟩ := List.exists_cons_of_ne_nil (List.splitOn_ne_nil ';' item)
  exact ⟨Text.trim first, parameters, ⟨first, isSplit, Text.padded_trim first⟩, by rw [readMember, isSplit]⟩

theorem weighs_iff {item : Text} {quality : Nat} :
    Weighs item quality ↔ (readMember item).quality = quality := by
  constructor
  · rintro ⟨name, parameters, written, gives⟩
    rw [readMember_written written]
    exact gives_iff.1 gives
  · intro isQuality
    obtain ⟨name, parameters, written, read⟩ := exists_written item
    rw [read] at isQuality
    exact ⟨name, parameters, written, gives_iff.2 isQuality⟩

theorem names_iff (coding : ContentCoding) (item : Text) :
    Names coding.token item ↔ (readMember item).names coding.token = true := by
  have lower : Text.toAsciiLowercase coding.token = coding.token := by cases coding <;> rfl
  have solid : coding.token ≠ [] ∧ ∀ c ∈ coding.token, isWhitespace c = false := by
    cases coding <;> simp [ContentCoding.token, isWhitespace]
  rw [Member.names, decide_eq_true_iff, lower]
  constructor
  · rintro ⟨name, parameters, written, isToken⟩
    rw [readMember_written written, Text.trim_solid (Solid.of_toAsciiLowercase isToken solid.1 solid.2)]
    exact isToken
  · intro isToken
    obtain ⟨name, parameters, written, read⟩ := exists_written item
    rw [read] at isToken
    exact ⟨name, parameters, written, isToken⟩

theorem isWildcard_iff (item : Text) : IsWildcard item ↔ (readMember item).isWildcard = true := by
  rw [Member.isWildcard, decide_eq_true_iff]
  constructor
  · rintro ⟨parameters, written⟩
    rw [readMember_written written]
    exact Text.trim_solid (Solid.of_forall (by decide) (by simp [isWhitespace]))
  · intro isWild
    obtain ⟨name, parameters, written, read⟩ := exists_written item
    rw [read] at isWild
    exact ⟨parameters, isWild ▸ written⟩

/-- Blanks around a member do not matter. -/
theorem readMember_trim (item : Text) : readMember (Text.trim item) = readMember item := by
  have assigned_trim : Text.assigned "q".toList ∘ Text.trim = Text.assigned "q".toList := by
    funext parameter
    simp only [Function.comp_apply, Text.assigned, ← (Text.padded_trim parameter).trim_eq]
  obtain ⟨first, parameters, isSplit⟩ := List.exists_cons_of_ne_nil (List.splitOn_ne_nil ';' item)
  obtain ⟨trimmedFirst, trimmedParameters, trimmedSplit⟩ :=
    List.exists_cons_of_ne_nil (List.splitOn_ne_nil ';' (Text.trim item))
  have pieces : (item.splitOn ';').map Text.trim = ((Text.trim item).splitOn ';').map Text.trim :=
    (Text.padded_trim item).map_trim_splitOn (by decide)
  rw [isSplit, trimmedSplit, List.map_cons, List.map_cons, List.cons.injEq] at pieces
  have sameQ : qParameter parameters = qParameter trimmedParameters := by
    rw [qParameter, qParameter, ← assigned_trim, ← List.findSome?_map, ← List.findSome?_map, pieces.2]
  simp only [readMember, isSplit, trimmedSplit, pieces.1, sameQ]

theorem best_eq_some {test : Member → Bool} {holds : Text → Prop}
    (same : ∀ item, holds item ↔ test (readMember item) = true) {items : List Text} {quality : Nat} :
    best test (items.map readMember) = some quality ↔
      IsGreatest {quality | ∃ item ∈ items, holds item ∧ Weighs item quality} quality := by
  simp [best, List.max?_eq_some_iff, IsGreatest, upperBounds, weighs_iff, same, and_assoc]

theorem best_eq_none {test : Member → Bool} {holds : Text → Prop}
    (same : ∀ item, holds item ↔ test (readMember item) = true) {items : List Text} :
    best test (items.map readMember) = none ↔ ∀ item ∈ items, ¬holds item := by
  simp [best, same]

variable {rate : Nat} {values : List (Option Text)} {coding : ContentCoding}

theorem quality_eq_some {items : List Text} :
    quality coding.token (items.map readMember) = some rate ↔ Rated items coding.token rate := by
  rw [quality]
  cases named : best (Member.names coding.token) (items.map readMember) with
  | some found =>
    have named_ : ∃ item ∈ items, Names coding.token item := by
      obtain ⟨item, inside, isNamed, -⟩ := ((best_eq_some (names_iff coding)).1 named).1
      exact ⟨item, inside, isNamed⟩
    rw [Option.some_or, ← named, best_eq_some (names_iff coding)]
    constructor
    · exact .named named_
    · intro rated
      cases rated with
      | named _ greatest => exact greatest
      | wildcard none_ _ =>
        obtain ⟨item, inside, isNamed⟩ := named_
        exact (none_ item inside isNamed).elim
  | none =>
    have unnamed := (best_eq_none (names_iff coding)).1 named
    -- no member names the coding, so the wildcards count as the source counts them
    have stands : best (Member.stands coding.token) (items.map readMember) =
        best Member.isWildcard (items.map readMember) := by
      rw [best, best]
      refine congrArg (fun found => (found.map Member.quality).max?) (List.filter_congr ?_)
      intro member inside
      obtain ⟨item, isItem, rfl⟩ := List.mem_map.1 inside
      have other : (readMember item).names coding.token = false :=
        Bool.eq_false_iff.2 (mt (names_iff coding item).2 (unnamed item isItem))
      rw [Member.stands, other, Bool.not_false, Bool.true_and]
    rw [Option.none_or, stands, best_eq_some isWildcard_iff]
    constructor
    · exact .wildcard unnamed
    · intro rated
      cases rated with
      | wildcard _ greatest => exact greatest
      | named some_ _ =>
        obtain ⟨item, inside, isNamed⟩ := some_
        exact (unnamed item inside isNamed).elim

theorem qualityFor_eq_some :
    qualityFor values coding = some rate ↔ Rated (items values) coding.token rate ∧ 0 < rate := by
  simp [qualityFor_eq, Option.filter_eq_some_iff, members, quality_eq_some]

/-! ## The choice -/

/-- The coding of greatest quality, if that is not zero; brotli on a tie. -/
def Prefers (items : List Text) (coding : ContentCoding) : Prop :=
  ∃ rate, Rated items coding.token rate ∧ 0 < rate ∧
    ∀ other otherRate, other ≠ coding → Rated items other.token otherRate →
      otherRate < rate ∨ (otherRate = rate ∧ coding = .brotli)

/-- A coding of quality zero is beaten by any the code counts. -/
theorem prefers_iff :
    Prefers (items values) coding ↔ ∃ rate, qualityFor values coding = some rate ∧
      ∀ other otherRate, other ≠ coding → qualityFor values other = some otherRate →
        otherRate < rate ∨ (otherRate = rate ∧ coding = .brotli) := by
  constructor
  · rintro ⟨rate, rated, positive, greatest⟩
    refine ⟨rate, qualityFor_eq_some.2 ⟨rated, positive⟩, fun other otherRate different counted => ?_⟩
    exact greatest other otherRate different (qualityFor_eq_some.1 counted).1
  · rintro ⟨rate, counted, greatest⟩
    obtain ⟨rated, positive⟩ := qualityFor_eq_some.1 counted
    refine ⟨rate, rated, positive, fun other otherRate different otherRated => ?_⟩
    rcases Nat.eq_zero_or_pos otherRate with rfl | otherPositive
    · exact .inl positive
    · exact greatest other otherRate different (qualityFor_eq_some.2 ⟨otherRated, otherPositive⟩)

theorem selectCoding_eq_some :
    selectCoding true true values = some coding ↔ Prefers (items values) coding := by
  have both (holds : ContentCoding → Prop) : (∀ other, holds other) ↔ holds .brotli ∧ holds .gzip :=
    ⟨fun all => ⟨all _, all _⟩, fun ⟨brotli, gzip⟩ other => by cases other <;> assumption⟩
  simp only [prefers_iff, both, selectCoding, if_true]
  cases brotli : qualityFor values .brotli with
  | none => cases gzip : qualityFor values .gzip <;> cases coding <;> simp [brotli, gzip]
  | some rate =>
    cases gzip : qualityFor values .gzip with
    | none => cases coding <;> simp [brotli, gzip]
    | some other =>
      by_cases atLeast : rate ≥ other
      · cases coding with
        | brotli =>
          simp [brotli, atLeast]
          omega
        | gzip => simp [gzip, atLeast]
      · cases coding with
        | brotli =>
          simp [brotli, atLeast]
          omega
        | gzip =>
          simp [gzip, atLeast]
          omega

/-- The members in another order, on other lines and with other blanks around them. -/
theorem selectCoding_perm {left right : List (Option Text)}
    (same : ((items left).map Text.trim).Perm ((items right).map Text.trim)) :
    selectCoding true true left = selectCoding true true right := by
  have read (values : List (Option Text)) :
      members values = ((items values).map Text.trim).map readMember := by
    rw [members, List.map_map]
    exact List.map_congr_left fun item _ => (readMember_trim item).symm
  have sameMembers : (members left).Perm (members right) := by
    rw [read, read]
    exact same.map readMember
  have sameQuality (coding : ContentCoding) : qualityFor left coding = qualityFor right coding := by
    have best_perm (test : Member → Bool) : best test (members left) = best test (members right) :=
      Option.ext fun rate => by simp [best, List.max?_eq_some_iff, sameMembers.mem_iff]
    rw [qualityFor_eq, qualityFor_eq, quality, quality, best_perm, best_perm]
  rw [selectCoding, selectCoding, sameQuality, sameQuality]

end Rustee.Compression
