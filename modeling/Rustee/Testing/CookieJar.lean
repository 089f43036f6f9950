/-
# Rustee.Testing.CookieJar -- the cookies that a test keeps between requests

`rustee-test/src/cookie.rs`, and `session_id` of `rustee-auth-session/src/middleware.rs`, which reads the
header that the jar builds.  A response is absorbed as a whole: its cookies are parsed first, and the
jar is replaced when all of them have been applied to a copy without a limit being passed.

A `BTreeMap` is a list with one entry for each name, in the order of the names where it is read out.
What a `Set-Cookie` value tells the jar, and which tell it nothing, is stated of its text (`Tells`).  `Sound` is
what every jar has.  It is enough for the header to be a valid one and for its parts to be told apart
again: no name or value has a semicolon or a space in it, and no name an equals sign
(`sessionId_requestHeader`).
-/
import Rustee.Foundation.FieldSyntax
import Rustee.Foundation.Keyed
import Rustee.Foundation.Utf8
import Rustee.TrustedProxy.Forwarded
import Mathlib.Data.Char
import Mathlib.Data.List.Lex
import Mathlib.Data.List.Sort
import Mathlib.Algebra.BigOperators.Group.List.Basic
import Mathlib.Algebra.Ring.Nat

namespace Rustee.Testing

set_option autoImplicit false

open Rustee.Foundation TrustedProxy

/-! ## Parsing -/

def defaultMaxCookieCount : Nat := 64

def defaultMaxCookieBytes : Nat := 8 * 1024

/-- The errors of the jar, of all those in `TestResponseError`. -/
inductive TestResponseError where
  | invalidSetCookie
  | cookieJarLimitExceeded
  deriving DecidableEq, Repr

inductive CookieUpdate where
  | set (name value : Text)
  | remove (name : Text)
  deriving DecidableEq, Repr

def validCookieName (name : Text) : Bool := !name.isEmpty && name.all isTokenChar

def isValueChar (c : Char) : Bool :=
  c == '!' || ('#' ≤ c && c ≤ '+') || ('-' ≤ c && c ≤ ':') || ('<' ≤ c && c ≤ '[') || (']' ≤ c && c ≤ '~')

def validCookieValue (value : Text) : Bool := value.all isValueChar

/-- `Max-Age=0`. -/
def expiresNow (text : Text) : Bool := Text.assigned "max-age".toList text == some "0".toList

def parseSetCookie (value : HeaderValue) : Except TestResponseError CookieUpdate :=
  match HeaderValue.toStr value with
  | none => .error .invalidSetCookie
  | some text =>
    match text.splitOn ';' with
    | [] => .error .invalidSetCookie
    | pair :: attributes =>
      match Text.splitOnce '=' (Text.trim pair) with
      | none => .error .invalidSetCookie
      | some (name, value) =>
        if !validCookieName name || !validCookieValue value then .error .invalidSetCookie
        else if attributes.any expiresNow then .ok (.remove name)
        else .ok (.set name value)

/-! ## The jar -/

abbrev Entries := List (Text × Text)

/-- `str::len`. -/
def len (text : Text) : Nat := (Text.bytes text).length

def cookieHeaderLen (entries : Entries) : Nat :=
  (entries.map fun entry => len entry.1 + 1 + len entry.2).sum + (entries.length - 1) * 2

def CookieUpdate.apply (entries : Entries) : CookieUpdate → Entries
  | .set name value => Keyed.hset entries name value
  | .remove name => Keyed.hdel entries name

/-- The loop over the updates, with the limits checked after each. -/
def applyUpdates (entries : Entries) : List CookieUpdate → Except TestResponseError Entries
  | [] => .ok entries
  | update :: rest =>
    let next := update.apply entries
    if next.length > defaultMaxCookieCount || cookieHeaderLen next > defaultMaxCookieBytes then
      .error .cookieJarLimitExceeded
    else applyUpdates next rest

def setCookie : String := "set-cookie"

def parsedUpdates (headers : HeaderMap) : Except TestResponseError (List CookieUpdate) :=
  (headers.getAll setCookie).mapM parseSetCookie

/-- The jar afterwards, and what the caller is told. -/
def absorb (entries : Entries) (headers : HeaderMap) : Entries × Except TestResponseError Unit :=
  match parsedUpdates headers with
  | .error error => (entries, .error error)
  | .ok updates =>
    if updates.isEmpty then (entries, .ok ())
    else
      match applyUpdates entries updates with
      | .error error => (entries, .error error)
      | .ok next => (next, .ok ())

def cookiePair (entry : Text × Text) : Text := entry.1 ++ '=' :: entry.2

/-- Iteration in the order of the names. -/
def ordered (entries : Entries) : Entries := entries.insertionSort fun a b => a.1 ≤ b.1

/-- `HeaderValue::try_from`. -/
def HeaderValue.tryFrom (text : Text) : Option HeaderValue :=
  if (Text.bytes text).all isHeaderByte then some (Text.bytes text) else none

/-- No header for an empty jar.  An error is the message of the panic. -/
def requestHeader (entries : Entries) : Except String (Option HeaderValue) :=
  if entries.isEmpty then .ok none
  else
    match HeaderValue.tryFrom ("; ".toList.intercalate ((ordered entries).map cookiePair)) with
    | some header => .ok (some header)
    | none => .error "validated test cookie name/value pairs produce a valid header"

/-! ## The session middleware -/

def cookie : String := "cookie"

/-- `session_id`, with `parse` for `SessionId::parse`. -/
def sessionId {Id : Type} (parse : Text → Option Id) (headers : HeaderMap) (name : Text) : Option Id :=
  match headers.getAll cookie with
  | [header] =>
    (HeaderValue.toStr header).bind fun text =>
      let pairs := (text.splitOn ';').filterMap fun part => Text.splitOnce '=' (Text.trim part)
      match pairs.filterMap fun pair => if pair.1 = name then some pair.2 else none with
      | [value] => parse value
      | _ => none
  | _ => none

/-! ## Sequences of responses -/

/-- The jar after some responses, and those of them that were accepted. -/
def absorbAll (entries : Entries) : List HeaderMap → Entries × List HeaderMap
  | [] => (entries, [])
  | headers :: rest =>
    let (next, result) := absorb entries headers
    let (last, accepted) := absorbAll next rest
    match result with
    | .ok () => (last, headers :: accepted)
    | .error _ => (last, accepted)

/-- What an update makes of the cookies by name. -/
def CookieUpdate.write (cookies : Text → Option Text) : CookieUpdate → Text → Option Text
  | .set name value => Function.update cookies name (some value)
  | .remove name => Function.update cookies name none

/-! ## What a value tells -/

/-- A visible character, but for the quote, the comma, the semicolon and the backslash. -/
def IsCookieOctet (c : Char) : Prop := 33 ≤ c.toNat ∧ c.toNat ≤ 126 ∧ c ∉ ['"', ',', ';', '\\']

/-- A value carries a cookie: `name=value` with blanks around, in front of the attributes. -/
structure Carries (header : HeaderValue) (name value : Text) (attributes : List Text) : Prop where
  written : ∃ text first, HeaderValue.toStr header = some text ∧
    text.splitOn ';' = first :: attributes ∧ Padded (name ++ '=' :: value) first
  named : name ≠ [] ∧ ∀ c ∈ name, isTokenChar c = true
  valued : ∀ c ∈ value, IsCookieOctet c

def Expires (piece : Text) : Prop := Assigns "max-age".toList piece "0".toList

/-- A cookie is kept, or removed if it expires at once.  A value that carries no cookie tells
nothing. -/
inductive Tells (header : HeaderValue) : CookieUpdate → Prop where
  | set {name value : Text} {attributes : List Text} (carries : Carries header name value attributes)
      (stays : ∀ piece ∈ attributes, ¬Expires piece) : Tells header (.set name value)
  | remove {name value : Text} {attributes : List Text} (carries : Carries header name value attributes)
      (goes : ∃ piece ∈ attributes, Expires piece) : Tells header (.remove name)

def setCookies (responses : List HeaderMap) : List HeaderValue :=
  responses.flatMap fun headers => headers.getAll setCookie

/-- The last writer wins. -/
def lastWriterWins (updates : List CookieUpdate) : Text → Option Text :=
  updates.foldl CookieUpdate.write fun _ => none

/-- Both limits are kept. -/
def Within (entries : Entries) : Prop :=
  entries.length ≤ defaultMaxCookieCount ∧ cookieHeaderLen entries ≤ defaultMaxCookieBytes

/-! ## Names and values -/

variable {c : Char} {entry : Text × Text} {entries : Entries}

theorem isTokenChar_delimiters (isToken : isTokenChar c = true) : c ≠ ';' ∧ c ≠ '=' := by
  constructor
  · rintro rfl
    exact absurd isToken (by decide)
  · rintro rfl
    exact absurd isToken (by decide)

theorem isValueChar_iff : isValueChar c = true ↔ IsCookieOctet c := by
  have codes (d : Char) : c = d ↔ c.toNat = d.toNat := Char.toNat_inj.symm
  simp [isValueChar, IsCookieOctet, Char.le_def, UInt32.le_iff_toNat_le, codes]
  omega

/-- An entry that `parse_set_cookie` lets through. -/
structure ValidEntry (entry : Text × Text) : Prop where
  named : entry.1 ≠ [] ∧ ∀ c ∈ entry.1, isTokenChar c = true
  valued : ∀ c ∈ entry.2, IsCookieOctet c

theorem validEntry_iff {name value : Text} :
    (!validCookieName name || !validCookieValue value) = false ↔ ValidEntry (name, value) := by
  rw [Bool.or_eq_false_iff, Bool.not_eq_false', Bool.not_eq_false', validCookieName, validCookieValue,
    Bool.and_eq_true, List.all_eq_true, List.all_eq_true]
  simp only [isValueChar_iff]
  constructor
  · rintro ⟨⟨nonempty, isToken⟩, octets⟩
    exact ⟨⟨by simpa using nonempty, isToken⟩, octets⟩
  · rintro ⟨⟨nonempty, isToken⟩, octets⟩
    exact ⟨⟨by simpa using nonempty, isToken⟩, octets⟩

/-- What a pair is made of: visible characters, and no semicolon. -/
theorem ValidEntry.pairChars (valid : ValidEntry entry) :
    ∀ c ∈ cookiePair entry, 33 ≤ c.toNat ∧ c.toNat ≤ 126 ∧ c ≠ ';' := by
  intro c member
  rcases List.mem_append.1 member with inName | behind
  · have isToken := valid.named.2 c inName
    obtain ⟨low, high⟩ := isTokenChar_visible isToken
    exact ⟨low, high, (isTokenChar_delimiters isToken).1⟩
  · rcases List.mem_cons.1 behind with rfl | inValue
    · decide
    · obtain ⟨low, high, others⟩ := valid.valued c inValue
      refine ⟨low, high, ?_⟩
      rintro rfl
      exact others (by simp)

theorem ValidEntry.solid (valid : ValidEntry entry) : Solid (cookiePair entry) :=
  .of_forall (by simp [cookiePair]) fun c member =>
    isWhitespace_of_visible ⟨(valid.pairChars c member).1, (valid.pairChars c member).2.1⟩

/-- A pair with blanks around it is read as its entry. -/
theorem ValidEntry.splitOnce {entry : Text × Text} (valid : ValidEntry entry) {text : Text}
    (padded : Padded (cookiePair entry) text) :
    Text.splitOnce '=' (Text.trim text) = some entry := by
  rw [valid.solid.trim_eq_iff.2 padded, cookiePair, Text.splitOnce_append]
  exact fun inName => (isTokenChar_delimiters (valid.named.2 _ inName)).2 rfl

/-! ## Updates -/

theorem expiresNow_iff {piece : Text} : expiresNow piece = true ↔ Expires piece := by
  rw [expiresNow, beq_iff_eq]
  constructor
  · exact Text.assigns_of_assigned
  · intro expires
    rw [expires.assigned (by decide) (by simp [isWhitespace])]
    rfl

theorem Carries.parseSetCookie {header : HeaderValue} {name value : Text} {attributes : List Text}
    (carries : Carries header name value attributes) : parseSetCookie header =
      if attributes.any expiresNow then .ok (.remove name) else .ok (.set name value) := by
  obtain ⟨⟨text, first, isText, pieces, padded⟩, named, valued⟩ := carries
  have valid : ValidEntry (name, value) := ⟨named, valued⟩
  have found := valid.splitOnce padded
  simp only [Testing.parseSetCookie, isText, pieces, found, validEntry_iff.2 valid,
    Bool.false_eq_true, if_false]

/-- Only a value that carries a cookie is not refused. -/
theorem carries_of_parseSetCookie {header : HeaderValue} {update : CookieUpdate}
    (parsed : parseSetCookie header = .ok update) :
    ∃ name value attributes, Carries header name value attributes := by
  unfold parseSetCookie at parsed
  cases isText : HeaderValue.toStr header with
  | none => simp [isText] at parsed
  | some text =>
    cases pieces : text.splitOn ';' with
    | nil => exact absurd pieces (List.splitOn_ne_nil _ _)
    | cons first attributes =>
      cases found : Text.splitOnce '=' (Text.trim first) with
      | none => simp [isText, pieces, found] at parsed
      | some pair =>
        obtain ⟨name, value⟩ := pair
        simp only [isText, pieces, found] at parsed
        split at parsed
        · cases parsed
        · rename_i invalid
          have valid := validEntry_iff.1 (Bool.not_eq_true _ ▸ invalid)
          exact ⟨name, value, attributes,
            ⟨text, first, isText, pieces, Text.eq_of_splitOnce found ▸ Text.padded_trim first⟩,
            valid.named, valid.valued⟩

/-- The parser reads what a value tells, and refuses the others. -/
theorem parseSetCookie_eq_ok {header : HeaderValue} {update : CookieUpdate} :
    parseSetCookie header = .ok update ↔ Tells header update := by
  constructor
  · intro parsed
    obtain ⟨name, value, attributes, carries⟩ := carries_of_parseSetCookie parsed
    rw [carries.parseSetCookie] at parsed
    split at parsed <;> cases parsed
    · rename_i expires
      obtain ⟨piece, isPiece, expiresNow⟩ := List.any_eq_true.1 expires
      exact .remove carries ⟨piece, isPiece, expiresNow_iff.1 expiresNow⟩
    · rename_i lasting
      refine .set carries fun piece isPiece isExpired => lasting ?_
      exact List.any_eq_true.2 ⟨piece, isPiece, expiresNow_iff.2 isExpired⟩
  · intro tells
    cases tells with
    | set carries stays =>
      have lasting : ¬_ := mt List.any_eq_true.1 fun ⟨piece, isPiece, expires⟩ =>
        stays piece isPiece (expiresNow_iff.1 expires)
      rw [carries.parseSetCookie, if_neg lasting]
    | remove carries goes =>
      obtain ⟨piece, isPiece, expires⟩ := goes
      rw [carries.parseSetCookie,
        if_pos (List.any_eq_true.2 ⟨piece, isPiece, expiresNow_iff.2 expires⟩)]

def CookieUpdate.Valid : CookieUpdate → Prop
  | .set name value => ValidEntry (name, value)
  | .remove _ => True

theorem Tells.valid {header : HeaderValue} {update : CookieUpdate} (tells : Tells header update) :
    update.Valid := by
  cases tells with
  | set carries _ => exact ⟨carries.named, carries.valued⟩
  | remove _ _ => trivial

theorem parsedUpdates_eq_ok {headers : HeaderMap} {updates : List CookieUpdate} :
    parsedUpdates headers = .ok updates ↔ List.Forall₂ Tells (headers.getAll setCookie) updates := by
  rw [parsedUpdates, mapM_eq_ok]
  exact ⟨fun all => all.imp fun _ _ => parseSetCookie_eq_ok.1,
    fun all => all.imp fun _ _ => parseSetCookie_eq_ok.2⟩

theorem valid_of_parsedUpdates {headers : HeaderMap} {updates : List CookieUpdate}
    (parsed : parsedUpdates headers = .ok updates) : ∀ update ∈ updates, update.Valid := by
  intro update member
  obtain ⟨value, -, one⟩ := exists_of_mapM_ok parsed member
  exact (parseSetCookie_eq_ok.1 one).valid

/-- What every jar has. -/
structure Sound (entries : Entries) : Prop where
  unique : (Keyed.keys entries).Nodup
  valid : ∀ entry ∈ entries, ValidEntry entry
  few : entries.length ≤ defaultMaxCookieCount
  short : cookieHeaderLen entries ≤ defaultMaxCookieBytes

theorem sound_nil : Sound [] := ⟨List.nodup_nil, by simp, by decide, by decide⟩

theorem hget_apply (entries : Entries) (update : CookieUpdate) :
    Keyed.hget (update.apply entries) = update.write (Keyed.hget entries) := by
  funext other
  cases update with
  | set name value => rw [CookieUpdate.apply, Keyed.hget_hset, CookieUpdate.write, Function.update_apply]
  | remove name =>
    rw [CookieUpdate.apply, Keyed.hget, Keyed.find?_hdel, CookieUpdate.write, Function.update_apply]
    split_ifs
    · rfl
    · rfl

theorem Sound.apply (sound : Sound entries) {update : CookieUpdate} (isValid : update.Valid)
    (within : ¬ ((decide ((update.apply entries).length > defaultMaxCookieCount) ||
      decide (cookieHeaderLen (update.apply entries) > defaultMaxCookieBytes)) = true)) :
    Sound (update.apply entries) where
  unique := by
    have rest (name : Text) := sound.unique.filter fun key => decide (key ≠ name)
    cases update with
    | set name value =>
      rw [CookieUpdate.apply, Keyed.keys_hset, ← List.concat_eq_append]
      exact (rest name).concat (by simp)
    | remove name =>
      rw [CookieUpdate.apply, Keyed.keys_hdel]
      exact rest name
  valid := by
    have rest (name : Text) : ∀ entry ∈ Keyed.hdel entries name, ValidEntry entry := fun entry member =>
      sound.valid entry (Keyed.mem_remove.1 member).1
    cases update with
    | set name value => exact List.forall_mem_append.2 ⟨rest name, List.forall_mem_singleton.2 isValid⟩
    | remove name => exact rest name
  few := by simp at within; omega
  short := by simp at within; omega

theorem applyUpdates_ok {next : Entries} {updates : List CookieUpdate} (sound : Sound entries)
    (valid : ∀ update ∈ updates, update.Valid) (applied : applyUpdates entries updates = .ok next) :
    Sound next ∧ Keyed.hget next = updates.foldl CookieUpdate.write (Keyed.hget entries) := by
  induction updates generalizing entries with
  | nil =>
    cases applied
    exact ⟨sound, rfl⟩
  | cons update rest ih =>
    obtain ⟨first, others⟩ := List.forall_mem_cons.1 valid
    rw [applyUpdates] at applied
    split_ifs at applied with exceeds
    obtain ⟨soundNext, isNext⟩ := ih (sound.apply first exceeds) others applied
    rw [hget_apply] at isNext
    exact ⟨soundNext, isNext⟩

/-- A response changes nothing, or its updates are applied. -/
theorem absorb_cases (entries : Entries) (headers : HeaderMap) :
    (∃ error, absorb entries headers = (entries, .error error) ∧ ∀ updates next,
        parsedUpdates headers = .ok updates → applyUpdates entries updates ≠ .ok next) ∨
      ∃ updates next, parsedUpdates headers = .ok updates ∧ applyUpdates entries updates = .ok next ∧
        absorb entries headers = (next, .ok ()) := by
  unfold absorb
  cases parsed : parsedUpdates headers with
  | error error => exact .inl ⟨error, rfl, by simp⟩
  | ok updates =>
    cases updates with
    | nil => exact .inr ⟨[], entries, rfl, rfl, rfl⟩
    | cons update rest =>
      simp only [List.isEmpty_cons, Bool.false_eq_true, if_false]
      cases applied : applyUpdates entries (update :: rest) with
      | error error =>
        refine .inl ⟨error, rfl, fun updates next isUpdates isNext => ?_⟩
        cases isUpdates
        rw [applied] at isNext
        cases isNext
      | ok next => exact .inr ⟨_, next, rfl, applied, rfl⟩

/-- The updates are applied if both limits are kept after each. -/
theorem exists_applyUpdates_iff (within : Within entries) {updates : List CookieUpdate} :
    (∃ next, applyUpdates entries updates = .ok next) ↔ ∀ first rest, updates = first ++ rest →
      Within (first.foldl CookieUpdate.apply entries) := by
  induction updates generalizing entries with
  | nil =>
    refine iff_of_true ⟨entries, rfl⟩ fun first rest split => ?_
    rw [(List.append_eq_nil_iff.1 split.symm).1]
    exact within
  | cons update rest ih =>
    have exceeds : ((decide ((update.apply entries).length > defaultMaxCookieCount) ||
        decide (cookieHeaderLen (update.apply entries) > defaultMaxCookieBytes)) = true) ↔
          ¬Within (update.apply entries) := by
      simp [Within]
      omega
    rw [applyUpdates]
    by_cases next : Within (update.apply entries)
    · simp only [exceeds, next, not_true_eq_false, if_false]
      rw [ih next]
      constructor
      · intro later first others split
        cases first with
        | nil => exact within
        | cons head first =>
          rw [List.cons_append, List.cons.injEq] at split
          obtain ⟨rfl, split⟩ := split
          exact later first others split
      · intro all first others split
        exact all (update :: first) others (by rw [split, List.cons_append])
    · simp only [exceeds, next, not_false_eq_true, if_true]
      refine iff_of_false (by simp) fun all => next ?_
      exact all [update] rest rfl

theorem absorbAll_spec (sound : Sound entries) (responses : List HeaderMap) :
    Sound (absorbAll entries responses).1 ∧
      ∃ updates, List.Forall₂ Tells (setCookies (absorbAll entries responses).2) updates ∧
        Keyed.hget (absorbAll entries responses).1 =
          updates.foldl CookieUpdate.write (Keyed.hget entries) := by
  induction responses generalizing entries with
  | nil => exact ⟨sound, [], .nil, rfl⟩
  | cons headers rest ih =>
    rw [absorbAll]
    rcases absorb_cases entries headers with
      ⟨error, unchanged, -⟩ | ⟨updates, next, parsed, applied, absorbed⟩
    · rw [unchanged]
      exact ih sound
    · rw [absorbed]
      obtain ⟨soundNext, isNext⟩ := applyUpdates_ok sound (valid_of_parsedUpdates parsed) applied
      obtain ⟨soundLast, later, tellsLater, isLast⟩ := ih soundNext
      refine ⟨soundLast, updates ++ later, ?_, ?_⟩
      · exact List.rel_append (parsedUpdates_eq_ok.1 parsed) tellsLater
      · rw [isLast, isNext, List.foldl_append]

/-! ## The header -/

theorem len_append (one other : Text) : len (one ++ other) = len one + len other := by
  simp [len, Text.bytes]

theorem len_intercalate (first : Text) (rest : List Text) :
    len ("; ".toList.intercalate (first :: rest)) = ((first :: rest).map len).sum + rest.length * 2 := by
  induction rest generalizing first with
  | nil => simp
  | cons next others ih =>
    have two : len "; ".toList = 2 := by decide
    rw [List.intercalate_cons_cons, len_append, len_append, ih, two]
    simp only [List.map_cons, List.sum_cons, List.length_cons]
    omega

theorem mem_intercalate {separator : Text} {pieces : List Text}
    (member : c ∈ separator.intercalate pieces) : c ∈ separator ∨ ∃ piece ∈ pieces, c ∈ piece := by
  induction pieces with
  | nil => simp at member
  | cons first rest ih =>
    cases rest with
    | nil => exact .inr ⟨first, by simp, by simpa using member⟩
    | cons next others =>
      rw [List.intercalate_cons_cons, List.mem_append, List.mem_append] at member
      rcases member with (inFirst | inSeparator) | inRest
      · exact .inr ⟨first, by simp, inFirst⟩
      · exact .inl inSeparator
      · rcases ih inRest with inSeparator | ⟨piece, isPiece, inPiece⟩
        · exact .inl inSeparator
        · exact .inr ⟨piece, List.mem_cons_of_mem _ isPiece, inPiece⟩

/-- A header in parts: all but the first begin with a space. -/
theorem intercalate_semicolon (first : Text) (rest : List Text) :
    "; ".toList.intercalate (first :: rest) = [';'].intercalate (first :: rest.map (' ' :: ·)) := by
  induction rest generalizing first with
  | nil => rfl
  | cons next others ih =>
    have more := ih (' ' :: next)
    have shifted : "; ".toList.intercalate ((' ' :: next) :: others) =
        ' ' :: "; ".toList.intercalate (next :: others) := by
      cases others <;> simp [List.intercalate_cons_cons]
    rw [shifted] at more
    rw [List.intercalate_cons_cons, List.map_cons, List.intercalate_cons_cons, ← more]
    simp

theorem bytes_of_visible {text : Text} (visible : ∀ c ∈ text, 32 ≤ c.toNat ∧ c.toNat < 127) :
    Text.bytes text = text.map fun c => UInt8.ofNat c.toNat := by
  induction text with
  | nil => rfl
  | cons c rest ih =>
    obtain ⟨first, others⟩ := List.forall_mem_cons.1 visible
    have encoded : String.utf8EncodeChar c = [UInt8.ofNat c.toNat] :=
      if_pos (show c.toNat ≤ 127 by omega)
    rw [Text.bytes, List.flatMap_cons, encoded, ← Text.bytes, ih others]
    rfl

/-- A visible text makes a header, from which it is read again. -/
theorem tryFrom_of_visible {text : Text} (visible : ∀ c ∈ text, 32 ≤ c.toNat ∧ c.toNat < 127) :
    HeaderValue.tryFrom text = some (Text.bytes text) ∧
      HeaderValue.toStr (Text.bytes text) = some text := by
  have byte (c : Char) (member : c ∈ text) : (UInt8.ofNat c.toNat).toNat = c.toNat := by
    rw [UInt8.toNat_ofNat', Nat.mod_eq_of_lt (by have := visible c member; omega)]
  have isVisible_ : (Text.bytes text).all isVisible = true := by
    rw [bytes_of_visible visible, List.all_map, List.all_eq_true]
    intro c member
    have range := visible c member
    simp [isVisible, UInt8.le_iff_toNat_le, UInt8.lt_iff_toNat_lt, byte c member, range]
  have isHeader : (Text.bytes text).all isHeaderByte = true := by
    rw [List.all_eq_true] at isVisible_ ⊢
    intro c member
    have range := isVisible_ c member
    simp only [isVisible, isHeaderByte, Bool.or_eq_true, Bool.and_eq_true, decide_eq_true_eq] at range ⊢
    rcases range with ⟨low, high⟩ | tab
    · exact .inl ⟨low, bne_iff_ne.2 (UInt8.ne_of_lt high)⟩
    · exact .inr tab
  refine ⟨if_pos isHeader, ?_⟩
  rw [HeaderValue.toStr, if_pos isVisible_, bytes_of_visible visible, List.map_map]
  have same : ∀ c ∈ text, (charOf ∘ fun c => UInt8.ofNat c.toNat) c = c := by
    intro c member
    rw [Function.comp_apply, charOf, byte c member, Char.ofNat_toNat]
  rw [List.map_congr_left same, List.map_id']

theorem perm_ordered (entries : Entries) : (ordered entries).Perm entries := List.perm_insertionSort ..

def headerText (entries : Entries) : Text := "; ".toList.intercalate ((ordered entries).map cookiePair)

theorem ordered_ne_nil (nonempty : entries ≠ []) : ordered entries ≠ [] := fun empty =>
  nonempty (List.Perm.eq_nil (empty ▸ perm_ordered entries).symm)

/-- The limit is on the length of the header. -/
theorem len_headerText (nonempty : entries ≠ []) :
    len (headerText entries) = cookieHeaderLen entries := by
  have pair (entry : Text × Text) : len (cookiePair entry) = len entry.1 + 1 + len entry.2 := by
    have equals : len ['='] = 1 := by decide
    rw [cookiePair, len_append, ← List.singleton_append, len_append, equals, Nat.add_assoc]
  have sizes := ((perm_ordered entries).map fun entry => len entry.1 + 1 + len entry.2).sum_eq
  have count := (perm_ordered entries).length_eq
  rw [cookieHeaderLen, headerText, ← sizes, ← count]
  obtain ⟨first, rest, isCons⟩ := List.exists_cons_of_ne_nil (ordered_ne_nil nonempty)
  rw [isCons, List.map_cons, len_intercalate, ← List.map_cons, List.map_map, List.length_map,
    List.length_cons, Nat.add_sub_cancel]
  exact congrArg (fun sizes => List.sum sizes + rest.length * 2)
    (List.map_congr_left fun entry _ => pair entry)

/-- The parts of the header are the entries. -/
theorem splitOn_headerText (sound : Sound entries) (nonempty : entries ≠ []) :
    ((headerText entries).splitOn ';').filterMap (fun part => Text.splitOnce '=' (Text.trim part)) =
      ordered entries := by
  have valid : ∀ entry ∈ ordered entries, ValidEntry entry := fun entry member =>
    sound.valid entry ((perm_ordered entries).mem_iff.1 member)
  have some_ := ordered_ne_nil nonempty
  rw [headerText]
  generalize ordered entries = list at valid some_
  obtain ⟨first, rest, rfl⟩ := List.exists_cons_of_ne_nil some_
  obtain ⟨validFirst, validRest⟩ := List.forall_mem_cons.1 valid
  have whole {entry : Text × Text} (isValid : ValidEntry entry) : ';' ∉ cookiePair entry := fun member =>
    (isValid.pairChars _ member).2.2 rfl
  have parts : ∀ part ∈ cookiePair first :: (rest.map cookiePair).map (' ' :: ·), ';' ∉ part := by
    refine List.forall_mem_cons.2 ⟨whole validFirst, ?_⟩
    rintro part member
    obtain ⟨entry, isEntry, rfl⟩ := List.mem_map.1 (List.map_map ▸ member)
    simpa using whole (validRest entry isEntry)
  have readFirst : Text.splitOnce '=' (Text.trim (cookiePair first)) = some first :=
    validFirst.splitOnce ⟨[], [], by simp, by simp, by simp⟩
  rw [List.map_cons, intercalate_semicolon, List.splitOn_intercalate _ parts (List.cons_ne_nil _ _),
    List.filterMap_cons, readFirst, List.map_map, List.filterMap_map]
  have each : ∀ entry ∈ rest, ((fun part => Text.splitOnce '=' (Text.trim part)) ∘
      (' ' :: ·) ∘ cookiePair) entry = some entry := fun entry member =>
    (validRest entry member).splitOnce
      ⟨[' '], [], by simp, List.forall_mem_singleton.2 rfl, by simp⟩
  rw [List.filterMap_congr each, List.filterMap_some]

theorem filterMap_key (unique : (Keyed.keys entries).Nodup) (member : entry ∈ entries) :
    (entries.filterMap fun pair => if pair.1 = entry.1 then some pair.2 else none) = [entry.2] := by
  induction entries with
  | nil => cases member
  | cons first rest ih =>
    obtain ⟨fresh, others⟩ := List.nodup_cons.1 unique
    rcases List.mem_cons.1 member with rfl | later
    · have absent : ∀ pair ∈ rest, (if pair.1 = entry.1 then some pair.2 else none) = none := by
        intro pair inside
        refine if_neg fun same => fresh ?_
        rw [← same]
        exact List.mem_map_of_mem inside
      rw [List.filterMap_cons, if_pos rfl, List.filterMap_eq_nil_iff.2 absent]
    · have other : first.1 ≠ entry.1 := by
        intro same
        refine fresh ?_
        rw [same]
        exact List.mem_map_of_mem later
      rw [List.filterMap_cons, if_neg other, ih others later]

theorem requestHeader_sound (sound : Sound entries) (nonempty : entries ≠ []) :
    ∃ header, requestHeader entries = .ok (some header) ∧ header.length ≤ defaultMaxCookieBytes ∧
      HeaderValue.toStr header = some (headerText entries) := by
  have visible : ∀ c ∈ headerText entries, 32 ≤ c.toNat ∧ c.toNat < 127 := by
    have ofPair : ∀ pair ∈ (ordered entries).map cookiePair, ∀ c ∈ pair, 32 ≤ c.toNat ∧ c.toNat < 127 := by
      intro pair isPair c member
      obtain ⟨entry, isEntry, rfl⟩ := List.mem_map.1 isPair
      have range := (sound.valid entry ((perm_ordered entries).mem_iff.1 isEntry)).pairChars c member
      omega
    intro c member
    rcases mem_intercalate member with inSeparator | ⟨pair, isPair, inPair⟩
    · rcases List.mem_pair.1 inSeparator with rfl | rfl <;> decide
    · exact ofPair pair isPair c inPair
  obtain ⟨made, reads⟩ := tryFrom_of_visible visible
  refine ⟨Text.bytes (headerText entries), ?_, ?_, reads⟩
  · rw [requestHeader, List.isEmpty_eq_false_iff.2 nonempty, if_neg Bool.false_ne_true, ← headerText, made]
  · exact (len_headerText nonempty).trans_le sound.short

/-- **The session middleware finds every cookie of the jar.** -/
theorem sessionId_requestHeader (sound : Sound entries) {header : HeaderValue}
    (reads : HeaderValue.toStr header = some (headerText entries)) (member : entry ∈ entries) {Id : Type}
    (parse : Text → Option Id) :
    sessionId parse [(cookie, header)] entry.1 = parse entry.2 := by
  have one : HeaderMap.getAll [(cookie, header)] cookie = [header] := by simp [HeaderMap.getAll]
  have unique : (Keyed.keys (ordered entries)).Nodup :=
    ((perm_ordered entries).map Prod.fst).nodup_iff.2 sound.unique
  rw [sessionId, one]
  simp only [reads, Option.bind_some, splitOn_headerText sound (List.ne_nil_of_mem member),
    filterMap_key unique ((perm_ordered entries).mem_iff.2 member)]

/-- A response is accepted if each of its cookies can be read and the limits are kept. -/
theorem absorb_ok_iff (within : Within entries) (headers : HeaderMap) :
    (absorb entries headers).2 = .ok () ↔
      ∃ updates, List.Forall₂ Tells (headers.getAll setCookie) updates ∧
        ∀ first rest, updates = first ++ rest → Within (first.foldl CookieUpdate.apply entries) := by
  rcases absorb_cases entries headers with
    ⟨error, unchanged, failed⟩ | ⟨updates, next, parsed, applied, absorbed⟩
  · rw [unchanged]
    refine iff_of_false (by simp) ?_
    rintro ⟨updates, tells, all⟩
    obtain ⟨next, applied⟩ := (exists_applyUpdates_iff within).2 all
    exact failed updates next (parsedUpdates_eq_ok.2 tells) applied
  · rw [absorbed]
    exact iff_of_true rfl ⟨updates, parsedUpdates_eq_ok.1 parsed,
      (exists_applyUpdates_iff within).1 ⟨next, applied⟩⟩

/-- **The cookies of a jar.**  After any responses they are what the last writer among the accepted
ones left, within both limits.  A response is accepted if each of its cookies can be read and the
limits are kept, and changes nothing if it is not; the header is built without a panic, and the
session middleware finds in it the value of each cookie under its name. -/
theorem jar_after_responses (responses : List HeaderMap) :
    let run := absorbAll [] responses
    (∃ updates, List.Forall₂ Tells (setCookies run.2) updates ∧
        Keyed.hget run.1 = lastWriterWins updates) ∧
      (Keyed.keys run.1).Nodup ∧
      (∀ headers, (absorb run.1 headers).2 = .ok () ↔
        ∃ updates, List.Forall₂ Tells (headers.getAll setCookie) updates ∧
          ∀ first rest, updates = first ++ rest → Within (first.foldl CookieUpdate.apply run.1)) ∧
      (∀ headers value, value ∈ headers.getAll setCookie → (∀ update, ¬Tells value update) →
        ∃ told, absorb run.1 headers = (run.1, .error told)) ∧
      (∀ headers next error, absorb run.1 headers = (next, .error error) → next = run.1) ∧
      run.1.length ≤ defaultMaxCookieCount ∧
      ∃ header, requestHeader run.1 = .ok header ∧
        (∀ value ∈ header, value.length ≤ defaultMaxCookieBytes) ∧
        ∀ entry ∈ run.1, ∃ value, header = some value ∧
          ∀ (Id : Type) (parse : Text → Option Id),
            sessionId parse [(cookie, value)] entry.1 = parse entry.2 := by
  intro run
  obtain ⟨sound, isLast⟩ := absorbAll_spec sound_nil responses
  refine ⟨isLast, sound.unique, absorb_ok_iff ⟨sound.few, sound.short⟩, ?_, ?_, sound.few, ?_⟩
  · intro headers value isHeader untold
    rcases absorb_cases run.1 headers with ⟨error, unchanged, -⟩ | ⟨updates, next, parsed, -, -⟩
    · exact ⟨error, unchanged⟩
    · obtain ⟨update, tells⟩ := exists_ok_of_mapM parsed isHeader
      exact (untold update (parseSetCookie_eq_ok.1 tells)).elim
  · intro headers next error absorbed
    rcases absorb_cases run.1 headers with ⟨_, unchanged, -⟩ | ⟨_, _, -, -, accepted⟩
    · rw [unchanged] at absorbed
      exact (Prod.ext_iff.1 absorbed).1.symm
    · rw [accepted] at absorbed
      cases absorbed
  · by_cases empty : run.1 = []
    · refine ⟨none, ?_, by simp, by simp [empty]⟩
      rw [empty]
      rfl
    · obtain ⟨header, made, short, reads⟩ := requestHeader_sound sound empty
      refine ⟨some header, made, by simpa using short, ?_⟩
      intro entry member
      exact ⟨header, rfl, fun Id parse => sessionId_requestHeader sound reads member parse⟩

-- the last writer wins, a name with a blank is refused, and a cookie that expires is removed
example : absorbAll [] [
      [(setCookie, Text.bytes "sid=a; Path=/".toList)],
      [(setCookie, Text.bytes "sid=b".toList), (setCookie, Text.bytes " theme=dark; Max-Age=60".toList)],
      [(setCookie, Text.bytes "si d=c".toList), (setCookie, Text.bytes "sid=c".toList)],
      [(setCookie, Text.bytes "theme=; max-age = 0".toList)]] =
    ([("sid".toList, "b".toList)], [
      [(setCookie, Text.bytes "sid=a; Path=/".toList)],
      [(setCookie, Text.bytes "sid=b".toList), (setCookie, Text.bytes " theme=dark; Max-Age=60".toList)],
      [(setCookie, Text.bytes "theme=; max-age = 0".toList)]]) := by
  decide +kernel

end Rustee.Testing
