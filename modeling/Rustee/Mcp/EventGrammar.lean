/-
# Rustee.Mcp.EventGrammar -- where the frame search agrees with the grammar

`take_sse_frame` looks for three delimiters.  The grammar of event streams knows more blank lines
than these: the ends of the two lines may differ, and a blank line may be the first one.  The search
finds the events of a stream exactly when each of them ends in a delimiter
(`frames_are_events_iff`).

The other search of the repository, `sse_frame_end`, goes line by line and follows the grammar
(`event_iff`), so events are counted with it.
-/
import Rustee.Foundation.EventStream
import Rustee.Mcp.Sse
import Rustee.OpenAi.Sse
import Mathlib.Data.List.Infix

namespace Rustee.Mcp

open Rustee.Foundation Rustee.Foundation.EventStream
open Rustee.OpenAi (sseFrameEndFrom sseFrameEndFrom_crlf sseFrameEndFrom_break sseFrameEndFrom_other
  sseFrameEndFrom_bounds byLineBreaks cr lf)

set_option autoImplicit false

/-! ## Line by line -/

/-- Induction on bytes by the ends of their lines. -/
@[elab_as_elim]
theorem byEndsOfLine {P : List UInt8 → Prop} (bytes : List UInt8) (nil : P [])
    (endOfLine : ∀ eol rest, EndOfLine eol rest → P rest → P (eol ++ rest))
    (other : ∀ byte rest, byte ≠ 13 ∧ byte ≠ 10 → P rest → P (byte :: rest)) : P bytes := by
  induction bytes using byLineBreaks with
  | nil => exact nil
  | crlf rest ih => exact endOfLine [13, 10] rest (.crlf rest) ih
  | break_ byte rest isBreak single ih =>
    rcases isBreak with rfl | rfl
    · exact endOfLine [13] rest (.cr (single rfl)) ih
    · exact endOfLine [10] rest (.lf rest) ih
  | other byte rest inLine ih => exact other byte rest inLine ih

variable {index lineStart : Nat} {eol rest buffer : List UInt8} {byte : UInt8}

theorem sseFrameEndFrom_text {text : List UInt8} (unbroken : Unbroken text) (rest : List UInt8) :
    sseFrameEndFrom index lineStart (text ++ rest) =
      sseFrameEndFrom (index + text.length) lineStart rest := by
  induction text generalizing index with
  | nil => rfl
  | cons byte text ih =>
    obtain ⟨other, unbroken⟩ := List.forall_mem_cons.1 unbroken
    rw [List.cons_append, sseFrameEndFrom_other _ _ _ other, ih unbroken, List.length_cons,
      Nat.add_right_comm, Nat.add_assoc]

theorem sseFrameEndFrom_endOfLine (ends : EndOfLine eol rest) :
    sseFrameEndFrom index lineStart (eol ++ rest) =
      if index = lineStart then some (index + eol.length)
      else sseFrameEndFrom (index + eol.length) (index + eol.length) rest := by
  cases ends with
  | crlf => exact sseFrameEndFrom_crlf index lineStart rest
  | lf => exact sseFrameEndFrom_break index lineStart (.inr rfl) fun isCr => absurd isCr (by decide)
  | cr alone => exact sseFrameEndFrom_break index lineStart (.inl rfl) fun _ => alone

/-- Within a line it does not matter where the line began. -/
theorem sseFrameEndFrom_inLine {lineStart' : Nat} (bytes : List UInt8) (inLine : lineStart < index)
    (inLine' : lineStart' < index) :
    sseFrameEndFrom index lineStart bytes = sseFrameEndFrom index lineStart' bytes := by
  induction bytes using byEndsOfLine generalizing index with
  | nil => rfl
  | endOfLine eol rest ends _ =>
    rw [sseFrameEndFrom_endOfLine ends, sseFrameEndFrom_endOfLine ends, if_neg (by omega),
      if_neg (by omega)]
  | other byte rest other ih =>
    rw [sseFrameEndFrom_other _ _ _ other, sseFrameEndFrom_other _ _ _ other]
    exact ih (by omega) (by omega)

theorem sseFrameEndFrom_event {index : Nat} {event rest : List UInt8} (isEvent : Event event rest) :
    sseFrameEndFrom index index (event ++ rest) = some (index + event.length) := by
  induction isEvent generalizing index with
  | blank ends => rw [sseFrameEndFrom_endOfLine ends, if_pos rfl]
  | @line text eol event rest nonempty unbroken ends _ ih =>
    have positive := List.length_pos_of_ne_nil nonempty
    rw [List.append_assoc, sseFrameEndFrom_text unbroken, List.append_assoc,
      sseFrameEndFrom_endOfLine ends, if_neg (by omega), ih]
    simp only [List.length_append]
    congr 1
    omega

/-- A line and the rest of an event, of which some of the line may have been read. -/
def EventTail (tail rest : List UInt8) : Prop :=
  ∃ text eol event, tail = text ++ (eol ++ event) ∧ Unbroken text ∧ EndOfLine eol (event ++ rest) ∧
    Event event rest

theorem Event.ofTail {tail : List UInt8} (other : byte ≠ 13 ∧ byte ≠ 10)
    (isTail : EventTail tail rest) : Event (byte :: tail) rest := by
  obtain ⟨text, eol, event, rfl, unbroken, ends, isEvent⟩ := isTail
  exact .line (List.cons_ne_nil byte text) (List.forall_mem_cons.2 ⟨other, unbroken⟩) ends isEvent

theorem event_of_found (bytes : List UInt8) :
    (∀ index n, sseFrameEndFrom index index bytes = some (index + n) →
      Event (bytes.take n) (bytes.drop n)) ∧
    ∀ index lineStart n, lineStart < index → sseFrameEndFrom index lineStart bytes = some (index + n) →
      EventTail (bytes.take n) (bytes.drop n) := by
  induction bytes using byEndsOfLine with
  | nil => exact ⟨fun _ _ found => (nomatch found), fun _ _ _ _ found => (nomatch found)⟩
  | endOfLine eol rest ends ih =>
    constructor
    · intro index n found
      rw [sseFrameEndFrom_endOfLine ends, if_pos rfl, Option.some.injEq, Nat.add_left_cancel_iff] at found
      rw [← found, List.take_left, List.drop_left]
      exact .blank ends
    · intro index lineStart n inLine found
      rw [sseFrameEndFrom_endOfLine ends, if_neg (by omega)] at found
      have bounds := sseFrameEndFrom_bounds found
      obtain ⟨m, rfl⟩ : ∃ m, n = eol.length + m := ⟨n - eol.length, by omega⟩
      rw [← Nat.add_assoc] at found
      rw [List.take_length_add_append, List.drop_length_add_append]
      refine ⟨[], eol, rest.take m, rfl, List.forall_mem_nil _, ?_, ih.1 _ m found⟩
      rwa [List.take_append_drop]
  | other byte rest other ih =>
    constructor
    · intro index n found
      rw [sseFrameEndFrom_other _ _ _ other] at found
      have bounds := sseFrameEndFrom_bounds found
      obtain ⟨m, rfl⟩ : ∃ m, n = m + 1 := ⟨n - 1, by omega⟩
      rw [Nat.add_comm m, ← Nat.add_assoc] at found
      exact Event.ofTail other (ih.2 (index + 1) index m (Nat.lt_succ_self index) found)
    · intro index lineStart n inLine found
      rw [sseFrameEndFrom_other _ _ _ other] at found
      have bounds := sseFrameEndFrom_bounds found
      obtain ⟨m, rfl⟩ : ∃ m, n = m + 1 := ⟨n - 1, by omega⟩
      rw [Nat.add_comm m, ← Nat.add_assoc] at found
      obtain ⟨text, eol, event, isTail, unbroken, more⟩ := ih.2 (index + 1) lineStart m (by omega) found
      refine ⟨byte :: text, eol, event, ?_, List.forall_mem_cons.2 ⟨other, unbroken⟩, more⟩
      rw [List.take_succ_cons, isTail, List.cons_append]

/-- The search that goes line by line finds the events of the grammar. -/
theorem event_iff {event : List UInt8} :
    Event event rest ↔ OpenAi.sseFrameEnd (event ++ rest) = some event.length := by
  constructor
  · intro isEvent
    have found := @sseFrameEndFrom_event 0 event rest isEvent
    rwa [Nat.zero_add] at found
  · intro found
    have isEvent := (event_of_found (event ++ rest)).1 0 event.length (by rw [Nat.zero_add]; exact found)
    rwa [List.take_left, List.drop_left] at isEvent

theorem events_iff {stream : List UInt8} {events : List (List UInt8)} :
    Events stream events ↔ events = OpenAi.sseFraming.frames stream := by
  constructor
  · intro isEvents
    induction isEvents with
    | @incomplete stream none =>
      cases found : OpenAi.sseFraming.frameEnd stream with
      | none => rw [OpenAi.sseFraming.frames_none found]
      | some n =>
        have isEvent := (event_of_found stream).1 0 n (by rw [Nat.zero_add]; exact found)
        exact absurd isEvent (none _ _ (List.take_append_drop n stream).symm)
    | @more event rest events first _ ih =>
      rw [OpenAi.sseFraming.frames_some (event_iff.1 first), List.take_left, List.drop_left, ih]
  · rintro rfl
    induction stream using OpenAi.sseFraming.induction with
    | incomplete stream incomplete =>
      rw [OpenAi.sseFraming.frames_none incomplete]
      refine .incomplete fun event rest isStream isEvent => ?_
      have found := event_iff.1 isEvent
      rw [← isStream, show OpenAi.sseFrameEnd stream = none from incomplete] at found
      cases found
    | frame stream n found ih =>
      have isEvent := (event_of_found stream).1 0 n (by rw [Nat.zero_add]; exact found)
      rw [OpenAi.sseFraming.frames_some found]
      conv_lhs => rw [← List.take_append_drop n stream]
      exact .more isEvent ih

/-! ## The delimiters -/

/-- The event ends in one of the delimiters. -/
def endsInDelimiter (event : List UInt8) : Bool := delimiters.any fun needle => needle.isSuffixOf event

theorem isSuffix_append_cons_iff {needle front back : List UInt8} (absent : byte ∉ needle) :
    needle <:+ front ++ byte :: back ↔ needle <:+ back := by
  constructor
  · intro ends
    have whole : byte :: back <:+ front ++ byte :: back := List.suffix_append ..
    rcases Nat.lt_or_ge back.length needle.length with long | short
    · have inside := List.suffix_of_suffix_length_le whole ends long
      exact absurd (inside.subset List.mem_cons_self) absent
    · have tail : back <:+ front ++ byte :: back := (List.suffix_cons byte back).trans whole
      exact List.suffix_of_suffix_length_le ends tail short
  · intro ends
    exact (ends.trans (List.suffix_cons byte back)).trans (List.suffix_append ..)

theorem endsInDelimiter_append_cons (front back : List UInt8) (other : byte ≠ 13 ∧ byte ≠ 10) :
    endsInDelimiter (front ++ byte :: back) = endsInDelimiter back := by
  have absent : ∀ needle ∈ delimiters, byte ∉ needle := by
    simp [delimiters, other.1, other.2]
  rw [Bool.eq_iff_iff, endsInDelimiter, endsInDelimiter, List.any_eq_true, List.any_eq_true]
  refine exists_congr fun needle => and_congr_right fun member => ?_
  rw [List.isSuffixOf_iff_suffix, List.isSuffixOf_iff_suffix,
    isSuffix_append_cons_iff (absent needle member)]

/-- The search stops behind a delimiter. -/
theorem endsInDelimiter_of_search {n : Nat} (found : search buffer = some n) :
    endsInDelimiter (buffer.take n) = true := by
  rw [endsInDelimiter, List.any_eq_true]
  induction buffer generalizing n with
  | nil => cases found
  | cons byte rest ih =>
    rw [search] at found
    cases here : delimiterAt (byte :: rest) with
    | some length =>
      rw [here] at found
      cases found
      obtain ⟨needle, isFound, rfl⟩ := Option.map_eq_some_iff.1 here
      obtain ⟨others, isBuffer⟩ : needle <+: byte :: rest := by simpa using List.find?_some isFound
      refine ⟨needle, List.mem_of_find?_eq_some isFound, ?_⟩
      rw [← isBuffer, List.take_left, List.isSuffixOf_iff_suffix]
    | none =>
      rw [here] at found
      obtain ⟨m, isEnd, rfl⟩ := Option.map_eq_some_iff.1 found
      obtain ⟨needle, member, ends⟩ := ih isEnd
      refine ⟨needle, member, ?_⟩
      rw [List.isSuffixOf_iff_suffix] at ends ⊢
      exact ends.trans (List.suffix_cons ..)

/-- Text is not part of a delimiter. -/
theorem search_other (rest : List UInt8) (other : byte ≠ 13 ∧ byte ≠ 10) :
    search (byte :: rest) = (search rest).map (· + 1) := by
  have notCr : (13 == byte) = false := by simpa using other.1.symm
  have notLf : (10 == byte) = false := by simpa using other.2.symm
  simp [search, delimiterAt, delimiters, List.find?, List.isPrefixOf, notCr, notLf]

/-- An end of line before text is no delimiter. -/
theorem search_endOfLine_other (ends : EndOfLine eol (byte :: rest)) (other : byte ≠ 13 ∧ byte ≠ 10) :
    search (eol ++ byte :: rest) = (search (byte :: rest)).map (· + eol.length) := by
  have notCr : (13 == byte) = false := by simpa using other.1.symm
  have notLf : (10 == byte) = false := by simpa using other.2.symm
  rw [search_other rest other]
  cases ends <;>
    simp [search, delimiterAt, delimiters, List.find?, List.isPrefixOf, notCr, notLf, Function.comp_def]

/-- Two ends of line that end in a delimiter stop the search. -/
theorem search_blank {eol' : List UInt8} (ends : EndOfLine eol (eol' ++ rest))
    (ends' : EndOfLine eol' rest)
    (delimited : endsInDelimiter (eol ++ eol') = true) :
    search (eol ++ (eol' ++ rest)) = some (eol.length + eol'.length) := by
  cases ends with
  | crlf =>
    cases ends' with
    | crlf => simp [search, delimiterAt, delimiters, List.isPrefixOf]
    | lf => simp [search, delimiterAt, delimiters, List.isPrefixOf]
    | cr => exact absurd delimited (by decide)
  | lf =>
    cases ends' with
    | crlf => exact absurd delimited (by decide)
    | lf => simp [search, delimiterAt, delimiters, List.isPrefixOf]
    | cr => exact absurd delimited (by decide)
  | cr alone =>
    cases ends' with
    | crlf => exact absurd delimited (by decide)
    | lf => exact absurd rfl alone
    | cr => simp [search, delimiterAt, delimiters, List.isPrefixOf]

/-- Where a line has begun: the two searches find nothing together, and the delimiters are found
where they end an event. -/
theorem search_inLine (bytes : List UInt8) (inLine : lineStart < index) :
    (sseFrameEndFrom index lineStart bytes = none → search bytes = none) ∧
      ∀ n, sseFrameEndFrom index lineStart bytes = some (index + n) →
        endsInDelimiter (bytes.take n) = true → search bytes = some n := by
  induction bytes using byEndsOfLine generalizing index lineStart with
  | nil => exact ⟨fun _ => rfl, fun _ found => by cases found⟩
  | other byte rest other ih =>
    rw [sseFrameEndFrom_other _ _ _ other, search_other rest other]
    obtain ⟨absent, present⟩ := ih (show lineStart < index + 1 by omega)
    refine ⟨fun none => by rw [absent none, Option.map_none], fun n found delimited => ?_⟩
    have bounds := sseFrameEndFrom_bounds found
    obtain ⟨m, rfl⟩ : ∃ m, n = m + 1 := ⟨n - 1, by omega⟩
    rw [Nat.add_comm m, ← Nat.add_assoc] at found
    rw [List.take_succ_cons, ← List.nil_append (byte :: _), endsInDelimiter_append_cons [] _ other] at delimited
    rw [present m found delimited, Option.map_some]
  | endOfLine eol rest ends ih =>
    rw [sseFrameEndFrom_endOfLine ends, if_neg (by omega)]
    have positive : 0 < eol.length := by cases ends <;> decide
    induction rest using byEndsOfLine with
    | nil =>
      refine ⟨fun _ => ?_, fun _ found => by cases found⟩
      cases ends <;> simp [search, delimiterAt, delimiters, List.isPrefixOf]
    | endOfLine eol' rest ends' _ =>
      rw [sseFrameEndFrom_endOfLine ends', if_pos rfl]
      refine ⟨fun none => (by cases none), fun n found delimited => ?_⟩
      obtain rfl : n = eol.length + eol'.length := by
        rw [Option.some.injEq] at found
        omega
      rw [List.take_length_add_append, List.take_left] at delimited
      exact search_blank ends ends' delimited
    | other byte rest other _ =>
      obtain ⟨absent, present⟩ := ih (show index < index + eol.length by omega)
      rw [search_endOfLine_other ends other]
      rw [sseFrameEndFrom_other _ _ _ other] at absent present ⊢
      rw [sseFrameEndFrom_inLine rest (Nat.lt_succ_self _) (show index < index + eol.length + 1 by omega)]
      refine ⟨fun none => by rw [absent none, Option.map_none], fun n found delimited => ?_⟩
      have bounds := sseFrameEndFrom_bounds found
      obtain ⟨m, rfl⟩ : ∃ m, n = eol.length + (m + 1) := ⟨n - eol.length - 1, by omega⟩
      rw [List.take_length_add_append, List.take_succ_cons, endsInDelimiter_append_cons _ _ other,
        ← endsInDelimiter_append_cons [] _ other, List.nil_append, ← List.take_succ_cons] at delimited
      rw [← Nat.add_assoc] at found
      rw [present (m + 1) found delimited, Option.map_some, Nat.add_comm]

theorem search_of_frameEnd_none (incomplete : OpenAi.sseFrameEnd buffer = none) :
    search buffer = none := by
  induction buffer using byEndsOfLine with
  | nil => rfl
  | endOfLine eol rest ends _ =>
    rw [OpenAi.sseFrameEnd, sseFrameEndFrom_endOfLine ends, if_pos rfl] at incomplete
    cases incomplete
  | other byte rest other _ =>
    rw [OpenAi.sseFrameEnd, sseFrameEndFrom_other _ _ _ other] at incomplete
    rw [search_other rest other, (search_inLine rest Nat.one_pos).1 incomplete, Option.map_none]

/-- The search finds an event exactly if it ends in a delimiter. -/
theorem search_of_frameEnd {n : Nat} (found : OpenAi.sseFrameEnd buffer = some n) :
    search buffer = some n ↔ endsInDelimiter (buffer.take n) = true := by
  refine ⟨endsInDelimiter_of_search, fun delimited => ?_⟩
  induction buffer using byEndsOfLine with
  | nil => cases found
  | endOfLine eol rest ends _ =>
    rw [OpenAi.sseFrameEnd, sseFrameEndFrom_endOfLine ends, if_pos rfl, Nat.zero_add] at found
    cases found
    rw [List.take_left] at delimited
    cases ends <;> exact absurd delimited (by decide)
  | other byte rest other _ =>
    rw [OpenAi.sseFrameEnd, sseFrameEndFrom_other _ _ _ other] at found
    have bounds := sseFrameEndFrom_bounds found
    obtain ⟨m, rfl⟩ : ∃ m, n = m + 1 := ⟨n - 1, by omega⟩
    rw [List.take_succ_cons, ← List.nil_append (byte :: _), endsInDelimiter_append_cons [] _ other] at delimited
    rw [search_other rest other, (search_inLine rest Nat.one_pos).2 m (by rw [found]; congr 1; omega) delimited,
      Option.map_some]

/-! ## Frames and events -/

theorem frames_eq_iff (stream : List UInt8) :
    sseFraming.frames stream = OpenAi.sseFraming.frames stream ↔
      ∀ event ∈ OpenAi.sseFraming.frames stream, endsInDelimiter event = true := by
  induction stream using OpenAi.sseFraming.induction with
  | incomplete stream incomplete =>
    have none : sseFraming.frameEnd stream = none :=
      (sseFrameEnd_eq_search stream).trans (search_of_frameEnd_none incomplete)
    rw [OpenAi.sseFraming.frames_none incomplete, sseFraming.frames_none none]
    simp
  | frame stream n found ih =>
    have agrees := search_of_frameEnd found
    rw [← sseFrameEnd_eq_search] at agrees
    have within := OpenAi.sseFraming.le found
    rw [OpenAi.sseFraming.frames_some found, List.forall_mem_cons, ← ih, ← agrees]
    constructor
    · intro same
      cases here : sseFraming.frameEnd stream with
      | none =>
        rw [sseFraming.frames_none here] at same
        cases same
      | some m =>
        rw [sseFraming.frames_some here] at same
        obtain ⟨sameFrame, sameRest⟩ := List.cons.inj same
        have sameLength := congrArg List.length sameFrame
        rw [List.length_take, List.length_take, Nat.min_eq_left (sseFraming.le here),
          Nat.min_eq_left within] at sameLength
        subst sameLength
        exact ⟨here, sameRest⟩
    · rintro ⟨here, sameRest⟩
      rw [sseFraming.frames_some here, sameRest]

/-- **The frames are the events of the grammar** exactly where every event ends in a delimiter. -/
theorem frames_are_events_iff (stream : List UInt8) :
    Events stream (sseFraming.frames stream) ↔
      ∀ events, Events stream events → ∀ event ∈ events, endsInDelimiter event = true := by
  simp only [events_iff, forall_eq, frames_eq_iff]

/-- `data: a`, a blank line of LF and CRLF, `data: b` and a blank line of two LFs: two events, and one
frame. -/
theorem mixed_blank_line_missed :
    Events (Text.bytes "data: a\n\r\ndata: b\n\n".toList)
      [Text.bytes "data: a\n\r\n".toList, Text.bytes "data: b\n\n".toList] ∧
    sseFraming.frames (Text.bytes "data: a\n\r\ndata: b\n\n".toList) =
      [Text.bytes "data: a\n\r\ndata: b\n\n".toList] := by
  refine ⟨events_iff.2 ?_, ?_⟩ <;> decide +kernel

end Rustee.Mcp
