/-
# Rustee.Static.Delivery -- the length a response declares, and the bytes it sends

`rustee-static/src/delivery.rs` and `src/response/multipart.rs`.  The length is computed from the
ranges before anything is read; the body is the file read at once, a range of it read at once, a
stream of pieces, or the parts of a multipart body with a stream each.

Every operation on the file may fail and every read may be short, but the file does not change.
`content_length_agrees` says that the declared length is that of the text the body delivers, and
what this text is for each kind of request.
-/
import Rustee.Foundation.ByteStream
import Rustee.Foundation.Utf8
import Rustee.Static.Range

namespace Rustee.Static

set_option autoImplicit false

open Rustee.Foundation

variable {Error : Type}

def streamingChunkBytes : Nat := 16 * 1024

/-- A file, whose length is a `u64`. -/
structure StaticFile where
  content : List UInt8
  sized : content.length ≤ u64Max

/-- `metadata.len()`. -/
def StaticFile.len (file : StaticFile) : UInt64 := UInt64.ofNat file.content.length

theorem StaticFile.toNat_len (file : StaticFile) : file.len.toNat = file.content.length :=
  UInt64.toNat_ofNat_of_lt (Nat.lt_succ_of_le file.sized)

/-! ## Bodies -/

/-- The file is opened, positioned and read in pieces up to the length. -/
def streamingFileBody (content : List UInt8) (offset length : Nat) (steps : List (IoStep Error)) :
    Option (Body Error) :=
  perform steps (fun _ => none) fun steps =>
    perform steps (fun _ => none) fun steps =>
      some (readChunks streamingChunkBytes length (content.drop offset) length steps).1

/-- `read_exact` reads on until the buffer is full, so that short reads do not show.  A `usize` holds
every length. -/
def readFileRange (content : List UInt8) (offset length : Nat) (steps : List (IoStep Error)) :
    Option (List UInt8) :=
  perform steps (fun _ => none) fun steps =>
    perform steps (fun _ => none) fun steps =>
      perform steps (fun _ => none) fun _ =>
        let bytes := (content.drop offset).take length
        if bytes.length = length then some bytes else none

def staticFileBody (content : List UInt8) (offset length : Nat) (streamingThreshold : Option UInt64)
    (fullRepresentation : Bool) (steps : List (IoStep Error)) : Option (Body Error) :=
  if streamingThreshold.any fun threshold => threshold.toNat ≤ length then
    streamingFileBody content offset length steps
  else if fullRepresentation then
    perform steps (fun _ => none) fun _ =>
      if content.length = length then some [.ok content] else none
  else (readFileRange content offset length steps).map fun bytes => [.ok bytes]

/-! ## Parts -/

/-- `bytes {start}-{end}/{length}`. -/
def contentRangeHeader (range : ByteRange) (fullLength : UInt64) : Text :=
  "bytes ".toList ++ (Nat.repr range.start).toList ++ "-".toList ++ (Nat.repr range.last).toList ++
    "/".toList ++ (Nat.repr fullLength.toNat).toList

def multipartPartHeader (boundary contentType : Text) (range : ByteRange) (fullLength : UInt64) :
    List UInt8 :=
  Text.bytes ("--".toList ++ boundary ++ "\r\nContent-Type: ".toList ++ contentType ++
    "\r\nContent-Range: ".toList ++ contentRangeHeader range fullLength ++ "\r\n\r\n".toList)

def multipartClosingBoundary (boundary : Text) : List UInt8 :=
  Text.bytes ("--".toList ++ boundary ++ "--\r\n".toList)

def lineEnd : List UInt8 := [13, 10]

/-- What the loop adds up, and `checked_add` when it is too much; nothing if arithmetic leaves `u64`
in `ByteRange::len`. -/
def addPart (boundary contentType : Text) (fullLength : UInt64) (length : Nat) (range : ByteRange) :
    Option (Option Nat) := do
  let rangeLength ← ByteRange.len range
  some do
    let length ← checkedAdd u64Max length (multipartPartHeader boundary contentType range fullLength).length
    let length ← checkedAdd u64Max length rangeLength
    checkedAdd u64Max length 2

def addParts (boundary contentType : Text) (fullLength : UInt64) :
    Nat → List ByteRange → Option (Option Nat)
  | length, [] => some (checkedAdd u64Max length (multipartClosingBoundary boundary).length)
  | length, range :: ranges => do
    match ← addPart boundary contentType fullLength length range with
    | none => some none
    | some length => addParts boundary contentType fullLength length ranges

def multipartContentLength (boundary contentType : Text) (ranges : List ByteRange)
    (fullLength : UInt64) : Option (Option Nat) :=
  addParts boundary contentType fullLength 0 ranges

/-- The items of the generator.  It ends when the file cannot be opened or positioned; an error of
a read ends the part only, and whoever sends the body stops there. -/
def multipartFileBody (content : List UInt8) (boundary contentType : Text) (fullLength : UInt64) :
    List ByteRange → List (IoStep Error) → Option (Body Error)
  | [], _ => some [.ok (multipartClosingBoundary boundary)]
  | range :: ranges, steps =>
    let header := multipartPartHeader boundary contentType range fullLength
    perform steps (fun error => some [.ok header, .error error]) fun steps =>
      perform steps (fun error => some [.ok header, .error error]) fun steps => do
        let length ← ByteRange.len range
        let part := readChunks streamingChunkBytes length (content.drop range.start) length steps
        let rest ← multipartFileBody content boundary contentType fullLength ranges part.2
        some ([.ok header] ++ part.1 ++ [.ok lineEnd] ++ rest)

/-! ## Responses -/

inductive Status where
  | ok
  | partialContent
  deriving DecidableEq, Repr

/-- A response with a body from the file. -/
structure Success (Error : Type) where
  status : Status
  contentType : Text
  contentLength : Nat
  contentRange : Option Text
  body : Body Error

inductive Response (Error : Type) where
  | success (response : Success Error)
  | notFound
  | rangeNotSatisfiable (contentRange : Text)

def unsatisfiedContentRangeHeader (length : UInt64) : Text :=
  "bytes */".toList ++ (Nat.repr length.toNat).toList

/-- `range.map_or(metadata.len(), ByteRange::len)`. -/
def bodyLength (file : StaticFile) : Option ByteRange → Option Nat
  | none => some file.len.toNat
  | some range => ByteRange.len range

/-- `read_static_body` with the response of its result. -/
def readStaticBody (file : StaticFile) (range : Option ByteRange) (head : Bool)
    (streamingThreshold : Option UInt64) (contentType : Text) (steps : List (IoStep Error)) :
    Option (Response Error) := do
  let length ← bodyLength file range
  let offset := range.elim 0 Stretch.start
  let body :=
    if head then some []
    else staticFileBody file.content offset length streamingThreshold range.isNone steps
  some <|
    match body with
    | none => .notFound
    | some body => .success ⟨if range.isNone then .ok else .partialContent, contentType, length,
        range.map fun range => contentRangeHeader range file.len, body⟩

/-- `serve_file`, from the requested range on. -/
def serveRange (file : StaticFile) (requested : RequestedRange) (head : Bool)
    (streamingThreshold : Option UInt64) (contentType boundary : Text) (steps : List (IoStep Error)) :
    Option (Response Error) :=
  match requested with
  | .unsatisfiable => some (.rangeNotSatisfiable (unsatisfiedContentRangeHeader file.len))
  | .full => readStaticBody file none head streamingThreshold contentType steps
  | .partialRange range => readStaticBody file (some range) head streamingThreshold contentType steps
  | .multipart ranges => do
    match ← multipartContentLength boundary contentType ranges file.len with
    | none => some (.rangeNotSatisfiable (unsatisfiedContentRangeHeader file.len))
    | some length => do
      let body ←
        if head then some []
        else multipartFileBody file.content boundary contentType file.len ranges steps
      some (.success ⟨.partialContent,
        "multipart/byteranges; boundary=".toList ++ boundary, length, none, body⟩)

/-! ## What is to be sent -/

/-- The bytes of a range. -/
def slice (content : List UInt8) (range : ByteRange) : List UInt8 :=
  (content.drop range.start).take (range.last - range.start + 1)

/-- A part of a multipart body. -/
structure Part where
  fields : List (Text × Text)
  content : List UInt8

/-- The boundary on a line, a line for each field, an empty line and the content. -/
def Part.text (boundary : Text) (part : Part) : List UInt8 :=
  Text.bytes ("--".toList ++ boundary ++ "\r\n".toList) ++
    part.fields.flatMap (fun field => Text.bytes (field.1 ++ ": ".toList ++ field.2 ++ "\r\n".toList)) ++
    Text.bytes "\r\n".toList ++ part.content ++ Text.bytes "\r\n".toList

/-- The positions of the first and the last byte, and the length of the file. -/
def rangeValue (file : StaticFile) (range : ByteRange) : Text :=
  s!"bytes {range.start}-{range.last}/{file.content.length}".toList

def rangePart (file : StaticFile) (contentType : Text) (range : ByteRange) : Part where
  fields := [("Content-Type".toList, contentType), ("Content-Range".toList, rangeValue file range)]
  content := slice file.content range

def partText (file : StaticFile) (contentType boundary : Text) (range : ByteRange) : List UInt8 :=
  (rangePart file contentType range).text boundary

/-- The parts in order, each with the header that names its range, and the closing boundary. -/
def multipartText (file : StaticFile) (contentType boundary : Text) (ranges : List ByteRange) :
    List UInt8 :=
  ranges.flatMap (partText file contentType boundary) ++
    Text.bytes ("--".toList ++ boundary ++ "--\r\n".toList)

def expectedText (file : StaticFile) (contentType boundary : Text) : RequestedRange → List UInt8
  | .full => file.content
  | .partialRange range => slice file.content range
  | .multipart ranges => multipartText file contentType boundary ranges
  | .unsatisfiable => []

def expectedContentRange (file : StaticFile) : RequestedRange → Option Text
  | .partialRange range => some (rangeValue file range)
  | .full | .multipart _ | .unsatisfiable => none

def expectedContentType (contentType boundary : Text) : RequestedRange → Text
  | .multipart _ => "multipart/byteranges; boundary=".toList ++ boundary
  | .full | .partialRange _ | .unsatisfiable => contentType

/-- The range lies in the file. -/
def Inside (file : StaticFile) (range : ByteRange) : Prop :=
  range.start ≤ range.last ∧ range.last < file.content.length

variable {file : StaticFile} {length : Nat}

theorem Inside.len {range : ByteRange} (inside : Inside file range) :
    ByteRange.len range = some (range.last - range.start + 1) := by
  have inFile : range.start ≤ range.last ∧ range.last < file.len.toNat := by
    rw [file.toNat_len]
    exact inside
  exact len_eq_some inFile

theorem Inside.length_slice {range : ByteRange} (inside : Inside file range) :
    (slice file.content range).length = range.last - range.start + 1 := by
  obtain ⟨ordered, below⟩ := inside
  rw [slice, List.length_take, List.length_drop]
  omega

/-! ## One range -/

/-- A body, if there is one, delivers the text. -/
def MayDeliver (text : List UInt8) (body : Option (Body Error)) : Prop :=
  ∀ found ∈ body, found.Delivers text

theorem mayDeliver_none (text : List UInt8) : MayDeliver text (none : Option (Body Error)) := by
  simp [MayDeliver]

theorem mayDeliver_streamingFileBody (content : List UInt8) (offset length : Nat)
    (steps : List (IoStep Error)) :
    MayDeliver ((content.drop offset).take length) (streamingFileBody content offset length steps) := by
  refine perform_cases (MayDeliver _) (fun _ => mayDeliver_none _) fun steps => ?_
  refine perform_cases (MayDeliver _) (fun _ => mayDeliver_none _) fun steps => ?_
  rintro body ⟨⟩
  exact delivers_readChunks (by decide) le_rfl _ _

theorem eq_of_mem_readFileRange (content : List UInt8) (offset length : Nat)
    (steps : List (IoStep Error)) :
    ∀ bytes ∈ readFileRange content offset length steps, bytes = (content.drop offset).take length := by
  let P : Option (List UInt8) → Prop := fun read => ∀ bytes ∈ read, bytes = (content.drop offset).take length
  refine perform_cases P (by simp [P]) fun steps => ?_
  refine perform_cases P (by simp [P]) fun steps => ?_
  refine perform_cases P (by simp [P]) fun steps => ?_
  intro bytes read
  simp only at read
  split_ifs at read
  · cases read
    rfl
  · cases read

theorem mayDeliver_staticFileBody {content : List UInt8} {offset : Nat}
    {streamingThreshold : Option UInt64}
    {fullRepresentation : Bool} {steps : List (IoStep Error)}
    (whole : fullRepresentation = true → offset = 0) :
    MayDeliver ((content.drop offset).take length)
      (staticFileBody content offset length streamingThreshold fullRepresentation steps) := by
  unfold staticFileBody
  by_cases streams : (streamingThreshold.any fun threshold => threshold.toNat ≤ length) = true
  · rw [if_pos streams]
    exact mayDeliver_streamingFileBody content offset length steps
  rw [if_neg streams]
  by_cases full : fullRepresentation = true
  · rw [if_pos full]
    refine perform_cases (MayDeliver _) (fun _ => mayDeliver_none _) fun steps => ?_
    intro body made
    split_ifs at made with sameLength
    · cases made
      rw [whole full, List.drop_zero, List.take_of_length_le (Nat.le_of_eq sameLength)]
      exact Body.delivers_ok content
    · cases made
  · rw [if_neg full]
    intro body made
    obtain ⟨bytes, read, rfl⟩ := Option.map_eq_some_iff.1 made
    rw [← eq_of_mem_readFileRange content offset length steps bytes read]
    exact Body.delivers_ok bytes

theorem clean_ok (bytes : List UInt8) : Body.Clean ([.ok bytes] : Body Error) := by
  intro item member
  cases List.mem_singleton.1 member
  rfl

/-- There is a body, and no error in it. -/
def Complete (body : Option (Body Error)) : Prop := ∃ found, body = some found ∧ found.Clean

theorem complete_staticFileBody {content : List UInt8} {offset : Nat} (streamingThreshold : Option UInt64)
    {fullRepresentation : Bool} {steps : List (IoStep Error)} (smooth : Smooth steps)
    (inside : offset + length ≤ content.length)
    (whole : fullRepresentation = true → content.length = length) :
    Complete (staticFileBody content offset length streamingThreshold fullRepresentation steps) := by
  unfold staticFileBody
  by_cases streams : (streamingThreshold.any fun threshold => threshold.toNat ≤ length) = true
  · rw [if_pos streams]
    refine smooth.perform Complete fun steps smooth => ?_
    refine smooth.perform Complete fun steps smooth => ?_
    exact ⟨_, rfl, smooth.readChunks.1⟩
  rw [if_neg streams]
  by_cases full : fullRepresentation = true
  · rw [if_pos full]
    refine smooth.perform Complete fun steps smooth => ?_
    exact ⟨_, if_pos (whole full), clean_ok content⟩
  · rw [if_neg full]
    have enough : ((content.drop offset).take length).length = length := by
      rw [List.length_take, List.length_drop]
      omega
    let P : Option (List UInt8) → Prop := fun read =>
      Complete (read.map fun bytes => ([.ok bytes] : Body Error))
    refine smooth.perform P fun steps smooth => ?_
    refine smooth.perform P fun steps smooth => ?_
    refine smooth.perform P fun steps smooth => ?_
    exact ⟨_, congrArg _ (if_pos enough), clean_ok _⟩

/-! ## Parts -/

theorem contentRangeHeader_eq (range : ByteRange) :
    contentRangeHeader range file.len = rangeValue file range := by
  have written (first last length : Nat) : s!"bytes {first}-{last}/{length}".toList =
      "bytes ".toList ++ (Nat.repr first).toList ++ "-".toList ++ (Nat.repr last).toList ++
        "/".toList ++ (Nat.repr length).toList := by
    simp only [String.toList_append, toString]
  unfold contentRangeHeader rangeValue
  rw [written, file.toNat_len]

theorem partText_eq (contentType boundary : Text) (range : ByteRange) :
    partText file contentType boundary range =
      multipartPartHeader boundary contentType range file.len ++ slice file.content range ++
        lineEnd := by
  have header : multipartPartHeader boundary contentType range file.len =
      Text.bytes ("--".toList ++ boundary ++ "\r\n".toList) ++
        (rangePart file contentType range).fields.flatMap (fun field =>
          Text.bytes (field.1 ++ ": ".toList ++ field.2 ++ "\r\n".toList)) ++
        Text.bytes "\r\n".toList := by
    have typeLine : "\r\nContent-Type: ".toList =
        "\r\n".toList ++ ("Content-Type".toList ++ ": ".toList) := by decide
    have rangeLine : "\r\nContent-Range: ".toList =
        "\r\n".toList ++ ("Content-Range".toList ++ ": ".toList) := by decide
    have lastLines : "\r\n\r\n".toList = "\r\n".toList ++ "\r\n".toList := by decide
    simp only [multipartPartHeader, contentRangeHeader_eq, typeLine, rangeLine, lastLines, rangePart,
      List.flatMap_cons, List.flatMap_nil, List.append_nil, Text.bytes_append, List.append_assoc]
  rw [header]
  rfl

theorem multipartText_cons (file : StaticFile) (contentType boundary : Text) (range : ByteRange)
    (ranges : List ByteRange) : multipartText file contentType boundary (range :: ranges) =
      multipartPartHeader boundary contentType range file.len ++ slice file.content range ++
        lineEnd ++ multipartText file contentType boundary ranges := by
  rw [multipartText, List.flatMap_cons, partText_eq, List.append_assoc]
  rfl

section

variable {file : StaticFile} (contentType boundary : Text)

variable {ranges : List ByteRange}

theorem delivers_multipartFileBody (inside : ∀ range ∈ ranges, Inside file range)
    (steps : List (IoStep Error)) :
    ∃ body, multipartFileBody file.content boundary contentType file.len ranges steps = some body ∧
      body.Delivers (multipartText file contentType boundary ranges) := by
  induction ranges generalizing steps with
  | nil => exact ⟨_, rfl, Body.delivers_ok _⟩
  | cons range rest ih =>
    obtain ⟨here, others⟩ := List.forall_mem_cons.1 inside
    have text := multipartText_cons file contentType boundary range rest
    let P : Option (Body Error) → Prop := fun made => ∃ body, made = some body ∧
      body.Delivers (multipartText file contentType boundary (range :: rest))
    have cutShort (error : Error) : P (some [.ok (multipartPartHeader boundary contentType range
        file.len), .error error]) := by
      refine ⟨_, rfl, ?_⟩
      rw [text, List.append_assoc, List.append_assoc]
      exact (Body.delivers_ok _).append (Body.delivers_error error _)
    refine perform_cases P cutShort fun steps => ?_
    refine perform_cases P cutShort fun steps => ?_
    obtain ⟨more, made, delivers⟩ := ih others (readChunks streamingChunkBytes
      (range.last - range.start + 1) (file.content.drop range.start)
      (range.last - range.start + 1) steps).2
    simp only [here.len, Option.bind_eq_bind, Option.bind_some, made, P]
    refine ⟨_, rfl, ?_⟩
    rw [text]
    have piece : (readChunks streamingChunkBytes (range.last - range.start + 1)
        (file.content.drop range.start) (range.last - range.start + 1) steps).1.Delivers
        (slice file.content range) := delivers_readChunks (by decide) le_rfl _ _
    exact (((Body.delivers_ok _).append piece).append (Body.delivers_ok _)).append delivers

theorem complete_multipartFileBody (inside : ∀ range ∈ ranges, Inside file range)
    {steps : List (IoStep Error)} (smooth : Smooth steps) :
    Complete (multipartFileBody file.content boundary contentType file.len ranges steps) := by
  induction ranges generalizing steps with
  | nil => exact ⟨_, rfl, clean_ok _⟩
  | cons range rest ih =>
    obtain ⟨here, others⟩ := List.forall_mem_cons.1 inside
    refine smooth.perform Complete fun steps smooth => ?_
    refine smooth.perform Complete fun steps smooth => ?_
    have piece : (readChunks streamingChunkBytes (range.last - range.start + 1)
        (file.content.drop range.start) (range.last - range.start + 1) steps).1.Clean ∧
        Smooth (readChunks streamingChunkBytes (range.last - range.start + 1)
          (file.content.drop range.start) (range.last - range.start + 1) steps).2 :=
      smooth.readChunks
    obtain ⟨more, made, moreClean⟩ := ih others piece.2
    simp only [here.len, Option.bind_eq_bind, Option.bind_some, made]
    refine ⟨_, rfl, ?_⟩
    exact (((clean_ok _).append piece.1).append (clean_ok _)).append moreClean

theorem addPart_eq {range : ByteRange} (inside : Inside file range) (length : Nat) :
    addPart boundary contentType file.len length range =
      some (checkedAdd u64Max length (partText file contentType boundary range).length) := by
  have whole : (partText file contentType boundary range).length =
      (multipartPartHeader boundary contentType range file.len).length +
        (range.last - range.start + 1 + 2) := by
    rw [partText_eq, List.length_append, List.length_append, inside.length_slice, Nat.add_assoc]
    rfl
  rw [addPart, inside.len]
  generalize range.last - range.start + 1 = rangeLength at whole ⊢
  rw [whole, ← checkedAdd_bind]
  simp only [← checkedAdd_bind]
  rfl

/-- The length is that of the text, unless it is too large. -/
theorem addParts_eq (inside : ∀ range ∈ ranges, Inside file range) (length : Nat) :
    addParts boundary contentType file.len length ranges =
      some (checkedAdd u64Max length (multipartText file contentType boundary ranges).length) := by
  induction ranges generalizing length with
  | nil => rfl
  | cons range rest ih =>
    obtain ⟨here, others⟩ := List.forall_mem_cons.1 inside
    have whole : (multipartText file contentType boundary (range :: rest)).length =
        (partText file contentType boundary range).length +
          (multipartText file contentType boundary rest).length := by
      simp [multipartText]
    rw [addParts, addPart_eq contentType boundary here, whole, ← checkedAdd_bind]
    simp only [Option.bind_eq_bind, Option.bind_some, ih others]
    cases checkedAdd u64Max length (partText file contentType boundary range).length <;> rfl

end

/-! ## Responses -/

/-- The declared length is that of the text, which the body delivers, and the headers name the range
or the boundary. -/
structure Agrees (file : StaticFile) (contentType boundary : Text) (requested : RequestedRange)
    (response : Success Error) : Prop where
  declared : response.contentLength = (expectedText file contentType boundary requested).length
  delivers : response.body.Delivers (expectedText file contentType boundary requested)
  ranged : response.contentRange = expectedContentRange file requested
  typed : response.contentType = expectedContentType contentType boundary requested

/-- Ranges that `requested_range` may give for the file. -/
def Fits (file : StaticFile) (requested : RequestedRange) : Prop :=
  ∀ ranges, requested.ranges = some ranges → ∀ range ∈ ranges, Inside file range

theorem requestedRange_fits (parseHttpDate : Text → Option Int) (range ifRange : HeaderValues)
    (file : StaticFile) (validators : Option CacheValidators) :
    ∃ requested, requestedRange parseHttpDate range ifRange file.len validators = some requested ∧
      Fits file requested := by
  have full : Fits file .full := by simp [Fits, RequestedRange.ranges]
  have refused : Fits file .unsatisfiable := by simp [Fits, RequestedRange.ranges]
  unfold requestedRange
  split
  · exact ⟨_, rfl, full⟩
  · split
    · exact ⟨_, rfl, refused⟩
    · split_ifs
      · exact ⟨_, rfl, full⟩
      · exact ⟨_, rfl, full⟩
      · refine ⟨_, parseRangeSet_eq _ _, fun ranges isSent found member => ?_⟩
        have normalized := (parseRangeSet_sent (parseRangeSet_eq _ _)).2.1 ranges isSent
        rw [Inside, ← file.toNat_len]
        exact normalized.inside found member
  · exact ⟨_, rfl, refused⟩

/-- A request for one text, be it the file or a range of it. -/
theorem readStaticBody_spec (range : Option ByteRange) {text : List UInt8}
    (streamingThreshold : Option UInt64) (contentType : Text) (steps : List (IoStep Error))
    (isLength : bodyLength file range = some length)
    (isText : (file.content.drop (range.elim 0 Stretch.start)).take length = text)
    (inside : range.elim 0 Stretch.start + length ≤ file.content.length)
    (whole : range.isNone = true → file.content.length = length) :
    ∃ response, readStaticBody file range false streamingThreshold contentType steps = some response ∧
      (∀ success, response = .success success → success.contentLength = text.length ∧
        success.body.Delivers text ∧
        success.contentRange = range.map (fun range => contentRangeHeader range file.len) ∧
        success.contentType = contentType) ∧
      (Smooth steps → ∃ success, response = .success success ∧ success.body.Clean) := by
  have declared : length = text.length := by
    rw [← isText, List.length_take, List.length_drop]
    omega
  have start : range.isNone = true → range.elim 0 Stretch.start = 0 := by
    cases range <;> simp
  have delivers : MayDeliver text (staticFileBody file.content (range.elim 0 Stretch.start) length
      streamingThreshold range.isNone steps) := isText ▸ mayDeliver_staticFileBody start
  unfold readStaticBody
  simp only [isLength, Option.bind_eq_bind, Option.bind_some, Bool.false_eq_true, if_false]
  refine ⟨_, rfl, ?_, fun smooth => ?_⟩
  · cases made : staticFileBody file.content (range.elim 0 Stretch.start) length streamingThreshold
        range.isNone steps with
    | none => simp
    | some body =>
      rintro success ⟨⟩
      exact ⟨declared, delivers body made, rfl, rfl⟩
  · obtain ⟨body, made, clean⟩ := complete_staticFileBody streamingThreshold smooth
      inside whole
    rw [made]
    exact ⟨_, rfl, clean⟩

/-- **The declared length is the number of bytes sent.**  Whatever the headers ask for, however the
body is read and whatever sizes the reads have: the response of a `GET` declares the length of the
text that belongs to the request, and its body is this text, or the beginning of it up to an error.
Without failures of the file, there is such a response with the whole text for every request that is
satisfiable and whose length is a `u64`. -/
theorem content_length_agrees (parseHttpDate : Text → Option Int) (range ifRange : HeaderValues)
    (validators : Option CacheValidators) (file : StaticFile) (streamingThreshold : Option UInt64)
    (contentType boundary : Text) (steps : List (IoStep Error)) :
    ∃ requested response,
      requestedRange parseHttpDate range ifRange file.len validators = some requested ∧
      serveRange file requested false streamingThreshold contentType boundary steps = some response ∧
      (∀ success, response = .success success → Agrees file contentType boundary requested success ∧
        (success.body.Clean → success.body.emitted.length = success.contentLength)) ∧
      (Smooth steps → requested ≠ .unsatisfiable →
        (expectedText file contentType boundary requested).length ≤ u64Max →
        ∃ success, response = .success success ∧ success.body.Clean) := by
  obtain ⟨requested, isRequested, fits⟩ :=
    requestedRange_fits parseHttpDate range ifRange file validators
  refine ⟨requested, ?_⟩
  -- a response that agrees sends as much as it declares
  have counted {success : Success Error} (agrees : Agrees file contentType boundary requested success)
      (clean : success.body.Clean) : success.body.emitted.length = success.contentLength := by
    rw [agrees.delivers.whole clean, agrees.declared]
  cases requested with
  | full =>
    have isText : (file.content.drop 0).take file.len.toNat = file.content := by
      rw [file.toNat_len, List.drop_zero, List.take_length]
    obtain ⟨response, served, agrees, smooth⟩ := readStaticBody_spec none
      streamingThreshold contentType steps rfl isText (by simp [file.toNat_len])
      (fun _ => file.toNat_len.symm)
    refine ⟨response, isRequested, served, fun success isSuccess => ?_, fun fine _ _ => smooth fine⟩
    obtain ⟨declared, delivers, isRange, isType⟩ := agrees success isSuccess
    have both : Agrees file contentType boundary .full success := ⟨declared, delivers, isRange, isType⟩
    exact ⟨both, counted both⟩
  | partialRange range =>
    have inside : Inside file range := fits _ rfl range List.mem_cons_self
    obtain ⟨response, served, agrees, smooth⟩ := readStaticBody_spec (some range)
      streamingThreshold contentType steps inside.len (rfl : _ = slice file.content range)
      (by have := inside.1; have := inside.2; simp; omega) (by simp)
    refine ⟨response, isRequested, served, fun success isSuccess => ?_, fun fine _ _ => smooth fine⟩
    obtain ⟨declared, delivers, isRange, isType⟩ := agrees success isSuccess
    rw [Option.map_some, contentRangeHeader_eq] at isRange
    have both : Agrees file contentType boundary (.partialRange range) success :=
      ⟨declared, delivers, isRange, isType⟩
    exact ⟨both, counted both⟩
  | multipart ranges =>
    have inside := fits ranges rfl
    obtain ⟨body, made, delivers⟩ := delivers_multipartFileBody contentType boundary inside
      steps
    have length : multipartContentLength boundary contentType ranges file.len =
        some (if (multipartText file contentType boundary ranges).length ≤ u64Max
          then some (multipartText file contentType boundary ranges).length else none) := by
      rw [multipartContentLength, addParts_eq contentType boundary inside, checkedAdd, Nat.zero_add]
    rw [serveRange, length]
    by_cases small : (multipartText file contentType boundary ranges).length ≤ u64Max
    · simp only [if_pos small, Option.bind_eq_bind, Option.bind_some, Bool.false_eq_true, if_false,
        made]
      refine ⟨_, isRequested, rfl, ?_, fun fine _ _ => ?_⟩
      · rintro success ⟨⟩
        have both : Agrees file contentType boundary (.multipart ranges)
            (⟨.partialContent, "multipart/byteranges; boundary=".toList ++ boundary,
              (multipartText file contentType boundary ranges).length, none, body⟩ :
              Success Error) := ⟨rfl, delivers, rfl, rfl⟩
        exact ⟨both, counted both⟩
      · obtain ⟨found, isFound, clean⟩ := complete_multipartFileBody contentType boundary
          inside fine
        rw [made] at isFound
        cases isFound
        exact ⟨_, rfl, clean⟩
    · simp only [if_neg small, Option.bind_eq_bind, Option.bind_some]
      exact ⟨_, isRequested, rfl, by simp, fun _ _ fine => absurd fine small⟩
  | unsatisfiable =>
    exact ⟨_, isRequested, rfl, by simp, fun _ satisfiable => absurd rfl satisfiable⟩

end Rustee.Static
