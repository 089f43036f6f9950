/-
# Rustee.Static.Containment -- a path below the mount stays below the root

`Contained` says what the lookup is for: it accepts the mount, and below it the paths whose
segments are percent encodings of plain names; the local path is these names, decoded once, so
that joined to the root it stays inside; other paths are left to the application.

`contained_iff` says when that holds.  On Windows a name such as `C:` is a drive, and pushing it
replaces what was there: the check that keeps out backslashes lets drives in.
-/
import Rustee.Static.Config

namespace Rustee.Static

open Rustee.Foundation

set_option autoImplicit false

/-! ## What the lookup is for -/

/-- The mount as a prefix; the root mount is the empty one. -/
def StaticFiles.mountPrefix (self : StaticFiles) : Text :=
  if self.mountPath = ['/'] then [] else self.mountPath

/-- `piece` is a percent encoding of `name`, which is plain. -/
structure NameOf (piece name : Text) : Prop where
  isSegment : IsSegment '/' piece
  encodes : PercentEncodes piece.bytes name.bytes
  isName : IsName name
  noNul : '\x00' ∉ name

/-- The names that a path has behind `front`. -/
inductive Names (front path : Text) : List Text → Prop where
  | mount (isMount : path = front) : Names front path []
  | slash (isSlash : path = front ++ ['/']) : Names front path []
  | below {pieces names : List Text} (nonempty : pieces ≠ [])
      (isPath : path = front ++ render '/' pieces) (namesOf : List.Forall₂ NameOf pieces names) :
      Names front path names

structure Contained (platform : Platform) (files : StaticFiles) (path : Text) : Prop where
  /-- What is accepted, and the local path. -/
  accepted : ∀ localPath, files.relativePath platform path = .ok (some localPath) ↔
    ∃ names, Names files.mountPrefix path names ∧ localPath = names.map .normal
  normal : ∀ localPath, files.relativePath platform path = .ok (some localPath) →
    ∀ component ∈ localPath, ∃ name, component = .normal name
  inside : ∀ localPath, files.relativePath platform path = .ok (some localPath) →
    files.root <+: PathBuf.push files.root localPath
  outside : path ≠ files.mountPrefix → (∀ rest, path ≠ files.mountPrefix ++ '/' :: rest) →
    files.relativePath platform path = .ok none

/-! ## Segments -/

theorem validMountSegment_iff {segment : Text} :
    validMountSegment segment = true ∧ '/' ∉ segment ↔ IsName segment ∧ '\x00' ∉ segment := by
  simp only [validMountSegment, Bool.and_eq_true, Bool.not_eq_true', Bool.or_eq_false_iff,
    decide_eq_false_iff_not, List.contains_eq_mem, List.isEmpty_eq_false_iff]
  constructor
  · rintro ⟨⟨⟨nonempty, notCurrent, notParent⟩, noBackslash, noNul⟩, noSlash⟩
    exact ⟨⟨nonempty, notCurrent, notParent, noSlash, noBackslash⟩, noNul⟩
  · rintro ⟨⟨nonempty, notCurrent, notParent, noSlash, noBackslash⟩, noNul⟩
    exact ⟨⟨⟨nonempty, notCurrent, notParent⟩, noBackslash, noNul⟩, noSlash⟩

variable {name path : Text} {platform : Platform} {names : List Text} {files : StaticFiles}

/-- **What a segment decodes to.** -/
theorem percentDecodeSegment_eq_ok {segment : Text} (unbroken : '/' ∉ segment) :
    percentDecodeSegment segment = .ok name ↔ NameOf segment name := by
  unfold percentDecodeSegment
  constructor
  · intro ok
    split at ok
    · cases ok
    · rename_i nonempty
      split at ok
      · cases ok
      · rename_i bytes decoded
        split at ok
        · cases ok
        · rename_i text isText
          split at ok
          · cases ok
          · rename_i checked
            cases ok
            rw [Bool.or_eq_true, not_or] at checked
            have valid : validMountSegment name = true ∧ '/' ∉ name := by simpa using checked
            obtain ⟨isName, noNul⟩ := validMountSegment_iff.1 valid
            rw [Text.fromUtf8_eq_some.1 isText] at decoded
            exact ⟨⟨by simpa using nonempty, unbroken⟩, percentDecode_eq_some.1 decoded,
              isName, noNul⟩
  · rintro ⟨isSegment, encodes, isName, noNul⟩
    obtain ⟨valid, noSlash⟩ := validMountSegment_iff.2 ⟨isName, noNul⟩
    have decoded := percentDecode_eq_some.2 encodes
    have isText := Text.fromUtf8_eq_some.2 (rfl : name.bytes = name.bytes)
    simp [isSegment.nonempty, decoded, isText, valid, noSlash]

/-! ## The loop -/

/-- The local path of decoded names. -/
def pushAll (platform : Platform) (start : PathBuf) (names : List Text) : PathBuf :=
  names.foldl (fun localPath name => PathBuf.push localPath (platform.components name)) start

theorem foldlM_pushSegment {pieces : List Text} (unbroken : ∀ piece ∈ pieces, '/' ∉ piece)
    {start result : PathBuf} :
    pieces.foldlM (StaticFiles.pushSegment platform) start = .ok result ↔
      ∃ names, List.Forall₂ NameOf pieces names ∧ result = pushAll platform start names := by
  induction pieces generalizing start with
  | nil =>
    constructor
    · intro ok
      cases ok
      exact ⟨[], .nil, rfl⟩
    · rintro ⟨names, namesOf, rfl⟩
      cases namesOf
      rfl
  | cons piece rest ih =>
    obtain ⟨first, others⟩ := List.forall_mem_cons.1 unbroken
    rw [List.foldlM_cons, bind_eq_ok]
    constructor
    · rintro ⟨next, pushed, later⟩
      rw [StaticFiles.pushSegment, bind_eq_ok] at pushed
      obtain ⟨name, decoded, isNext⟩ := pushed
      cases isNext
      obtain ⟨names, namesOf, rfl⟩ := (ih others).1 later
      exact ⟨name :: names, .cons ((percentDecodeSegment_eq_ok first).1 decoded) namesOf, rfl⟩
    · rintro ⟨names, namesOf, rfl⟩
      cases namesOf with
      | @cons _ name _ names nameOf namesOf =>
        refine ⟨PathBuf.push start (platform.components name), ?_, ?_⟩
        · rw [StaticFiles.pushSegment, bind_eq_ok]
          exact ⟨name, (percentDecodeSegment_eq_ok first).2 nameOf, rfl⟩
        · exact (ih others).2 ⟨names, namesOf, rfl⟩

/-- Without a drive among them, names are pushed one behind the other. -/
theorem pushAll_plain (areNames : ∀ name ∈ names, IsName name)
    (noDrive : platform = .windows → ∀ name ∈ names, drive? name = none) (start : PathBuf) :
    pushAll platform start names = start ++ names.map .normal := by
  induction names generalizing start with
  | nil => simp [pushAll]
  | cons name rest ih =>
    obtain ⟨isName, restNames⟩ := List.forall_mem_cons.1 areNames
    have first : platform.components name = [name].map .normal :=
      components_name isName fun windows => noDrive windows name List.mem_cons_self
    have later := ih restNames (fun windows other member =>
      noDrive windows other (List.mem_cons_of_mem name member))
      (PathBuf.push start (platform.components name))
    rw [pushAll, List.foldl_cons]
    exact later.trans (by rw [first, push_normal]; simp)

theorem pushAll_keeps_drive (names : List Text) {start : PathBuf} {letter : Char}
    (first : start.head? = some (.drive letter)) :
    ∃ letter, (pushAll platform start names).head? = some (.drive letter) := by
  induction names generalizing start letter with
  | nil => exact ⟨letter, first⟩
  | cons name rest ih =>
    obtain ⟨next, isNext⟩ := push_drive first (platform.components name)
    exact ih isNext

/-- With a drive among them, the local path has one. -/
theorem pushAll_drive (member : name ∈ names) (isDrive : drive? name ≠ none) (start : PathBuf) :
    ∃ letter, (pushAll .windows start names).head? = some (.drive letter) := by
  induction names generalizing start with
  | nil => cases member
  | cons first rest ih =>
    rcases List.mem_cons.1 member with rfl | later
    · obtain ⟨letter, isLetter⟩ := Option.ne_none_iff_exists'.1 isDrive
      obtain ⟨more, isComponents⟩ := components_drive isLetter
      have pushed : (PathBuf.push start (Platform.windows.components name)).head? =
          some (.drive letter) := by
        rw [isComponents]
        exact push_of_drive rfl
      exact pushAll_keeps_drive rest pushed
    · exact ih later _

/-! ## Behind the mount -/

/-- The path is the mount, or goes on behind it with a slash and `relative`. -/
def Behind (front path relative : Text) : Prop :=
  path = front ∧ relative = [] ∨ path = front ++ '/' :: relative

theorem relativeText_eq_some (absolute : path.head? = some '/') {relative : Text} :
    files.relativeText path = .ok (some relative) ↔ Behind files.mountPrefix path relative := by
  unfold StaticFiles.relativeText StaticFiles.mountPrefix Behind
  by_cases isRoot : files.mountPath = ['/']
  · obtain ⟨rest, rfl⟩ := List.head?_eq_some_iff.1 absolute
    simp [isRoot, eq_comm]
  · simp only [isRoot, if_false]
    by_cases isMount : path = files.mountPath
    · simp [isMount, eq_comm]
    · have cut {rest : Text} := @dropPrefix?_eq_some _ _ _ path files.mountPath rest
      simp only [isMount, if_false, false_and, false_or]
      constructor
      · intro ok
        split at ok
        · rename_i rest isRest
          cases ok
          exact cut.1 isRest
        · cases ok
      · intro behind
        rw [cut.2 behind]
        rfl

/-- Nothing else is left to the application, and there is no error here. -/
theorem relativeText_eq_none (absolute : path.head? = some '/')
    (outside : ∀ relative, ¬Behind files.mountPrefix path relative) :
    files.relativeText path = .ok none := by
  cases isText : files.relativeText path with
  | ok relative =>
    cases relative with
    | none => rfl
    | some relative => exact absurd ((relativeText_eq_some absolute).1 isText) (outside relative)
  | error none =>
    unfold StaticFiles.relativeText at isText
    obtain ⟨rest, rfl⟩ := List.head?_eq_some_iff.1 absolute
    split at isText
    · cases isText
    · split at isText
      · cases isText
      · split at isText
        · cases isText
        · cases isText

theorem names_iff {front : Text} :
    Names front path names ↔ ∃ relative, Behind front path relative ∧
      (relative = [] ∧ names = [] ∨
        relative ≠ [] ∧ List.Forall₂ NameOf (relative.splitOn '/') names) := by
  constructor
  · intro isNames
    cases isNames with
    | mount isMount => exact ⟨[], .inl ⟨isMount, rfl⟩, .inl ⟨rfl, rfl⟩⟩
    | slash isSlash => exact ⟨[], .inr isSlash, .inl ⟨rfl, rfl⟩⟩
    | @below pieces _ nonempty isPath namesOf =>
      have areSegments : ∀ piece ∈ pieces, IsSegment '/' piece := by
        intro piece member
        obtain ⟨name, -, nameOf⟩ := exists_of_forall₂ (List.Forall₂.flip namesOf) member
        exact nameOf.isSegment
      have joined : '/' :: ['/'].intercalate pieces = render '/' pieces :=
        cons_intercalate nonempty
      refine ⟨['/'].intercalate pieces, .inr (by rw [isPath, joined]), .inr ⟨?_, ?_⟩⟩
      · intro empty
        obtain ⟨piece, rest, rfl⟩ := List.exists_cons_of_ne_nil nonempty
        rw [empty] at joined
        have noPiece : piece = [] ∧ render '/' rest = [] := by simpa using joined
        exact (areSegments piece List.mem_cons_self).nonempty noPiece.1
      · rw [List.splitOn_intercalate '/' (fun piece member => (areSegments piece member).unbroken)
          nonempty]
        exact namesOf
  · rintro ⟨relative, behind, ⟨rfl, rfl⟩ | ⟨nonempty, namesOf⟩⟩
    · rcases behind with ⟨isMount, -⟩ | isSlash
      · exact .mount isMount
      · exact .slash isSlash
    · rcases behind with ⟨-, empty⟩ | isPath
      · exact absurd empty nonempty
      · refine .below (List.splitOn_ne_nil '/' relative) ?_ namesOf
        rw [isPath, ← cons_intercalate (List.splitOn_ne_nil '/' relative), List.intercalate_splitOn]

/-- **What is accepted, and its local path**, on every platform. -/
theorem relativePath_eq_some (absolute : path.head? = some '/') {localPath : PathBuf} :
    files.relativePath platform path = .ok (some localPath) ↔
      ∃ names, Names files.mountPrefix path names ∧ localPath = pushAll platform [] names := by
  simp only [names_iff]
  rw [StaticFiles.relativePath, bind_eq_ok]
  constructor
  · rintro ⟨relative, isText, ok⟩
    split at ok
    · cases ok
    · cases ok
      exact ⟨[], ⟨[], (relativeText_eq_some absolute).1 isText, .inl ⟨rfl, rfl⟩⟩, rfl⟩
    · rename_i relative nonempty
      obtain ⟨pushed, isPushed, isLocal⟩ := bind_eq_ok.1 ok
      cases isLocal
      obtain ⟨names, namesOf, rfl⟩ :=
        (foldlM_pushSegment fun piece member => not_mem_of_mem_splitOn member).1 isPushed
      refine ⟨names, ⟨relative, (relativeText_eq_some absolute).1 isText, .inr ⟨?_, namesOf⟩⟩, rfl⟩
      rintro rfl
      exact nonempty rfl
  · rintro ⟨names, ⟨relative, behind, isNames⟩, rfl⟩
    refine ⟨some relative, (relativeText_eq_some absolute).2 behind, ?_⟩
    rcases isNames with ⟨rfl, rfl⟩ | ⟨nonempty, namesOf⟩
    · rfl
    · have pushed : (relative.splitOn '/').foldlM (StaticFiles.pushSegment platform) [] =
          .ok (pushAll platform [] names) :=
        (foldlM_pushSegment fun piece member => not_mem_of_mem_splitOn member).2
          ⟨names, namesOf, rfl⟩
      obtain ⟨first, rest, rfl⟩ := List.exists_cons_of_ne_nil nonempty
      simp only [pushed]
      rfl

theorem Names.isName {front : Text} (isNames : Names front path names) :
    ∀ name ∈ names, IsName name := by
  cases isNames with
  | mount _ => simp
  | slash _ => simp
  | below _ _ namesOf =>
    intro name member
    obtain ⟨piece, -, nameOf⟩ := exists_of_forall₂ namesOf member
    exact nameOf.isName

/-! ## When the lookup is what it is for -/

/-- No name that the path has is a drive of the platform. -/
def DriveFree (platform : Platform) (files : StaticFiles) (path : Text) : Prop :=
  platform = .windows → ∀ names, Names files.mountPrefix path names →
    ∀ name ∈ names, drive? name = none

theorem contained_of_driveFree (absolute : path.head? = some '/')
    (driveFree : DriveFree platform files path) :
    Contained platform files path := by
  have accepted : ∀ localPath, files.relativePath platform path = .ok (some localPath) ↔
      ∃ names, Names files.mountPrefix path names ∧ localPath = names.map .normal := by
    intro localPath
    rw [relativePath_eq_some absolute]
    refine exists_congr fun names => and_congr_right fun isNames => ?_
    rw [pushAll_plain isNames.isName (fun windows => driveFree windows names isNames),
      List.nil_append]
  refine ⟨accepted, ?_, ?_, ?_⟩
  · intro localPath ok component member
    obtain ⟨names, -, rfl⟩ := (accepted localPath).1 ok
    obtain ⟨name, -, rfl⟩ := List.mem_map.1 member
    exact ⟨name, rfl⟩
  · intro localPath ok
    obtain ⟨names, -, rfl⟩ := (accepted localPath).1 ok
    rw [push_normal]
    exact List.prefix_append _ _
  · intro notMount notBelow
    have isText : files.relativeText path = .ok none :=
      relativeText_eq_none absolute fun relative behind =>
        behind.elim (fun isMount => notMount isMount.1) (notBelow relative)
    rw [StaticFiles.relativePath, isText]
    rfl

/-- A drive becomes a component that is no name. -/
theorem not_contained_of_drive (absolute : path.head? = some '/')
    (isNames : Names files.mountPrefix path names) (member : name ∈ names)
    (isDrive : drive? name ≠ none) : ¬Contained .windows files path := by
  intro contained
  obtain ⟨letter, isFirst⟩ := pushAll_drive member isDrive []
  have ok : files.relativePath .windows path = .ok (some (pushAll .windows [] names)) :=
    (relativePath_eq_some absolute).2 ⟨names, isNames, rfl⟩
  obtain ⟨other, isNormal⟩ :=
    contained.normal _ ok (.drive letter) (List.mem_of_mem_head? isFirst)
  cases isNormal

/-- **When a path below the mount stays below the root**: always, but for a drive among its
names on Windows. -/
theorem contained_iff (platform : Platform) (files : StaticFiles) (path : Text)
    (absolute : path.head? = some '/') :
    Contained platform files path ↔ DriveFree platform files path := by
  refine ⟨fun contained windows names isNames name member => ?_, contained_of_driveFree absolute⟩
  by_contra isDrive
  subst windows
  exact not_contained_of_drive absolute isNames member isDrive contained

/-- An encoded space, on Unix. -/
theorem contained_iff_space :
    Contained .unix (.new [.rootDir, .normal "srv".toList]) "/static/a%20b/c".toList :=
  (contained_iff _ _ _ rfl).2 fun windows => by cases windows

/-- `/static/C:/boot.ini` leaves a root on another drive. -/
theorem drive_leaves_root :
    ¬Contained .windows (.new [.drive 'D', .rootDir, .normal "site".toList])
      "/static/C:/boot.ini".toList := by
  have drive : NameOf "C:".toList "C:".toList :=
    ⟨⟨by decide, by decide⟩, percentDecode_eq_some.1 (by decide +kernel),
      ⟨by decide, by decide, by decide, by decide, by decide⟩, by decide⟩
  have file : NameOf "boot.ini".toList "boot.ini".toList :=
    ⟨⟨by decide, by decide⟩, percentDecode_eq_some.1 (by decide +kernel),
      ⟨by decide, by decide, by decide, by decide, by decide⟩, by decide⟩
  refine not_contained_of_drive rfl (.below (List.cons_ne_nil _ _) ?_ (.cons drive (.cons file .nil)))
    List.mem_cons_self (by decide)
  decide +kernel

end Rustee.Static
