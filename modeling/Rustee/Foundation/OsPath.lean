/-
# Rustee.Foundation.OsPath -- paths of a file system, by their components

`std::path` as far as names are put together: a path is its components, and pushing one path to
another follows the documentation of `PathBuf::push`.  What is a separator and what replaces a
path depends on the platform: a drive (`C:`) is a prefix on Windows and a name elsewhere.
Verbatim, device and UNC prefixes begin with two separators and are not read here.
-/
import Rustee.Foundation.Chars

namespace Rustee.Foundation

set_option autoImplicit false

inductive Platform where
  | unix
  | windows
  deriving DecidableEq, Repr

inductive Component where
  | drive (letter : Char)
  | rootDir
  | curDir
  | parentDir
  | normal (name : Text)
  deriving DecidableEq, Repr

abbrev PathBuf := List Component

def Platform.isSeparator : Platform → Char → Bool
  | .unix, c => c = '/'
  | .windows, c => c = '/' || c = '\\'

/-- The letter of a drive in front of a text. -/
def drive? : Text → Option Char
  | letter :: ':' :: _ => if letter.isAlpha then some letter else none
  | _ => none

def readComponent (piece : Text) : Option Component :=
  if piece = [] ∨ piece = ['.'] then none
  else if piece = ['.', '.'] then some .parentDir
  else some (.normal piece)

/-- The components behind a prefix; a `.` counts at the beginning only. -/
def Platform.body (platform : Platform) (text : Text) : List Component :=
  let pieces := text.splitOnP platform.isSeparator
  let front : List Component :=
    if text.head?.any platform.isSeparator then [.rootDir]
    else if pieces.head? = some ['.'] then [.curDir]
    else []
  front ++ pieces.filterMap readComponent

/-- `Path::components`. -/
def Platform.components : Platform → Text → List Component
  | .unix, text => Platform.unix.body text
  | .windows, text =>
    match drive? text with
    | some letter => .drive letter :: Platform.windows.body (text.drop 2)
    | none => Platform.windows.body text

def Component.isDrive : Component → Bool
  | .drive _ => true
  | _ => false

/-- `PathBuf::push`: a path with a prefix replaces the other, one with a root keeps its prefix
only. -/
def PathBuf.push (self path : PathBuf) : PathBuf :=
  match path with
  | .drive _ :: _ => path
  | .rootDir :: _ => self.takeWhile Component.isDrive ++ path
  | _ => if self.all Component.isDrive then self ++ path else self ++ path.filter (· ≠ .curDir)

/-! ## Names -/

/-- A text that is one component wherever no drive is read. -/
structure IsName (name : Text) : Prop where
  nonempty : name ≠ []
  notCurrent : name ≠ ['.']
  notParent : name ≠ ['.', '.']
  noSlash : '/' ∉ name
  noBackslash : '\\' ∉ name

variable {name : Text} {letter : Char}

theorem body_name (isName : IsName name) (platform : Platform) :
    platform.body name = [.normal name] := by
  have unbroken : ∀ c ∈ name, platform.isSeparator c = false := by
    intro c inside
    cases platform with
    | unix =>
      simp only [Platform.isSeparator, decide_eq_false_iff_not]
      rintro rfl
      exact isName.noSlash inside
    | windows =>
      simp only [Platform.isSeparator, Bool.or_eq_false_iff, decide_eq_false_iff_not]
      constructor
      · rintro rfl
        exact isName.noSlash inside
      · rintro rfl
        exact isName.noBackslash inside
  have whole := List.splitOnP_eq_singleton unbroken
  have notRoot : name.head?.any platform.isSeparator = false := by
    cases name with
    | nil => rfl
    | cons first rest => simpa using unbroken first List.mem_cons_self
  simp [Platform.body, whole, notRoot, readComponent, isName.nonempty, isName.notCurrent,
    isName.notParent]

theorem components_name (isName : IsName name) {platform : Platform}
    (noDrive : platform = .windows → drive? name = none) :
    platform.components name = [.normal name] := by
  cases platform with
  | unix => exact body_name isName .unix
  | windows =>
    rw [Platform.components, noDrive rfl]
    exact body_name isName .windows

theorem components_drive (isDrive : drive? name = some letter) :
    ∃ rest, Platform.windows.components name = .drive letter :: rest := by
  rw [Platform.components, isDrive]
  exact ⟨_, rfl⟩

/-! ## Pushing -/

/-- Names go to the end. -/
theorem push_normal (self : PathBuf) (names : List Text) :
    PathBuf.push self (names.map .normal) = self ++ names.map .normal := by
  have plain : (names.map Component.normal).filter (· ≠ .curDir) = names.map .normal := by
    rw [List.filter_eq_self]
    intro component member
    obtain ⟨name, -, rfl⟩ := List.mem_map.1 member
    simp
  cases names with
  | nil => simp [PathBuf.push]
  | cons name rest =>
    rw [List.map_cons] at plain ⊢
    simp only [PathBuf.push, plain, ite_self]

/-- A drive stays the first component, whatever is pushed. -/
theorem push_drive {self : PathBuf} (first : self.head? = some (.drive letter)) (path : PathBuf) :
    ∃ letter, (PathBuf.push self path).head? = some (.drive letter) := by
  obtain ⟨rest, rfl⟩ := List.head?_eq_some_iff.1 first
  unfold PathBuf.push
  split
  · exact ⟨_, rfl⟩
  · exact ⟨letter, by simp [List.takeWhile, Component.isDrive]⟩
  · split
    · exact ⟨letter, rfl⟩
    · exact ⟨letter, rfl⟩

theorem push_of_drive {self path : PathBuf} (first : path.head? = some (.drive letter)) :
    (PathBuf.push self path).head? = some (.drive letter) := by
  obtain ⟨rest, rfl⟩ := List.head?_eq_some_iff.1 first
  rfl

end Rustee.Foundation
