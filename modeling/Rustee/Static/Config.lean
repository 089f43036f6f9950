/-
# Rustee.Static.Config -- which file a request path names

`rustee-static/src/config.rs`.  Below its mount path, a path is cut at slashes and each segment
is decoded once and checked; the decoded segments are pushed to a local path, which is then
joined to the root.  The platform decides what pushing a segment does.
-/
import Rustee.Foundation.OsPath
import Rustee.Foundation.SlashPath
import Rustee.Foundation.Utf8
import Mathlib.Data.List.Infix

namespace Rustee.Static

open Rustee.Foundation

set_option autoImplicit false

inductive StaticFilesError where
  | rootCanonicalization
  | rootNotDirectory
  | invalidMountPath
  | zeroMaxFileBytes
  | zeroStreamingThreshold
  deriving DecidableEq, Repr

/-! ## Segments and mount paths -/

def validMountSegment (segment : Text) : Bool :=
  !segment.isEmpty && !(segment = ['.'] || segment = ['.', '.']) &&
    !(segment.contains '\\' || segment.contains '\x00')

def validMountPath (path : Text) : Bool :=
  if path.head? ≠ some '/' ∨ ('?' ∈ path ∨ '#' ∈ path ∨ '%' ∈ path) ∨ ['/', '/'] <:+: path ∨
      (1 < path.length ∧ path.getLast? = some '/') then false
  else path = ['/'] || ((path.splitOn '/').drop 1).all validMountSegment

def percentDecodeSegment (segment : Text) : Except Unit Text :=
  if segment.isEmpty then .error ()
  else
    match percentDecode segment.bytes with
    | none => .error ()
    | some bytes =>
      match Text.fromUtf8 bytes with
      | none => .error ()
      | some decoded =>
        if !validMountSegment decoded || decoded.contains '/' then .error () else .ok decoded

/-! ## The configuration -/

/-- The part of a configuration that a path is looked up in. -/
structure StaticFiles where
  /-- The canonical root. -/
  root : PathBuf
  mountPath : Text
  valid : validMountPath mountPath = true

namespace StaticFiles

/-- `new`, for a root that is a directory. -/
def new (root : PathBuf) : StaticFiles := ⟨root, "/static".toList, by decide +kernel⟩

/-- `at`. -/
def mountAt (self : StaticFiles) (mountPath : Text) : Except StaticFilesError StaticFiles :=
  if valid : validMountPath mountPath = true then .ok ⟨self.root, mountPath, valid⟩
  else .error .invalidMountPath

/-- What is left of a path behind the mount, without the slash between them. -/
def relativeText (self : StaticFiles) (path : Text) : Except Unit (Option Text) :=
  if self.mountPath = ['/'] then
    match path with
    | '/' :: rest => .ok (some rest)
    | _ => .error ()
  else if path = self.mountPath then .ok (some [])
  else
    match path.dropPrefix? self.mountPath with
    | some ('/' :: rest) => .ok (some rest)
    | _ => .ok none

/-- One round of the loop over the segments. -/
def pushSegment (platform : Platform) (localPath : PathBuf) (segment : Text) :
    Except Unit PathBuf := do
  let decoded ← percentDecodeSegment segment
  return PathBuf.push localPath (platform.components decoded)

def relativePath (platform : Platform) (self : StaticFiles) (path : Text) :
    Except Unit (Option PathBuf) := do
  match ← self.relativeText path with
  | none => return none
  | some [] => return some []
  | some relative => return some (← (relative.splitOn '/').foldlM (pushSegment platform) [])

end StaticFiles

end Rustee.Static
