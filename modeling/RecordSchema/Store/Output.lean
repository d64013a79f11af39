import RecordSchema.Store.Library
import RecordSchema.Text.Digest

/-!
# Where output goes

Output files are written into directories that have been made before. A file that already has the
content is left alone. `Shelf` keeps files in memory; on a disk, contents are compared by digest.
-/

namespace RecordSchema

open Text

/-- Why output is not stored. -/
inductive OutputError where
  | canceled
  /-- The directory of the file has not been made. -/
  | noDirectory (path : Text)
  | notMade (cause : DiskError)
  | unreadable (path : Text) (cause : DiskError)
  | unwritten (path : Text) (cause : DiskError)
  /-- The store refuses for its own reason. -/
  | refused (reason : Text)
  deriving DecidableEq, Repr

namespace OutputError

def message : OutputError → Text
  | canceled => "context canceled"
  | noDirectory path => "writing " ++ path ++ ": file does not exist"
  | notMade cause => "creating output directory: " ++ cause.message
  | unreadable path cause => "reading " ++ path ++ ": " ++ cause.message
  | unwritten path cause => "writing " ++ path ++ ": " ++ cause.message
  | refused reason => reason

end OutputError

/-- Output in memory, by clean path. -/
structure Shelf where
  directories : List Text := []
  files : Keyed Text := []
  deriving DecidableEq, Repr

namespace Shelf

/-- Makes a directory. -/
def ensure (s : Shelf) (directory : Text) : Shelf :=
  { s with directories := Path.clean directory :: s.directories }

def file? (s : Shelf) (path : Text) : Option Text := s.files.lookup (Path.clean path)

/-- Writes a file, unless it has the content already. Answers whether it was written. -/
def write (s : Shelf) (path content : Text) : Except OutputError Bool × Shelf :=
  let path := Path.clean path
  if s.directories.contains (Path.dir path) then
    if s.files.lookup path = some content then (.ok false, s)
    else (.ok true, { s with files := Keyed.set path content s.files })
  else (.error (.noDirectory path), s)

/-- The paths of the files in order. -/
def paths (s : Shelf) : List Text := sort (s.files.map Prod.fst)

end Shelf

namespace Disk

/-- Makes the directories of a path. -/
def ensure (d : Disk) (directory : Text) : Except OutputError Unit × Disk :=
  match d.makeDirs directory with
  | (.ok (), d) => (.ok (), d)
  | (.error e, d) => (.error (.notMade e), d)

/-- Writes a file, unless it has a content of the same digest already. -/
def write (d : Disk) (path content : Text) : Except OutputError Bool × Disk :=
  let unchanged : Except OutputError Bool :=
    match d.read path with
    | .ok existing => .ok (Digest.ofText existing == Digest.ofText content)
    | .error e => if e.reason = .missing then .ok false else .error (.unreadable path e)
  match unchanged with
  | .error e => (.error e, d)
  | .ok true => (.ok false, d)
  | .ok false =>
    match d.replace ("." ++ Path.base path ++ ".*") path content with
    | .ok d => (.ok true, d)
    | .error e => (.error (.unwritten path e), d)

end Disk

end RecordSchema
