import RecordSchema.Store.Disk

/-!
# Document sources

Documents are read by path, and a document refers to others by paths relative to its own directory.
-/

namespace RecordSchema

open Text

/-- Why a document cannot be read. -/
inductive ReadError where
  | notFound (path : Text)
  | canceled
  /-- The system refuses for another reason. -/
  | refused (path : Text) (cause : DiskError)
  deriving DecidableEq, Repr

namespace ReadError

def message : ReadError → Text
  | notFound path => "document not found: " ++ path
  | canceled => "context canceled"
  | refused path cause => "read " ++ path ++ ": " ++ cause.message

end ReadError

/-- Documents that can be read. -/
structure Source where
  read : Text → Except ReadError Text
  /-- No more documents than this can be read under clean paths. -/
  size : Nat

namespace Source

/-- The path of the document that `reference` means in the document at `document`. -/
def resolve (document reference : Text) : Text :=
  if Path.isRooted reference then Path.clean reference
  else Path.joined [Path.dir document, reference]

/-- The schema name of a document: its base name without the extension. -/
def schemaName (path : Text) : Text :=
  let base := Path.base (path.map fun b => if b = 92 then Path.slash else b)
  let ext := Path.extension base
  base.take (base.length - ext.length)

/-- The source after the work has been canceled: nothing can be read any more. -/
def interrupted (s : Source) (canceled : Bool) : Source :=
  if canceled then { s with read := fun _ => .error .canceled } else s

end Source

/-- Reading documents from a disk. -/
def Disk.source (d : Disk) : Source where
  read path :=
    match d.read path with
    | .ok text => .ok text
    | .error e =>
      if e.reason = .missing then .error (.notFound path) else .error (.refused path e)
  size := d.items.length

/-- The path of the document that `reference` means in the document at `document` on a disk: here
the joined path is cleaned by itself. -/
def Disk.resolve (document reference : Text) : Text :=
  if Path.isRooted reference then Path.clean reference
  else Path.clean (Path.joined [Path.dir document, reference])

end RecordSchema
