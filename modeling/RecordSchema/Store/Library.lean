import RecordSchema.Store.Source
import RecordSchema.Text.Keyed

/-!
# Documents in memory
-/

namespace RecordSchema

open Text

/-- Documents by clean path, with the number of times each has been read. -/
structure Library where
  documents : Keyed Text := []
  reads : Keyed Nat := []
  deriving DecidableEq, Repr

namespace Library

/-- Adds or replaces a document. -/
def put (l : Library) (path text : Text) : Library :=
  { l with documents := Keyed.set (Path.clean path) text l.documents }

def ofList (documents : List (Text × Text)) : Library :=
  documents.foldl (fun l d => l.put d.1 d.2) {}

def get? (l : Library) (path : Text) : Option Text := l.documents.lookup (Path.clean path)

/-- Reading from the library. -/
def source (l : Library) : Source where
  read path :=
    match l.get? path with
    | some text => .ok text
    | none => .error (.notFound path)
  size := l.documents.length

/-- The path of the document that `reference` means in the document at `document` of the library. -/
def resolve (document reference : Text) : Text := Source.resolve document reference

/-- How often a document has been read. -/
def readCount (l : Library) (path : Text) : Nat := (l.reads.lookup (Path.clean path)).getD 0

/-- Counts a reading of each path that holds a document. -/
def countReads (l : Library) (paths : List Text) : Library :=
  paths.foldl (fun l p =>
    if (l.get? p).isSome then
      { l with reads := Keyed.set (Path.clean p) (l.readCount p + 1) l.reads }
    else l) l

end Library

end RecordSchema
