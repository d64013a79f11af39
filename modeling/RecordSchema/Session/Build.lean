import RecordSchema.Model.Resolve
import RecordSchema.Session.Error

/-!
# Building a bundle

From a root document to the text that is written: the format is looked up, the documents are loaded
and resolved, and the bundle is made and shown. Nothing is written here.
-/

namespace RecordSchema

open Text

/-- How bundles are built and where they are written. -/
structure CompileOptions where
  directory : Text
  /-- The name of the format. -/
  format : Text
  emit : EmitOptions := {}
  deriving DecidableEq, Repr

/-- A bundle and its text. -/
structure Built where
  format : Format
  bundle : Bundle
  output : Text
  deriving Repr

/-- What is known of a build, also when it fails. -/
structure Progress where
  schema : Text := []
  /-- The number of documents loaded. -/
  documents : Nat := 0
  /-- The documents loaded, imports first; when loading fails, those it tried. -/
  sources : List Text := []
  /-- Every path that was read or tried. -/
  tried : List Text := []
  log : List LogEvent := []
  deriving Repr

namespace Built

/-- Makes and shows the bundle of a model. -/
def ofModel (options : CompileOptions) (f : Format) (m : Model) : Except SessionError Built :=
  match Bundle.emit options.emit m with
  | .error e => .error (.schema e)
  | .ok b =>
    match f.bundle {} b with
    | .error e => .error (.unshown f e)
    | .ok output => .ok ⟨f, b, output⟩

/-- Resolves a program and makes its bundle. -/
def ofProgram (options : CompileOptions) (f : Format) (p : Program) :
    Except SessionError Built × Text :=
  match Model.resolve p with
  | .error e => (.error (.schema e), [])
  | .ok m => (ofModel options f m, m.schema)

/-- Builds the bundle of a root document. -/
def ofRoot (source : Source) (options : CompileOptions) (root : Text) :
    Except SessionError Built × Progress :=
  match Registry.standard.lookup options.format with
  | .error e => (.error (.format e), {})
  | .ok f =>
    match Program.load source root with
    | (.error e, s) =>
      (.error (.load e), { sources := s.tried, tried := s.tried, log := s.log })
    | (.ok p, s) =>
      let (built, schema) := ofProgram options f p
      (built,
        { schema
          documents := p.namespaces.length
          sources := p.namespaces.map Namespace.path
          tried := s.tried
          log := s.log ++ Model.events p })

/-- The directory that output goes to. -/
def directory (options : CompileOptions) (b : Built) : Text :=
  Path.joined [options.directory, b.bundle.schema]

/-- The file that output goes to. -/
def path (options : CompileOptions) (b : Built) : Text :=
  Path.joined [b.directory options, b.bundle.schema ++ "." ++ b.format.extension]

end Built

end RecordSchema
