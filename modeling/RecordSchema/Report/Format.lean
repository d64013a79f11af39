import RecordSchema.Descriptor.Record
import RecordSchema.Json.Write
import RecordSchema.Report.Table
import RecordSchema.Yaml.Order

/-!
# Output formats

A bundle is written as JSON, as YAML or as text tables. Formats are found by name in a registry,
which has one of them as its default.
-/

namespace RecordSchema

open Text

inductive Format where
  | json
  | yaml
  | table
  deriving DecidableEq, Repr

structure FormatOptions where
  /-- Tables without headings. -/
  noHeader : Bool := false
  /-- JSON on one line. -/
  compact : Bool := false
  deriving DecidableEq, Repr

namespace Format

def all : List Format := [.json, .table, .yaml]

def name : Format → Text
  | .json => "json"
  | .yaml => "yaml"
  | .table => "table"

def description : Format → Text
  | .json => "JSON descriptor bundle"
  | .yaml => "YAML descriptor bundle"
  | .table => "Aligned text tables"

/-- The extension of written files. -/
def extension : Format → Text
  | .json => "json"
  | .yaml => "yaml"
  | .table => "txt"

def ofText? (t : Text) : Option Format := all.find? fun f => f.name == t

/-- A field without a default that is the first instant of the calendar, which YAML leaves out. -/
def withoutZeroTime (f : FieldDescriptor) : FieldDescriptor :=
  match f.default with
  | some (.time t) => if t.isZero then { f with default := none } else f
  | _ => f

/-- The record of a bundle in YAML. -/
def yamlRecord (b : Bundle) : Value :=
  let objects := b.objects.map fun o => { o with fields := o.fields.map withoutZeroTime }
  Bundle.value (.list []) { b with objects }

/-- A bundle in a format. -/
def bundle (f : Format) (options : FormatOptions) (b : Bundle) : Except Json.Error Text :=
  match f with
  | .json => do
    let t ← Json.write (if options.compact then .compact else .indented) 0 (b.value .null)
    return t ++ [10]
  | .yaml => .ok (Yaml.Write.document (yamlRecord b))
  | .table => .ok (Table.bundle options.noHeader b)

/-- Whether a text may be written for a bundle. Only YAML leaves the order of some entries open. -/
def Shows (f : Format) (b : Bundle) (text : Text) : Prop :=
  match f with
  | .yaml => Yaml.Write.ShowsDocument (yamlRecord b) text
  | .json => Format.json.bundle {} b = .ok text
  | .table => Format.table.bundle {} b = .ok text

theorem shows_of_bundle {f : Format} {b : Bundle} {text : Text} (h : f.bundle {} b = .ok text) :
    f.Shows b text := by
  cases f with
  | json => exact h
  | table => exact h
  | yaml =>
    cases h
    exact Yaml.Write.showsDocument_document (yamlRecord b)

/-- The text of a bundle whose maps are listed backwards. -/
def reversed (f : Format) (b : Bundle) (text : Text) : Text :=
  match f with
  | .yaml => Yaml.Write.document (yamlRecord b).reversed
  | _ => text

theorem shows_reversed {f : Format} {b : Bundle} {text : Text} (h : f.bundle {} b = .ok text) :
    f.Shows b (f.reversed b text) := by
  cases f with
  | json => exact h
  | table => exact h
  | yaml => exact Yaml.Write.showsDocument_reversed (yamlRecord b)

/-- The message of an error in a format. -/
def error (f : Format) (message : Text) : Text :=
  let v : Value := .map false [(.text "error", .text message)]
  match f with
  | .json => (Json.indented v).toOption.getD [] ++ [10]
  | .yaml => Yaml.Write.document v
  | .table => "Error: " ++ message ++ "\n"

end Format

/-- Why a registry refuses. -/
inductive RegistryError where
  | alreadyRegistered (name : Text)
  | notRegistered (name : Text)
  /-- An unknown format, with the names of the known ones. -/
  | unknown (name : Text) (known : List Text)
  deriving DecidableEq, Repr

def RegistryError.message : RegistryError → Text
  | .alreadyRegistered name => "formatter " ++ quoted name ++ " already registered"
  | .notRegistered name => "formatter " ++ quoted name ++ " not registered"
  | .unknown name known =>
    "unknown output format " ++ quoted name ++ " (available: [" ++ join " " known ++ "])"

/-- The formats that can be chosen, and the one that is used when none is. -/
structure Registry where
  formats : List Format := []
  defaultName : Text := Format.json.name
  deriving DecidableEq, Repr

namespace Registry

/-- The registry of all formats. -/
def standard : Registry := { formats := Format.all }

def get? (r : Registry) (name : Text) : Option Format := r.formats.find? fun f => f.name == name

/-- The names in order. -/
def names (r : Registry) : List Text := sort (r.formats.map Format.name)

def register (r : Registry) (f : Format) : Except RegistryError Registry :=
  if (r.get? f.name).isSome then .error (.alreadyRegistered f.name)
  else .ok { r with formats := r.formats ++ [f] }

def lookup (r : Registry) (name : Text) : Except RegistryError Format :=
  match r.get? name with
  | some f => .ok f
  | none => .error (.unknown name r.names)

/-- The default format, unless it has not been registered. -/
def default? (r : Registry) : Option Format := r.get? r.defaultName

def setDefault (r : Registry) (name : Text) : Except RegistryError Registry :=
  if (r.get? name).isSome then .ok { r with defaultName := name } else .error (.notRegistered name)

end Registry

end RecordSchema
