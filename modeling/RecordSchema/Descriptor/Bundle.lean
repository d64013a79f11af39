import RecordSchema.Dependency.Order
import RecordSchema.Descriptor.Storage
import RecordSchema.Descriptor.Variant
import RecordSchema.Naming.Style
import RecordSchema.Schema.Error

/-!
# Descriptor bundles

Everything that a backend needs to know about the definitions of a document: objects in dependency
order with the identifier first and the other fields by tag, each with the place of its storage.
-/

namespace RecordSchema

open Text

/-- The enum, bitmask or object that the type of a field names. -/
structure Detail where
  kind : Text
  key : Text
  name : Text
  deriving DecidableEq, Repr

structure FieldDescriptor where
  name : Text
  title : Text
  plural : Text
  member : Text
  description : Text
  aliasName : Text
  tag : Int
  index : Nat
  category : Category
  variant : Variant
  typeName : Text
  /-- From the start of the struct. -/
  offset : Int64
  /-- From the end of the previous member, or from the start of the struct for the first. -/
  dataOffset : Int64
  /-- The previous member, nothing for the first. -/
  previous : Option Text
  /-- The counter of a repeated field, from its data. -/
  countOffset : Int64
  dataSize : Int64
  bound : Nat
  maxSize : Nat
  persist : Bool
  alwaysNotify : Bool
  isAction : Bool
  min : Option Double
  max : Option Double
  read : Level
  write : Level
  default : Option Value
  detail : Option Detail
  deriving Repr

structure ObjectDescriptor where
  name : Text
  structName : Text
  className : Text
  origin : Text
  fields : List FieldDescriptor
  header : Header
  storageSize : Int64
  dependencies : List Text
  deriving Repr

structure EnumDescriptor where
  name : Text
  origin : Text
  /-- The size of a bitmask, zero for an enum. -/
  storageSize : Nat := 0
  values : List LabelledValue
  deriving DecidableEq, Repr

structure DatabaseDescriptor where
  name : Text
  origin : Text
  entries : List DatabaseEntry
  deriving DecidableEq, Repr

/-- Everything that is emitted for a document. -/
structure Bundle where
  schema : Text
  imports : List Text
  /-- Names with values. -/
  constants : List (Text × Text)
  enums : List EnumDescriptor
  bitmasks : List EnumDescriptor
  objects : List ObjectDescriptor
  databases : List DatabaseDescriptor
  deriving Repr

/-- How bundles are made. -/
structure EmitOptions where
  naming : Naming := {}
  pointerSize : Int := Layout.defaultPointerSize
  deriving DecidableEq, Repr

namespace Object

/-- An object as a vertex of the dependency graph. -/
def vertex (o : Object) : Vertex := ⟨o.key, o.name, o.dependencies⟩

/-- Objects in dependency order. -/
def order (os : List Object) : Except SchemaError (List Object) :=
  match Vertex.order (os.map vertex) with
  | .error vs => .error (.cycle (vs.map Vertex.name))
  | .ok vs => .ok (vs.filterMap fun v => os.find? fun o => o.key == v.key)

end Object

namespace FieldDescriptor

/-- What the type of a field names. -/
def detailOf (m : Model) (f : Field) : Option Detail :=
  match f.category with
  | .enum => (m.enum? f.typeKey).map fun e => ⟨"enum", f.typeKey, e.name⟩
  | .bitmask => (m.bitmask? f.typeKey).map fun b => ⟨"bitmask", f.typeKey, b.name⟩
  | .object => (m.object? f.typeKey).map fun o => ⟨"object", f.typeKey, o.name⟩
  | _ => none

/-- The descriptor of a field after the field `previous`. -/
def ofField (m : Model) (naming : Naming) (l : Layout) (index : Nat) (previous : Option Field)
    (f : Field) : FieldDescriptor :=
  let slot := l.member f.name
  { name := f.name
    title := naming.title f.name
    plural := naming.plural f.name
    member := naming.member f.name
    description := f.description
    aliasName := f.aliasName
    tag := f.tag
    index
    category := f.category
    variant := ⟨.ofCategory f.category, if f.isRepeated then .repeated else .single⟩
    typeName := f.typeName
    offset := slot.offset
    dataOffset := match previous with
      | none => slot.offset
      | some p =>
        let before := l.member p.name
        slot.offset - (before.offset + before.size)
    previous := previous.map fun p => naming.member p.name
    countOffset := if f.isRepeated then slot.countOffset - slot.offset else 0
    dataSize := slot.elementSize
    bound := f.bound
    maxSize := f.maxSize
    persist := f.persist
    alwaysNotify := f.alwaysNotify
    isAction := f.isAction
    min := f.min
    max := f.max
    read := f.read
    write := f.write
    default := f.default
    detail := detailOf m f }

/-- The descriptors of fields in order, the first of them with the given index. -/
def ofFields (m : Model) (naming : Naming) (l : Layout) : (index : Nat) → Option Field →
    List Field → List FieldDescriptor
  | _, _, [] => []
  | index, previous, f :: rest =>
    ofField m naming l index previous f :: ofFields m naming l (index + 1) (some f) rest

end FieldDescriptor

def ObjectDescriptor.ofObject (m : Model) (naming : Naming) (o : Object) (l : Layout) :
    ObjectDescriptor :=
  { name := o.name
    structName := naming.structName o.name
    className := naming.className o.name
    origin := o.origin
    fields := FieldDescriptor.ofFields m naming l 0 none o.fields
    header := l.header
    storageSize := l.size
    dependencies := o.dependencies }

namespace Bundle

/-- The bundle of a model. The objects of all documents are ordered and laid out; only those of the
root document are described. -/
def emit (options : EmitOptions) (m : Model) : Except SchemaError Bundle := do
  let sorted ← Object.order m.allObjects
  let laid := Layout.ofObjects m options.pointerSize sorted
  let own := laid.filter fun p => m.objects.any fun o => o.key == p.1.key
  return {
    schema := m.schema
    imports := m.imports
    constants := m.constants.map fun c => (c.name, c.value)
    enums := m.enums.map fun e => { name := e.name, origin := e.origin, values := e.values }
    bitmasks := m.bitmasks.map fun b =>
      { name := b.name, origin := b.origin, storageSize := b.storageSize, values := b.values }
    objects := own.map fun p => ObjectDescriptor.ofObject m options.naming p.1 p.2
    databases := m.databases.map fun d => ⟨d.name, d.origin, d.entries⟩ }

def object? (b : Bundle) (name : Text) : Option ObjectDescriptor :=
  b.objects.find? fun o => o.name == name

def enum? (b : Bundle) (name : Text) : Option EnumDescriptor :=
  b.enums.find? fun e => e.name == name

def bitmask? (b : Bundle) (name : Text) : Option EnumDescriptor :=
  b.bitmasks.find? fun e => e.name == name

def database? (b : Bundle) (name : Text) : Option DatabaseDescriptor :=
  b.databases.find? fun d => d.name == name

end Bundle

end RecordSchema
