import RecordSchema.Model.WireTag

/-!
# Objects

The fields of an object are read with their classes, given tags, and resolved in the namespace of
the document. An object cannot hold itself by value.
-/

namespace RecordSchema

open Text Yaml

namespace Declared

/-- The declaration with the type that an identifier has unless it declares one; it may declare no
other. -/
def checkIdentifier (d : Declared) : Except SchemaError Declared :=
  if d.declarator.isRepeated || d.declarator.isAction then
    .error (.malformed d.place .identifierSuffix)
  else
    let type := d.attributes.type.getD Atomic.identifier.name
    if type = Atomic.identifier.name then
      .ok { d with attributes := { d.attributes with type := some type } }
    else .error (.malformed d.place (.identifierType Atomic.identifier.name type))

/-- Reads a field of an object. -/
def readField (n : Namespace) (entity : Location) (pair : Tree × Tree) :
    Except SchemaError Declared := do
  let declarator ← readName entity pair
  let place := { placeOf entity pair with member := declarator.name }
  let attributes ← readBody n place pair.2
  let d : Declared := { declarator, attributes, place }
  let d ← if WireTag.isIdentifier d then checkIdentifier d else .ok d
  if d.attributes.type.isNone then .error (.malformed place .missingType) else .ok d

/-- Reads the fields of an object in order. No two have the same name. -/
def readFields (n : Namespace) (entity : Location) : (seen : List Text) → List (Tree × Tree) →
    Except SchemaError (List Declared)
  | _, [] => .ok []
  | seen, pair :: rest => do
    let d ← readField n entity pair
    if seen.contains d.declarator.name then .error (.malformed d.place .fieldTwice)
    else return d :: (← readFields n entity (d.declarator.name :: seen) rest)

/-- Refuses bounds of which the lower is greater. -/
def checkBounds (d : Declared) : Except SchemaError Unit :=
  match d.attributes.min, d.attributes.max with
  | some min, some max =>
    if max.lt min then .error (.malformed d.place (.minAboveMax min max)) else .ok ()
  | _, _ => .ok ()

/-- The length of a repeated field, zero for a single one. -/
def length (n : Namespace) (d : Declared) : Except SchemaError Nat :=
  if d.declarator.isRepeated then n.positive d.place d.declarator.bound "array length" else .ok 0

/-- The field for a declaration with its tag. An action cannot be read back and is never kept; an
identifier cannot be written. -/
def resolve (n : Namespace) (d : Declared) (tag : Int) : Except SchemaError Field := do
  let a := d.attributes
  let type ← TypeReference.resolve n d.place (a.type.getD [])
  Auth.check d.place a.auth
  let bound ← d.length n
  d.checkBounds
  let isAction := d.declarator.isAction
  let isIdentifier := WireTag.isIdentifier d
  return {
    name := d.declarator.name
    tag
    category := type.category
    typeName := type.base
    typeKey := type.key
    maxSize := type.maxSize
    bound
    isIdentifier
    isAction
    persist := !isAction && a.persist.getD true
    alwaysNotify := isAction || a.alwaysNotify.getD false
    read := if isAction then .root else Auth.level a.auth .read .everyone
    write := if isIdentifier then .root else Auth.level a.auth .write .everyone
    min := a.min
    max := a.max
    description := a.description.getD []
    aliasName := a.aliasName.getD []
    default := a.default
    line := d.place.line }

end Declared

namespace Object

/-- The fields for declarations with their tags, in declaration order. -/
def resolveFields (n : Namespace) (d : Definition) : List (Declared × Int) →
    Except SchemaError (List Field)
  | [] => .ok []
  | (declared, tag) :: rest => do
    let f ← declared.resolve n tag
    if f.typeKey = d.key then .error (.cycle [d.name])
    else return f :: (← resolveFields n d rest)

/-- The keys that fields refer to, in order and once each. -/
def dependenciesOf (fields : List Field) : List Text :=
  sort ((fields.map Field.typeKey).filter (· ≠ [])).eraseDups

/-- The object of a definition with its fields in declaration order. -/
def ofFields (d : Definition) (fields : List Field) : Object :=
  { name := d.name
    origin := d.origin
    document := d.document
    line := d.line
    identifier := (fields.find? Field.isIdentifier).getD Field.implicitIdentifier
    ordered := (fields.filter fun f => !f.isIdentifier).mergeSort fun f g => decide (f.tag ≤ g.tag)
    dependencies := dependenciesOf fields }

/-- Resolves an object in the namespace of its document. -/
def resolve (n : Namespace) (d : Definition) : Except SchemaError Object :=
  match d.body.pairs? with
  | none => .error (.malformed d.place .objectShape)
  | some pairs => do
    let declared ← Declared.readFields n d.place [] pairs
    let tags ← WireTag.allocate declared
    let fields ← resolveFields n d (declared.zip tags)
    return ofFields d fields

/-- What is reported about a resolved object. -/
def event (o : Object) : LogEvent :=
  .debug "object resolved"
    [("object", .text o.key), ("fields", .int o.ordered.length),
      ("dependencies", .list (o.dependencies.map Value.text))]

end Object

end RecordSchema
