import RecordSchema.Model.Declaration

/-!
# Databases

An entry of a database holds one object, a collection of objects, or another database.
-/

namespace RecordSchema

open Text Yaml

namespace DatabaseEntry

/-- The entry without what its type stands for. Levels that are not given are the read level. -/
def outline (d : Declared) (type : Text) : DatabaseEntry :=
  let auth := d.attributes.auth
  let read := Auth.level auth .read .everyone
  { name := d.declarator.name
    kind := .resource
    backingType := type
    backingKey := []
    read
    create := Auth.level auth .create read
    update := Auth.level auth .update read
    delete := Auth.level auth .delete read
    description := d.attributes.description.getD []
    line := d.place.line }

/-- The entry with what its type stands for, a database before an object. -/
def back (n : Namespace) (owner : Definition) (d : Declared) (e : DatabaseEntry) :
    Except SchemaError DatabaseEntry :=
  match n.lookup? .database e.backingType with
  | some sub =>
    if sub.key = owner.key then .error (.malformed d.place .containsItself)
    else if d.declarator.isRepeated then .error (.malformed d.place .boundedDatabase)
    else .ok { e with kind := .subdatabase, backingKey := sub.key }
  | none =>
    match n.lookup? .object e.backingType with
    | none => .error (.unresolvedType d.place e.backingType)
    | some object =>
      if d.declarator.isRepeated then do
        let bound ← n.positive d.place d.declarator.bound "collection size"
        return { e with kind := .collection, backingKey := object.key, bound }
      else .ok { e with backingKey := object.key }

/-- Resolves an entry of a database. -/
def resolve (n : Namespace) (owner : Definition) (pair : Tree × Tree) :
    Except SchemaError DatabaseEntry := do
  let declarator ← Declared.readName owner.place pair
  let place := { Declared.placeOf owner.place pair with member := declarator.name }
  if declarator.isAction then .error (.malformed place .actionEntry)
  else
    let attributes ← Declared.readBody n place pair.2
    let d : Declared := { declarator, attributes, place }
    match attributes.type with
    | none => .error (.malformed place .missingType)
    | some type =>
      if type = [] then .error (.malformed place .missingType)
      else
        Auth.check place attributes.auth
        back n owner d (outline d type)

end DatabaseEntry

namespace Database

/-- Resolves the entries of a database in order. No two have the same name. -/
def resolveEntries (n : Namespace) (owner : Definition) : (seen : List Text) →
    List (Tree × Tree) → Except SchemaError (List DatabaseEntry)
  | _, [] => .ok []
  | seen, pair :: rest => do
    let e ← DatabaseEntry.resolve n owner pair
    if seen.contains e.name then
      .error (.malformed { owner.place with line := pair.1.line, member := e.name } .entryTwice)
    else return e :: (← resolveEntries n owner (e.name :: seen) rest)

/-- Resolves a database in the namespace of its document. -/
def resolve (n : Namespace) (d : Definition) : Except SchemaError Database :=
  match d.body.pairs? with
  | none => .error (.malformed d.place .databaseShape)
  | some pairs => do
    let entries ← resolveEntries n d [] pairs
    return { name := d.name, origin := d.origin, document := d.document, entries }

/-- What is reported about a resolved database. -/
def event (d : Database) : LogEvent :=
  .debug "database resolved" [("database", .text d.key), ("entries", .int d.entries.length)]

end Database

end RecordSchema
