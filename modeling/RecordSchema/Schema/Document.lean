import RecordSchema.Schema.Error
import RecordSchema.Yaml.Document

/-!
# Schema documents

A document is a mapping from keys to bodies. Only the keys are read here; a body stays a tree until
the definition is resolved.
-/

namespace RecordSchema

open Text Yaml

/-- A key of a document with its body, which is no alias. -/
structure Entry where
  key : Key
  body : Tree
  line : Nat
  deriving Repr

/-- The entries of a document, in document order. -/
structure Document where
  path : Text
  entries : List Entry
  deriving Repr

namespace Entry

/-- Where the entry stands in the document at `path`. -/
def place (e : Entry) (path : Text) : Location :=
  { document := path, line := e.line, entity := e.key.title }

/-- The paths in a list of imports, all of them texts that are not empty. -/
def paths? (t : Tree) (items : List Node) : Option (List Text) :=
  items.mapM fun item =>
    match (t.other item).target.node with
    | .scalar _ _ _ value => if value.isEmpty then none else some value
    | _ => none

/-- The paths that an import names. -/
def imports (e : Entry) (path : Text) : Except SchemaError (List Text) :=
  let refuse (reason : Reason) : Except SchemaError (List Text) :=
    .error (.malformed (e.place path) reason)
  if e.body.isNull then refuse .importWithoutPath
  else
    match e.body.node with
    | .scalar _ _ _ value => .ok [value]
    | .sequence _ _ items =>
      match paths? e.body items with
      | some paths => .ok paths
      | none => refuse .importEntry
    | _ => refuse .importShape

end Entry

namespace Document

/-- The entry for a pair of the top mapping, unless its key is malformed or among those `seen`. -/
def readEntry (path : Text) (seen : List (Key × Nat)) (pair : Tree × Tree) :
    Except SchemaError Entry :=
  let line := pair.1.line
  let place : Location := { document := path, line }
  match Key.parse pair.1.node.value with
  | .error e => .error (.malformed place (.key e))
  | .ok key =>
    match seen.lookup key with
    | some first =>
      if key.keyword = .imports then .ok ⟨key, pair.2, line⟩
      else .error (.malformed place (.definedTwice key first))
    | none => .ok ⟨key, pair.2, line⟩

/-- The entries of the pairs of the top mapping. No two definitions have the same key. -/
def readEntries (path : Text) :
    List (Key × Nat) → List (Tree × Tree) → Except SchemaError (List Entry)
  | _, [] => .ok []
  | seen, pair :: rest => do
    let e ← readEntry path seen pair
    let more ← readEntries path ((e.key, e.line) :: seen) rest
    return e :: more

/-- The document with a given root; an empty one has no entries. -/
def ofRoot (path : Text) (root : Option Tree) : Except SchemaError Document :=
  match root with
  | none => .ok ⟨path, []⟩
  | some t =>
    match t.pairs? with
    | none => .error (.malformed { document := path, line := t.line } .topLevel)
    | some pairs => do
      let es ← readEntries path [] pairs
      return ⟨path, es⟩

/-- Reads the document at `path` from its text. -/
def parse (path text : Text) : Except SchemaError Document :=
  match Yaml.Document.parse text with
  | .error e => .error (.malformed { document := path } (.yaml e))
  | .ok root => ofRoot path root

/-- The paths that the document imports, in declaration order. -/
def imports (d : Document) : Except SchemaError (List Text) := do
  let lists ← (d.entries.filter fun e => e.key.keyword = .imports).mapM fun e => e.imports d.path
  return lists.flatten

end Document

end RecordSchema
