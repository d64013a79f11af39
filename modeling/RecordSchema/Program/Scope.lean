import RecordSchema.Schema.Document

/-!
# Scopes

A scope holds definitions by kind and name. Names keep the order in which they were first set, and a
later definition of the same name takes the place of the earlier one.
-/

namespace RecordSchema

open Text Yaml

/-- A definition of a document. -/
structure Definition where
  keyword : Keyword
  name : Text
  body : Tree
  /-- The path of the document. -/
  document : Text
  /-- The schema name of the document. -/
  origin : Text
  line : Nat
  deriving Repr

namespace Definition

def place (d : Definition) : Location :=
  { document := d.document, line := d.line, entity := (Key.mk d.keyword d.name).title }

/-- The name qualified by its origin. -/
def key (d : Definition) : Text := d.origin ++ "." ++ d.name

/-- Whether a definition is the one of a kind with a name. -/
def isNamed (keyword : Keyword) (name : Text) (d : Definition) : Bool :=
  d.keyword == keyword && d.name == name

end Definition

/-- Definitions in the order of first insertion. -/
structure Scope where
  definitions : List Definition := []
  deriving Repr, Inhabited

namespace Scope

def empty : Scope := {}

/-- The definitions of a kind. -/
def ofKind (s : Scope) (keyword : Keyword) : List Definition :=
  s.definitions.filter fun d => d.keyword == keyword

def names (s : Scope) (keyword : Keyword) : List Text := (s.ofKind keyword).map Definition.name

def get? (s : Scope) (keyword : Keyword) (name : Text) : Option Definition :=
  s.definitions.find? (Definition.isNamed keyword name)

/-- The list with a definition in the place of the one with its kind and name, or at the end. -/
def setIn (d : Definition) : List Definition → List Definition
  | [] => [d]
  | e :: rest => if e.isNamed d.keyword d.name then d :: rest else e :: setIn d rest

/-- Adds a definition or replaces the one of its kind and name. -/
def set (s : Scope) (d : Definition) : Scope := ⟨setIn d s.definitions⟩

/-- Sets every definition of another scope. -/
def update (s other : Scope) : Scope := other.definitions.foldl set s

end Scope

end RecordSchema
