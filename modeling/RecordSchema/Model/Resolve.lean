import RecordSchema.Model.Database
import RecordSchema.Model.Object
import RecordSchema.Model.Values

/-!
# Resolving a program

Definitions are resolved document by document, imports first, and in each document the enums, the
bitmasks, the objects and the databases in turn. The first error ends the resolution.
-/

namespace RecordSchema

open Text

/-- A definition that has been resolved. -/
inductive Resolved where
  | enum (e : Enumeration)
  | bitmask (b : Bitmask)
  | object (o : Object)
  | database (d : Database)
  deriving Repr

namespace Resolved

def enum? : Resolved → Option Enumeration
  | enum e => some e
  | _ => none

def bitmask? : Resolved → Option Bitmask
  | bitmask b => some b
  | _ => none

def object? : Resolved → Option Object
  | object o => some o
  | _ => none

def database? : Resolved → Option Database
  | database d => some d
  | _ => none

/-- What is reported about a definition. -/
def event? : Resolved → Option LogEvent
  | object o => some o.event
  | database d => some d.event
  | _ => none

end Resolved

namespace Definition

/-- Resolves a definition in the namespace of its document. Constants, classes and imports have
nothing to resolve. -/
def resolve? (n : Namespace) (d : Definition) : Except SchemaError (Option Resolved) :=
  match d.keyword with
  | .enum => (Enumeration.resolve d).map fun e => some (.enum e)
  | .bitmask => (Bitmask.resolve d).map fun b => some (.bitmask b)
  | .object => (Object.resolve n d).map fun o => some (.object o)
  | .database => (Database.resolve n d).map fun b => some (.database b)
  | _ => .ok none

end Definition

namespace Namespace

/-- The kinds of definitions in the order in which they are resolved. -/
def resolvedKinds : List Keyword := [.enum, .bitmask, .object, .database]

/-- The definitions of a document in the order in which they are resolved. -/
def steps (n : Namespace) : List (Namespace × Definition) :=
  resolvedKinds.flatMap fun k => (n.own.ofKind k).map fun d => (n, d)

def constants (n : Namespace) : List Constant :=
  (n.own.ofKind .constant).map fun d => ⟨d.name, d.origin, d.body.node.value⟩

end Namespace

namespace Program

/-- The definitions of all documents in the order in which they are resolved. -/
def steps (p : Program) : List (Namespace × Definition) := p.namespaces.flatMap Namespace.steps

/-- Refuses two documents with one schema name. `seen` holds the documents before, by name. -/
def checkNames : (seen : List (Text × Text)) → List Namespace → Except SchemaError Unit
  | _, [] => .ok ()
  | seen, n :: rest =>
    match seen.lookup n.name with
    | some other => .error (.malformed { document := n.path } (.sharedName n.name other))
    | none => checkNames ((n.name, n.path) :: seen) rest

/-- Resolves definitions in order, up to the first error. -/
def resolveSteps : List (Namespace × Definition) → Except SchemaError (List (Namespace × Resolved))
  | [] => .ok []
  | (n, d) :: rest => do
    let r ← d.resolve? n
    let more ← resolveSteps rest
    match r with
    | some r => return (n, r) :: more
    | none => return more

end Program

namespace Model

/-- The model of a program with its definitions resolved. -/
def ofResolved (p : Program) (rs : List (Namespace × Resolved)) : Model :=
  let all := rs.map Prod.snd
  let own := (rs.filter fun r => r.1.path == p.root.path).map Prod.snd
  { schema := p.root.name
    imports := p.root.imports
    constants := p.root.constants
    enums := own.filterMap Resolved.enum?
    bitmasks := own.filterMap Resolved.bitmask?
    objects := own.filterMap Resolved.object?
    databases := own.filterMap Resolved.database?
    allEnums := all.filterMap Resolved.enum?
    allBitmasks := all.filterMap Resolved.bitmask?
    allObjects := all.filterMap Resolved.object? }

/-- Resolves every definition of a program. -/
def resolve (p : Program) : Except SchemaError Model := do
  Program.checkNames [] p.namespaces
  let rs ← Program.resolveSteps p.steps
  return ofResolved p rs

/-- What is reported about a model. -/
def event (m : Model) : LogEvent :=
  .debug "program resolved"
    [("schema", .text m.schema), ("objects", .int m.allObjects.length),
      ("enums", .int m.allEnums.length), ("bitmasks", .int m.allBitmasks.length)]

/-- The events of definitions that are resolved in order, up to the first error. -/
def stepEvents : List (Namespace × Definition) → List LogEvent
  | [] => []
  | (n, d) :: rest =>
    match d.resolve? n with
    | .error _ => []
    | .ok r => (r.bind Resolved.event?).toList ++ stepEvents rest

/-- What is reported about the resolution of a program. -/
def events (p : Program) : List LogEvent :=
  match Program.checkNames [] p.namespaces with
  | .error _ => []
  | .ok () =>
    match resolve p with
    | .ok m => stepEvents p.steps ++ [m.event]
    | .error _ => stepEvents p.steps

end Model

end RecordSchema
