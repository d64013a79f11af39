import RecordSchema.Log
import RecordSchema.Program.Scope
import RecordSchema.Store.Source

/-!
# Loading documents

A document is loaded after the documents it imports, each of them once. Its namespace has two
scopes: what it declares itself, and what its imports give, where later imports win over earlier
ones and a document's own declarations over those it imports. A document that is met again while it
is being loaded closes an import cycle.
-/

namespace RecordSchema

open Text Yaml

/-- Why documents cannot be loaded. -/
inductive LoadError where
  | schema (cause : SchemaError)
  | unread (path : Text) (cause : ReadError)
  /-- A failure behind a reference in a document. -/
  | imported (document reference : Text) (cause : LoadError)
  deriving Repr

namespace LoadError

def message : LoadError → Text
  | schema cause => cause.message
  | unread path cause => "load " ++ path ++ ": " ++ cause.message
  | imported document reference cause =>
    document ++ ": import " ++ quoted reference ++ ": " ++ cause.message

end LoadError

/-- The view of one document. -/
structure Namespace where
  path : Text
  /-- The schema name of the document. -/
  name : Text
  /-- The references of its imports as written, each once. -/
  imports : List Text := []
  own : Scope := {}
  external : Scope := {}
  deriving Repr, Inhabited

namespace Namespace

/-- Finds a definition, the document's own first. -/
def lookup? (n : Namespace) (keyword : Keyword) (name : Text) : Option Definition :=
  match n.own.get? keyword name with
  | some d => some d
  | none => n.external.get? keyword name

end Namespace

/-- A root document with everything it imports. -/
structure Program where
  root : Namespace
  /-- Every namespace, imports before importers. -/
  namespaces : List Namespace
  deriving Repr

namespace Program

/-- The namespace of the document at a path. -/
def namespace? (p : Program) (path : Text) : Option Namespace :=
  p.namespaces.find? fun n => n.path == path

end Program

/-- The progress of loading. -/
structure Loading where
  /-- The namespaces loaded so far, imports before importers. -/
  done : List Namespace := []
  /-- Every path that was read or tried, in order. -/
  tried : List Text := []
  log : List LogEvent := []
  deriving Repr

/-- Loading keeps its progress when it fails. -/
abbrev Load := ExceptT LoadError (StateM Loading)

namespace Load

def report (e : LogEvent) : Load Unit := modify fun s => { s with log := s.log ++ [e] }

def refuse {α : Type} (e : SchemaError) : Load α := throw (.schema e)

/-- Whether the body of a definition has the shape of its kind: a constant is a scalar with a text,
any other definition a mapping. -/
def hasShape (e : Entry) : Bool :=
  if e.key.keyword = .constant then
    match e.body.node with
    | .scalar _ tag _ value => tag != Tag.null && !value.isEmpty
    | _ => false
  else e.body.pairs?.isSome

/-- Why the shape of a definition is refused. -/
def shapeReason (e : Entry) : Reason :=
  if e.key.keyword = .constant then .constantShape else .bodyShape

/-- The definition that an entry gives in a namespace. -/
def definition (n : Namespace) (e : Entry) : Definition :=
  { keyword := e.key.keyword, name := e.key.name, body := e.body, document := n.path,
    origin := n.name, line := e.line }

/-- The documents from the first occurrence of a path among the open ones, and the path again. -/
def chain (path : Text) (opened : List Text) : List Text :=
  opened.dropWhile (· != path) ++ [path]

/-- The events for the names of a document that hide names of its imports. -/
def shadows (n : Namespace) : List LogEvent :=
  Keyword.all.flatMap fun k =>
    (n.own.names k).filterMap fun name =>
      (n.external.get? k name).map fun d =>
        .debug "local definition shadows import"
          [("document", .text n.path), ("kind", .text k.name), ("name", .text name),
            ("shadows", .text d.document)]

/-- Imports the references that have not been imported yet, with `load` for the documents. -/
def importAll (load : Text → Load Namespace) : List Text → Namespace → Load Namespace
  | [], n => return n
  | ref :: rest, n => do
    if n.imports.contains ref then importAll load rest n
    else
      let state ← get
      let (result, state) := (load (Source.resolve n.path ref)).run state
      set state
      match result with
      | .error e => throw (.imported n.path ref e)
      | .ok imported =>
        importAll load rest
          { n with
            imports := n.imports ++ [ref]
            external := (n.external.update imported.external).update imported.own }

/-- Takes in the entries of a document in order. -/
def entries (load : Text → Load Namespace) : List Entry → Namespace → Load Namespace
  | [], n => return n
  | e :: rest, n => do
    if e.key.keyword = .imports then
      match e.imports n.path with
      | .error cause => refuse cause
      | .ok refs =>
        let n ← importAll load refs n
        entries load rest n
    else if hasShape e then entries load rest { n with own := n.own.set (definition n e) }
    else refuse (.malformed (e.place n.path) (shapeReason e))

/-- The namespace of the document at a path, below the documents that are being loaded, with `load`
for the documents it imports. -/
def visit (source : Source) (load : (opened : List Text) → Text → Load Namespace)
    (opened : List Text) (path : Text) : Load Namespace := do
  match (← get).done.find? fun n => n.path == path with
  | some n => return n
  | none =>
    if opened.contains path then refuse (.importCycle (chain path opened))
    else
      modify fun s => { s with tried := s.tried ++ [path] }
      match source.read path with
      | .error e => throw (.unread path e)
      | .ok text =>
        match Document.parse path text with
        | .error e => refuse e
        | .ok d =>
          let n ← entries (load (opened ++ [path])) d.entries
            { path, name := Source.schemaName path }
          (shadows n).forM report
          modify fun s => { s with done := s.done ++ [n] }
          report (.debug "document loaded"
            [("document", .text path), ("objects", .int (n.own.ofKind .object).length),
              ("imports", .int n.imports.length)])
          return n

/-- The namespace of the document at a path, where imports are followed down to a depth. -/
def document (source : Source) : Nat → (opened : List Text) → Text → Load Namespace
  | 0, opened, path => refuse (.importCycle (chain path opened))
  | depth + 1, opened, path => visit source (document source depth) opened path

end Load

/-- Loads the document at `root` and everything it imports. -/
def Program.load (source : Source) (root : Text) : Except LoadError Program × Loading :=
  let (result, state) := (Load.document source (source.size + 3) [] root).run {}
  (result.map fun n => ⟨n, state.done⟩, state)

end RecordSchema
