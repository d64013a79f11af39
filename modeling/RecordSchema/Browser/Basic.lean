import RecordSchema.Browser.Route
import RecordSchema.Descriptor.Record
import RecordSchema.Json.Write
import RecordSchema.Metrics
import RecordSchema.Session.Service

/-!
# The descriptor browser

The browser shows the bundle of the last session that succeeded. Answers are JSON documents, except
for the metrics and for requests that nothing answers.
-/

namespace RecordSchema

open Text

/-- A bundle on display, with the session that made it and the instant since when it is shown. -/
structure Publication where
  session : Text
  bundle : Bundle
  updated : Int
  deriving Repr

/-- The browser, empty before the first publication. -/
structure Browser where
  current : Option Publication := none
  deriving Repr

structure Request where
  method : Text := "GET"
  target : Text
  deriving DecidableEq, Repr

structure Response where
  status : Nat
  /-- The media type, empty if there is none. -/
  type : Text
  body : Text
  deriving DecidableEq, Repr

namespace Response

/-- A document. A value that cannot be shown leaves the body empty. -/
def json (status : Nat) (v : Value) : Response :=
  let body : Text := match Json.compact v with
    | .ok t => t ++ [10]
    | .error _ => []
  ⟨status, "application/json", body⟩

/-- The words for a status. -/
def title (status : Nat) : Text :=
  if status = 503 then "Service Unavailable" else if status = 404 then "Not Found" else []

def failure (status : Nat) (code detail : Text) : Response :=
  let e : Value := .record
    [("status", .text (ofNat status)), ("code", .text code), ("title", .text (title status)),
      ("detail", .text detail)]
  json status (.record [("errors", .list [e])])

def noBundle : Response := failure 503 "no_bundle" "No bundle has been compiled yet"

def notFound (kind name : Text) : Response :=
  failure 404 "not_found" ("No " ++ kind ++ " named " ++ quoted name)

/-- The answer to a path that has no route. -/
def noRoute : Response := ⟨404, "text/plain; charset=utf-8", "404 page not found\n"⟩

/-- The answer to a method that a route does not take. -/
def noMethod : Response := ⟨405, [], []⟩

end Response

namespace Browser

/-- Puts the bundle of a session on display and reads the clock. Without a bundle nothing
changes. -/
def publish (b : Browser) (session : Text) (bundle : Option Bundle) (clock : Clock) :
    Browser × Clock :=
  match bundle with
  | none => (b, clock)
  | some bundle =>
    let (updated, clock) := clock.read
    ({ current := some { session, bundle, updated } }, clock)

def health (b : Browser) : Value :=
  match b.current with
  | none => Record.of [Record.field "status" (.text "empty")]
  | some p =>
    Record.of [Record.field "status" (.text "ok"), Record.text? "schema" p.bundle.schema,
      Record.text? "session" p.session,
      Record.field "updated" (.time (.ofUnixNano p.updated))]

/-- The list of objects in short. -/
def summaries (bundle : Bundle) : Value :=
  .list (bundle.objects.map fun o =>
    .record [("name", .text o.name), ("struct_name", .text o.structName),
      ("fields", .int o.fields.length), ("storage_size", .int o.storageSize.toInt)])

/-- A descriptor that was looked up by name. -/
def found (kind name : Text) : Option Value → Response
  | some v => .json 200 v
  | none => .notFound kind name

/-- The answer of a route that shows a bundle. -/
def page? (bundle : Bundle) : Route → Option Response
  | .bundle => some (.json 200 (bundle.value .null))
  | .objects => some (.json 200 (summaries bundle))
  | .object name =>
    some (found "object" name ((bundle.object? name).map (ObjectDescriptor.value .null)))
  | .enum name => some (found "enum" name ((bundle.enum? name).map EnumDescriptor.value))
  | .bitmask name => some (found "bitmask" name ((bundle.bitmask? name).map EnumDescriptor.value))
  | .database name =>
    some (found "database" name ((bundle.database? name).map DatabaseDescriptor.value))
  | .health => none
  | .metrics => none

/-- The answer of a route. There are metrics only if sessions are measured. -/
def answer (b : Browser) (metrics : Option Metrics) : Route → Response
  | .health => .json 200 b.health
  | .metrics =>
    match metrics with
    | some m =>
      ⟨200, "text/plain; version=0.0.4; charset=utf-8; escaping=underscores", m.expose⟩
    | none => .noRoute
  | route =>
    match b.current with
    | none => .noBundle
    | some p => (page? p.bundle route).getD .noRoute

/-- The answer to a request. -/
def respond (b : Browser) (metrics : Option Metrics) (r : Request) : Response :=
  if !Route.methods.contains r.method then .noMethod
  else
    match (Target.path? r.method r.target).bind Route.ofPath? with
    | none => .noRoute
    | some route =>
      if route = .metrics ∧ metrics.isNone then .noRoute
      else if route.takes r.method then b.answer metrics route
      else .noMethod

end Browser

end RecordSchema
