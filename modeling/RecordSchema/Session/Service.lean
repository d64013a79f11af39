import RecordSchema.Metrics
import RecordSchema.Session.Arrangement
import RecordSchema.Store.Storage
import RecordSchema.Time.Clock

/-!
# Compile sessions

A session builds the bundle of a root document and, unless it only checks, writes it to
`<directory>/<schema>/<schema>.<extension>`. It is timed by two readings of the clock, counted in
the metrics if there are any, and reported in the log.
-/

namespace RecordSchema

/-- A finished session. -/
structure Session where
  id : Text
  root : Text
  schema : Text
  documents : Nat
  sources : List Text
  bundle : Option Bundle := none
  output : Text := []
  /-- The file that was written; empty when there is none. -/
  path : Text := []
  /-- Whether the file was changed. -/
  written : Bool := false
  /-- In nanoseconds. -/
  duration : Int := 0
  failure : Option SessionError := none
  deriving Repr

namespace Session

def outcome (s : Session) : Outcome :=
  match s.failure with
  | none => .ok
  | some e => e.outcome

/-- What is reported when a session ends. -/
def event (s : Session) : LogEvent :=
  let duration : Text × Value := ("duration", .float (Double.ofSignedRatio s.duration 1000000))
  match s.failure with
  | some e => .debug "session failed" [("error", .text e.message), duration]
  | none =>
    .info "session complete"
      [("schema", .text s.schema), ("documents", .int s.documents), ("path", .text s.path),
        ("written", .bool s.written), duration]

end Session

/-- What sessions run in: the state of the storage, the options in force and what earlier sessions
left. -/
structure Service (σ : Type) where
  state : σ
  options : CompileOptions
  clock : Clock
  /-- The number of sessions so far. -/
  started : Nat := 0
  /-- Present if sessions are measured. -/
  metrics : Option Metrics := none
  log : List LogEvent := []

/-- What does not depend on the state: the storage, and the name of each session and the order in
which it gets the entries of maps. -/
structure Surroundings (σ : Type) where
  storage : Storage σ
  identify : Nat → Text
  arrange : Nat → Arrangement := .alternating

namespace Metrics

/-- Counts what a build has found. -/
def addBuilt (m : Metrics) (documents : Nat) (b : Bundle) : Metrics :=
  ((((((m.setDocuments documents).addEntities "object" b.objects.length).addEntities
    "enum" b.enums.length).addEntities "bitmask" b.bitmasks.length).addEntities
    "database" b.databases.length).addEntities "constant" b.constants.length)

end Metrics

namespace Service

variable {σ : Type}

/-- Changes the metrics, if sessions are measured. -/
def measure (f : Metrics → Metrics) (s : Service σ) : Service σ :=
  { s with metrics := s.metrics.map f }

/-- Writes what was built. Answers the path and whether the file was changed. -/
def store (storage : Storage σ) (options : CompileOptions) (b : Built) (state : σ) :
    Except SessionError (Text × Bool) × σ :=
  match storage.ensure (b.directory options) state with
  | (.error e, state) => (.error (.store (b.directory options) e), state)
  | (.ok (), state) =>
    match storage.write (b.path options) b.output state with
    | (.error e, state) => (.error (.store (b.path options) e), state)
    | (.ok written, state) => (.ok (b.path options, written), state)

/-- Writes what was built if asked to, and counts it. -/
def deliver (env : Surroundings σ) (write : Bool) (b : Built) (s : Service σ) :
    Except SessionError (Text × Bool) × Service σ :=
  if write then
    let (result, state) := store env.storage s.options b s.state
    let s := { s with state }
    match result with
    | .ok (path, written) => (.ok (path, written), s.measure fun m => m.addOutput written)
    | .error e => (.error e, s)
  else (.ok ([], false), s)

/-- Everything of a session between the two readings of the clock. -/
def compile (env : Surroundings σ) (write canceled : Bool) (id root : Text) (s : Service σ) :
    Session × Service σ :=
  let source := (env.storage.source s.state).interrupted canceled
  let (built, progress) := Built.ofRoot source s.options root
  let log := progress.log.map fun e => e.within [("session", .text id), ("root", .text root)]
  let state := if canceled then s.state else env.storage.noteReads progress.tried s.state
  let s := { s with state, log := s.log ++ log }
  let session : Session :=
    { id, root, schema := progress.schema, documents := progress.documents,
      sources := progress.sources }
  match (env.arrange s.started).apply built with
  | .error e => ({ session with failure := some e }, s)
  | .ok b =>
    let s := s.measure fun m => m.addBuilt progress.documents b.bundle
    match deliver env write b s with
    | (.error e, s) => ({ session with failure := some e }, s)
    | (.ok (path, written), s) =>
      ({ session with bundle := some b.bundle, output := b.output, path, written }, s)

/-- Runs a session for a root document. -/
def run (env : Surroundings σ) (write canceled : Bool) (root : Text) (s : Service σ) :
    Session × Service σ :=
  let id := env.identify (s.started + 1)
  let root := Source.resolve [] root
  let (start, clock) := s.clock.read
  let (session, s) := compile env write canceled id root
    { s with clock, started := s.started + 1 }
  let (stop, clock) := s.clock.read
  let session := { session with duration := stop - start }
  let event := session.event.within [("session", .text id), ("root", .text root)]
  let s := { s with clock, log := s.log ++ [event] }
  (session, s.measure fun m => m.session session.outcome.name session.duration)

end Service

end RecordSchema
