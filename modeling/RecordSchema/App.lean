import RecordSchema.Browser.Basic
import RecordSchema.Settings.Holder

/-!
# The application

Sessions, settings and browser together. A session that succeeds is published. After every session
the metrics are written to a file, if the settings name one. Sessions run under the options of the
settings in force: the application listens to their changes.
-/

namespace RecordSchema

open Text

/-- The surroundings of an application, whose state has a disk for settings and metrics. -/
structure Machine (σ : Type) extends Surroundings σ where
  disk : σ → Disk
  setDisk : Disk → σ → σ

structure App (σ : Type) where
  holder : Holder
  service : Service σ
  browser : Browser := {}

namespace App

variable {σ : Type}

/-- The name under which the application listens to changes of the settings. -/
def listener : Text := "sessions"

/-- Starts an application with the settings at a path. Whether sessions are measured is settled
here. -/
def start (machine : Machine σ) (env : Environment) (path : Text) (clock : Clock) (state : σ) :
    Except SettingsError (App σ) :=
  (Holder.start (machine.disk state) env path).map fun holder =>
    { holder := holder.listen listener
      service :=
        { state, clock, options := holder.settings.compileOptions
          metrics := if holder.settings.metrics.enabled then some {} else none } }

/-- Writes the metrics to the file that the settings name. A failure is only reported. -/
def writeMetrics (machine : Machine σ) (a : App σ) : App σ :=
  let path := a.holder.settings.metrics.textfile
  match a.service.metrics with
  | none => a
  | some m =>
    if path.isEmpty then a
    else
      match (machine.disk a.service.state).replace (Path.base path) path m.expose with
      | .ok d =>
        { a with service := { a.service with state := machine.setDisk d a.service.state } }
      | .error e =>
        let event : LogEvent := ⟨.warn, "metrics textfile export failed",
          [("error", .text e.message), ("path", .text path)]⟩
        { a with service := { a.service with log := a.service.log ++ [event] } }

/-- Runs a session, publishes its bundle if it succeeds, and writes the metrics. -/
def run (machine : Machine σ) (write canceled : Bool) (root : Text) (a : App σ) :
    Session × App σ :=
  let (session, service) := Service.run machine.toSurroundings write canceled root a.service
  let (browser, clock) :=
    match session.failure with
    | none => a.browser.publish session.id session.bundle service.clock
    | some _ => (a.browser, service.clock)
  (session, writeMetrics machine { a with browser, service := { service with clock } })

/-- Tells one listener of new settings. `reaction` gives the names it registers then. -/
def tell (settings : Settings) (reaction : Text → Settings → List Text) (name : Text) (a : App σ) :
    App σ :=
  let a :=
    if name = listener then
      { a with service := { a.service with options := settings.compileOptions } }
    else a
  { a with holder := (reaction name settings).foldl Holder.listen a.holder }

/-- Loads the settings again and tells the listeners. -/
def reload (machine : Machine σ) (env : Environment) (a : App σ)
    (reaction : Text → Settings → List Text := fun _ _ => []) : Reload × App σ :=
  let (r, holder) := a.holder.reload (machine.disk a.service.state) env
  (r, r.told.foldl (fun a name => a.tell holder.settings reaction name) { a with holder })

/-- The answer of the browser to a request. -/
def respond (a : App σ) (r : Request) : Response := a.browser.respond a.service.metrics r

end App

end RecordSchema
