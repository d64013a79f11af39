import RecordSchema.Settings.Load

/-!
# Settings in force

A holder keeps the settings of a running program. Reloading replaces them, unless the new ones are
refused, and tells everyone who listens. Listeners are told in the order in which they registered;
one that registers while others are being told is told the next time.
-/

namespace RecordSchema

open Text

/-- Settings with the path they are loaded from and the names of the listeners. -/
structure Holder where
  path : Text
  settings : Settings
  listeners : List Text := []
  deriving DecidableEq, Repr

/-- What a reload does. -/
structure Reload where
  failure : Option SettingsError := none
  /-- What is reported before the listeners are told. -/
  before : List LogEvent
  /-- The listeners to tell, in order. -/
  told : List Text := []
  /-- What is reported when they have been told. -/
  after : List LogEvent := []

namespace Holder

/-- A holder with the settings that a path gives. Later loads take the path in its clean form, which
need not pass through the same directories. -/
def start (disk : Disk) (env : Environment) (path : Text) : Except SettingsError Holder :=
  (Settings.loadOrDefault disk env path).map fun settings =>
    { path := Path.joined [path], settings }

def listen (h : Holder) (name : Text) : Holder := { h with listeners := h.listeners ++ [name] }

/-- What is reported about a change of settings. -/
def changes (old new : Settings) : List LogEvent :=
  let level : List LogEvent :=
    if old.logging.level = new.logging.level then []
    else
      [.info "log level changed"
        [("old", .text old.logging.level), ("new", .text new.logging.level)]]
  let output : List LogEvent :=
    if old.output = new.output then []
    else
      [.info "output settings changed"
        [("dir", .text new.output.directory), ("format", .text new.output.format)]]
  let naming : List LogEvent :=
    if old.naming = new.naming ∧ old.pointerSize = new.pointerSize then []
    else
      [.info "naming or layout changed"
        [("legacy", .bool new.naming.legacy), ("pointer_size", .int new.pointerSize)]]
  level ++ output ++ naming

/-- Loads the settings again. The old ones stay when the new ones are refused. -/
def reload (disk : Disk) (env : Environment) (h : Holder) : Reload × Holder :=
  let start : LogEvent := .info "reloading configuration" [("path", .text h.path)]
  match Settings.loadOrDefault disk env h.path with
  | .error e =>
    let refused : LogEvent :=
      ⟨.error, "config reload failed, keeping old config", [("error", .text e.message)]⟩
    ({ failure := some e, before := [start, refused] }, h)
  | .ok settings =>
    ({ before := start :: changes h.settings settings
       told := h.listeners
       after := [.info "configuration reloaded successfully" []] },
      { h with settings })

end Holder

end RecordSchema
