import RecordSchema.Descriptor.Bundle
import RecordSchema.Log
import RecordSchema.Report.Format
import RecordSchema.Session.Build

/-!
# Settings

What can be configured. A setting that is empty, zero or off has not been given, and takes its
default. The defaults of the affixes depend on the naming that is in force.
-/

namespace RecordSchema

open Text

structure OutputSettings where
  directory : Text := []
  /-- The name of the format. -/
  format : Text := []
  deriving DecidableEq, Repr

structure LoggingSettings where
  level : Text := []
  /-- For programs (`json`) or for people (`console`). -/
  format : Text := []
  deriving DecidableEq, Repr

structure MetricsSettings where
  enabled : Bool := false
  /-- A file that the metrics are written to after each session. -/
  textfile : Text := []
  deriving DecidableEq, Repr

/-- Times are in nanoseconds. -/
structure ServeSettings where
  address : Text := []
  timeout : Int := 0
  deriving DecidableEq, Repr

structure WatchSettings where
  /-- How long it has to be quiet after a change. -/
  debounce : Int := 0
  /-- The least time between two sessions. -/
  minInterval : Int := 0
  deriving DecidableEq, Repr

structure Settings where
  output : OutputSettings := {}
  naming : Naming := { structSuffix := [], memberPrefix := [], objectSuffix := [] }
  pointerSize : Int := 0
  logging : LoggingSettings := {}
  metrics : MetricsSettings := {}
  serve : ServeSettings := {}
  watch : WatchSettings := {}
  deriving DecidableEq, Repr

/-- Why settings are refused. -/
inductive SettingsFlaw where
  | format (given : Text)
  | pointerSize (given : Int)
  | logLevel (given : Text)
  | logFormat (given : Text)
  | negativeDuration
  deriving DecidableEq, Repr

/-- The levels that can be chosen for the log. -/
def LogLevel.all : List LogLevel := [.debug, .info, .warn, .error]

namespace SettingsFlaw

def message : SettingsFlaw → Text
  | format given =>
    "output.format must be one of: " ++ join ", " Registry.standard.names ++ ", got " ++
      quoted given
  | pointerSize given => "layout.pointer_size must be 4 or 8, got " ++ ofInt given
  | logLevel given =>
    "logging.level must be one of: " ++ join ", " (LogLevel.all.map LogLevel.name) ++ ", got " ++
      quoted given
  | logFormat given => "logging.format must be 'json' or 'console', got " ++ quoted given
  | negativeDuration => "watch durations must not be negative"

end SettingsFlaw

namespace Settings

/-- Settings in which nothing is given. -/
def blank : Settings := {}

def orText (given fallback : Text) : Text := if given.isEmpty then fallback else given

def orInt (given fallback : Int) : Int := if given = 0 then fallback else given

/-- A second in nanoseconds. -/
def second : Int := 1000000000

/-- The settings with defaults for what has not been given. -/
def withDefaults (s : Settings) : Settings :=
  let base := if s.naming.legacy then Naming.older else Naming.standard
  { output :=
      { directory := orText s.output.directory "out"
        format := orText s.output.format Registry.standard.defaultName }
    naming :=
      { structSuffix := orText s.naming.structSuffix base.structSuffix
        memberPrefix := orText s.naming.memberPrefix base.memberPrefix
        objectSuffix := orText s.naming.objectSuffix base.objectSuffix
        legacy := s.naming.legacy }
    pointerSize := orInt s.pointerSize Layout.defaultPointerSize
    logging :=
      { level := orText s.logging.level LogLevel.info.name
        format := orText s.logging.format "console" }
    metrics := s.metrics
    serve :=
      { address := orText s.serve.address "127.0.0.1:8080"
        timeout := orInt s.serve.timeout (30 * second) }
    watch :=
      { debounce := orInt s.watch.debounce (second / 5)
        minInterval := orInt s.watch.minInterval second } }

/-- The first flaw of settings, if any. -/
def flaw? (s : Settings) : Option SettingsFlaw :=
  if (Registry.standard.get? s.output.format).isNone then some (.format s.output.format)
  else if s.pointerSize ≠ 4 ∧ s.pointerSize ≠ 8 then some (.pointerSize s.pointerSize)
  else if !(LogLevel.all.map LogLevel.name).contains s.logging.level then
    some (.logLevel s.logging.level)
  else if s.logging.format ≠ "json" ∧ s.logging.format ≠ "console" then
    some (.logFormat s.logging.format)
  else if s.watch.debounce < 0 ∨ s.watch.minInterval < 0 then some .negativeDuration
  else none

/-- The options of sessions under the settings. -/
def compileOptions (s : Settings) : CompileOptions :=
  { directory := s.output.directory
    format := s.output.format
    emit := { naming := s.naming, pointerSize := s.pointerSize } }

/-- The settings that a running program takes over. -/
def reloadable : List Text :=
  ["output.dir", "output.format", "naming", "layout.pointer_size", "logging.level",
    "metrics.textfile"]

/-- The settings that need a new start. -/
def nonReloadable : List Text :=
  ["logging.format", "metrics.enabled", "serve.addr", "watch.debounce", "watch.min_interval"]

end Settings

end RecordSchema
