import RecordSchema.Settings.Environment
import RecordSchema.Yaml.Decode
import RecordSchema.Yaml.Document

/-!
# Loading settings

Settings come from a YAML file, if there is one, and from the environment, which wins over the file.
-/

namespace RecordSchema

open Text Yaml

/-- Why settings cannot be loaded. -/
inductive SettingsError where
  | unread (cause : DiskError)
  | unparsed (cause : SyntaxError)
  | undecodable (cause : DecodeError)
  | invalid (flaw : SettingsFlaw)
  deriving Repr

namespace SettingsError

def message : SettingsError → Text
  | unread cause => "read config: " ++ cause.message
  | unparsed cause => "parse config: " ++ cause.message
  | undecodable cause => "parse config: " ++ cause.message
  | invalid flaw => "validate config: " ++ flaw.message

end SettingsError

namespace Settings

open Decode

def outputSlots : List (Slot OutputSettings) :=
  [.scalar "dir" Reading.text fun v s => { s with directory := v.getD s.directory },
    .scalar "format" Reading.text fun v s => { s with format := v.getD s.format }]

def namingSlots : List (Slot Naming) :=
  [.scalar "struct_suffix" Reading.text fun v s => { s with structSuffix := v.getD s.structSuffix },
    .scalar "member_prefix" Reading.text fun v s =>
      { s with memberPrefix := v.getD s.memberPrefix },
    .scalar "object_suffix" Reading.text fun v s =>
      { s with objectSuffix := v.getD s.objectSuffix },
    .scalar "legacy" Reading.bool fun v s => { s with legacy := v.getD s.legacy }]

def layoutSlots : List (Slot Int) := [.scalar "pointer_size" Reading.int fun v n => v.getD n]

def loggingSlots : List (Slot LoggingSettings) :=
  [.scalar "level" Reading.text fun v s => { s with level := v.getD s.level },
    .scalar "format" Reading.text fun v s => { s with format := v.getD s.format }]

def metricsSlots : List (Slot MetricsSettings) :=
  [.scalar "enabled" Reading.bool fun v s => { s with enabled := v.getD s.enabled },
    .scalar "textfile" Reading.text fun v s => { s with textfile := v.getD s.textfile }]

def serveSlots : List (Slot ServeSettings) :=
  [.scalar "addr" Reading.text fun v s => { s with address := v.getD s.address },
    .scalar "timeout" Reading.duration fun v s => { s with timeout := v.getD s.timeout }]

def watchSlots : List (Slot WatchSettings) :=
  [.scalar "debounce" Reading.duration fun v s => { s with debounce := v.getD s.debounce },
    .scalar "min_interval" Reading.duration fun v s =>
      { s with minInterval := v.getD s.minInterval }]

def slots : List (Slot Settings) :=
  [.record "output" "config.OutputConfig" outputSlots output fun v s => { s with output := v },
    .record "naming" "config.NamingConfig" namingSlots naming fun v s => { s with naming := v },
    .record "layout" "config.LayoutConfig" layoutSlots pointerSize fun v s =>
      { s with pointerSize := v },
    .record "logging" "config.LoggingConfig" loggingSlots logging fun v s =>
      { s with logging := v },
    .record "metrics" "config.MetricsConfig" metricsSlots metrics fun v s =>
      { s with metrics := v },
    .record "serve" "config.ServeConfig" serveSlots serve fun v s => { s with serve := v },
    .record "watch" "config.WatchConfig" watchSlots watch fun v s => { s with watch := v }]

/-- The settings that a file gives, before defaults. The document is visited before what is in
it. -/
def decode (t : Text) : Except SettingsError Settings :=
  match Yaml.Document.parse t with
  | .error e => .error (.unparsed e)
  | .ok none => .ok blank
  | .ok (some tree) =>
    let settings (fuel : Nat) (n : Node) : Decode Settings := do
      visit
      Decode.record "config.Config" slots fuel n blank
    match Decode.run tree settings with
    | .error e => .error (.undecodable e)
    | .ok s => .ok s

/-- Settings with the environment over them and defaults below, if they have no flaw. -/
def finish (env : Environment) (s : Settings) : Except SettingsError Settings :=
  let s := (env.override s).withDefaults
  match s.flaw? with
  | some flaw => .error (.invalid flaw)
  | none => .ok s

/-- Loads the file at a path. -/
def load (disk : Disk) (env : Environment) (path : Text) : Except SettingsError Settings :=
  match disk.read path with
  | .error e => .error (.unread e)
  | .ok t =>
    match decode (env.expand t) with
    | .error e => .error e
    | .ok s => finish env s

/-- Loads the file at a path if there is something, and the environment alone otherwise. -/
def loadOrDefault (disk : Disk) (env : Environment) (path : Text) :
    Except SettingsError Settings :=
  if (disk.stat path).isOk then load disk env path else finish env blank

end Settings

end RecordSchema
