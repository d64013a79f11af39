import RecordSchema.Settings.Basic
import RecordSchema.Text.Blank
import RecordSchema.Text.Keyed
import RecordSchema.Time.Duration

/-!
# The environment

Variables by name. They are put in for `$name` and `${name}` in a configuration file, and some of
them override settings.
-/

namespace RecordSchema

open Text

abbrev Environment := Keyed Text

namespace Environment

/-- The value of a variable, empty if there is none. -/
def get (env : Environment) (name : Text) : Text := (env.lookup name).getD []

/-- The one-letter names that stand for themselves: digits and some signs. -/
def isSpecial (b : UInt8) : Bool :=
  b == 42 || b == 35 || b == 36 || b == 64 || b == 33 || b == 63 || b == 45 || (48 ≤ b && b ≤ 57)

def isNameByte (b : UInt8) : Bool :=
  b == 95 || (48 ≤ b && b ≤ 57) || (97 ≤ b && b ≤ 122) || (65 ≤ b && b ≤ 90)

/-- The name after a dollar sign, and the number of bytes that it takes. An empty name that takes
bytes is malformed. -/
def nameAfter (t : Text) : Text × Nat :=
  match t with
  | 123 :: rest =>
    match cut? 125 rest with
    | some (name, _) => (name, name.length + 2)
    | none => ([], 1)
  | b :: _ =>
    if isSpecial b then ([b], 1)
    else
      let name := t.takeWhile isNameByte
      (name, name.length)
  | [] => ([], 0)

/-- A part of a text: a byte, or a variable that is put in. -/
inductive Piece where
  | byte (b : UInt8)
  | variable (name : Text)
  deriving DecidableEq, Repr

/-- The parts of a text. A dollar sign without a name stays, and malformed names are dropped. -/
def pieces (t : Text) : List Piece :=
  match t with
  | [] => []
  | 36 :: rest =>
    let (name, taken) := nameAfter rest
    let piece : List Piece :=
      if !name.isEmpty then [.variable name] else if taken = 0 then [.byte 36] else []
    piece ++ pieces (rest.drop taken)
  | b :: rest => .byte b :: pieces rest
termination_by t.length
decreasing_by
  · simp only [List.length_drop, List.length_cons]
    omega
  · simp

/-- The variables that a text mentions. -/
def mentioned (t : Text) : List Text :=
  (pieces t).filterMap fun p =>
    match p with
    | .variable name => some name
    | .byte _ => none

/-- A text with the values of variables put in. -/
def expand (env : Environment) (t : Text) : Text :=
  (pieces t).flatMap fun p =>
    match p with
    | .byte b => [b]
    | .variable name => env.get name

/-- Whether a text means yes. -/
def isYes (t : Text) : Bool := [ofString "true", "1", "yes", "on"].contains (toLower (trim t))

/-- The variables that override settings. One that is no number or no duration where one is needed
overrides nothing. -/
def overrides : List (Text × (Text → Settings → Settings)) :=
  [("JUDEGEN_OUTPUT_DIR", fun v s => { s with output.directory := v }),
    ("JUDEGEN_OUTPUT_FORMAT", fun v s => { s with output.format := v }),
    ("JUDEGEN_NAMING_STRUCT_SUFFIX", fun v s => { s with naming.structSuffix := v }),
    ("JUDEGEN_NAMING_MEMBER_PREFIX", fun v s => { s with naming.memberPrefix := v }),
    ("JUDEGEN_NAMING_OBJECT_SUFFIX", fun v s => { s with naming.objectSuffix := v }),
    ("JUDEGEN_NAMING_LEGACY", fun v s => { s with naming.legacy := isYes v }),
    ("JUDEGEN_LAYOUT_POINTER_SIZE", fun v s =>
      match Number.decimal? v with
      | some n => if Number.fitsInt64 n then { s with pointerSize := n } else s
      | none => s),
    ("JUDEGEN_LOG_LEVEL", fun v s => { s with logging.level := v }),
    ("JUDEGEN_LOG_FORMAT", fun v s => { s with logging.format := v }),
    ("JUDEGEN_METRICS_ENABLED", fun v s => { s with metrics.enabled := isYes v }),
    ("JUDEGEN_METRICS_TEXTFILE", fun v s => { s with metrics.textfile := v }),
    ("JUDEGEN_SERVE_ADDR", fun v s => { s with serve.address := v }),
    ("JUDEGEN_WATCH_DEBOUNCE", fun v s =>
      match Duration.parse? v with
      | some d => { s with watch.debounce := d }
      | none => s),
    ("JUDEGEN_WATCH_MIN_INTERVAL", fun v s =>
      match Duration.parse? v with
      | some d => { s with watch.minInterval := d }
      | none => s)]

/-- The settings with the variables that are not empty put over them. -/
def override (env : Environment) (s : Settings) : Settings :=
  overrides.foldl (fun s o => if (env.get o.1).isEmpty then s else o.2 (env.get o.1) s) s

end Environment

end RecordSchema
