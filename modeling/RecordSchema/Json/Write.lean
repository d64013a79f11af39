import RecordSchema.Number.Notation
import RecordSchema.Text.Utf8
import RecordSchema.Value.Basic

/-!
# Values as JSON

Values are written on one line, or over several with two blanks for each level. Characters that
would matter inside a web page are escaped, keys of maps are in ascending order, and the shortest
decimal stands for a double. Numbers that are not finite, maps with other keys than texts and times
with an offset of a day or more have no JSON form.
-/

namespace RecordSchema.Json

open Text

/-- Why a value has no JSON form. -/
inductive Error where
  | unsupportedNumber (d : Double)
  | unsupportedMap
  | unsupportedOffset
  deriving DecidableEq, Repr

namespace Error

def message : Error → Text
  | unsupportedNumber d => "json: unsupported value: " ++ d.render Double.general
  | unsupportedMap => "json: unsupported type: map[interface \x7b\x7d]interface \x7b\x7d"
  | unsupportedOffset =>
    "json: error calling MarshalJSON for type time.Time: Time.MarshalJSON: " ++
      "timezone hour outside of range [0,23]"

end Error

private def hexEscape (n : Nat) : Text :=
  "\\u" ++ [hexDigit (n / 4096 % 16), hexDigit (n / 256 % 16), hexDigit (n / 16 % 16),
    hexDigit (n % 16)]

/-- A character of a string. -/
def escaped (c : Char) : Text :=
  if c = '"' then "\\\""
  else if c = '\\' then "\\\\"
  else if c = '\x08' then "\\b"
  else if c = '\x0c' then "\\f"
  else if c = '\n' then "\\n"
  else if c = '\r' then "\\r"
  else if c = '\t' then "\\t"
  else if c.toNat < 0x20 ∨ c = '<' ∨ c = '>' ∨ c = '&' ∨ c.toNat = 0x2028 ∨ c.toNat = 0x2029 then
    hexEscape c.toNat
  else ofChar c

/-- A glyph of a string. A stray byte is written as the escape of the replacement character. -/
def escapedGlyph : Glyph → Text
  | .char c => escaped c
  | .stray _ => "\\ufffd"

/-- A text as a JSON string. -/
def string (t : Text) : Text := "\"" ++ (glyphs t).flatMap escapedGlyph ++ "\""

/-- The forms of a document: on one line, or with two blanks for each level. -/
inductive Layout where
  | compact
  | indented
  deriving DecidableEq, Repr

/-- A line break in front of something at a level. -/
def Layout.break (l : Layout) (level : Nat) : Text :=
  match l with
  | .compact => []
  | .indented => "\n" ++ replicate (2 * level) 32

/-- Items between a pair of brackets. Nothing stands between them if there are none. -/
def Layout.bracket (l : Layout) (level : Nat) (start stop : Text) (items : List Text) : Text :=
  if items.isEmpty then start ++ stop
  else
    start ++ l.break (level + 1) ++ join ("," ++ l.break (level + 1)) items ++ l.break level ++ stop

/-- A key with its value. -/
def Layout.pair (l : Layout) (key value : Text) : Text :=
  match l with
  | .compact => string key ++ ":" ++ value
  | .indented => string key ++ ": " ++ value

mutual

/-- A value at a level. -/
def write (l : Layout) (level : Nat) : Value → Except Error Text
  | .null => .ok "null"
  | .bool b => .ok (if b then "true" else "false")
  | .int n => .ok (ofInt n)
  | .float d => if d.isFinite then .ok (d.render Double.json) else .error (.unsupportedNumber d)
  | .time t => if t.offsetIsStrict then .ok (string t.render) else .error .unsupportedOffset
  | .text t => .ok (string t)
  | .list items => do return l.bracket level "[" "]" (← writeItems l (level + 1) items)
  | .map general entries =>
    if general then .error .unsupportedMap
    else do
      let sorted := (writeEntries l (level + 1) entries).mergeSort fun a b => Text.le a.1 b.1
      let pairs ← sorted.mapM fun p => do return l.pair p.1 (← p.2)
      return l.bracket level "\x7b" "\x7d" pairs
  | .record fields => do
    return l.bracket level "\x7b" "\x7d" (← writeFields l (level + 1) fields)

def writeItems (l : Layout) (level : Nat) : List Value → Except Error (List Text)
  | [] => .ok []
  | v :: rest => do
    let first ← write l level v
    return first :: (← writeItems l level rest)

def writeEntries (l : Layout) (level : Nat) :
    List (Value × Value) → List (Text × Except Error Text)
  | [] => []
  | (k, v) :: rest =>
    let key : Text := match k with
      | .text t => t
      | _ => []
    (key, write l level v) :: writeEntries l level rest

def writeFields (l : Layout) (level : Nat) : List (Text × Value) → Except Error (List Text)
  | [] => .ok []
  | (k, v) :: rest => do
    let first ← write l level v
    return l.pair k first :: (← writeFields l level rest)

end

/-- A value on one line. -/
def compact (v : Value) : Except Error Text := write .compact 0 v

/-- A value over several lines. -/
def indented (v : Value) : Except Error Text := write .indented 0 v

end RecordSchema.Json
