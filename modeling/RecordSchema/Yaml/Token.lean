import RecordSchema.Yaml.Problem

/-!
# Tokens

The tokens of a stream, each with the marks at its two ends. Indentation shows as the start and end
of block collections.
-/

namespace RecordSchema.Yaml

/-- How a scalar is written. -/
inductive ScalarStyle where
  | plain
  | singleQuoted
  | doubleQuoted
  | literal
  | folded
  deriving DecidableEq, Repr

inductive Token.Kind where
  | streamStart
  | streamEnd
  | version (major minor : Nat)
  | tagPrefix (handle address : Text)
  | documentStart
  | documentEnd
  | blockSequenceStart
  | blockMappingStart
  | blockEnd
  | flowSequenceStart
  | flowSequenceEnd
  | flowMappingStart
  | flowMappingEnd
  | blockEntry
  | flowEntry
  | key
  | value
  | reference (name : Text)
  | anchor (name : Text)
  | tag (handle suffix : Text)
  | scalar (value : Text) (style : ScalarStyle)
  deriving DecidableEq, Repr

structure Token where
  kind : Token.Kind
  start : Mark
  stop : Mark
  deriving DecidableEq, Repr

end RecordSchema.Yaml
