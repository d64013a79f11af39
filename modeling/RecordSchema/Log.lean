import RecordSchema.Value.Basic

/-!
# Log events

What a session reports about its work, as a message with named values.
-/

namespace RecordSchema

inductive LogLevel where
  | debug
  | info
  | warn
  | error
  deriving DecidableEq, Repr

namespace LogLevel

def name : LogLevel → Text
  | .debug => "debug"
  | .info => "info"
  | .warn => "warn"
  | .error => "error"

end LogLevel

structure LogEvent where
  level : LogLevel
  message : Text
  fields : List (Text × Value)
  deriving Repr

namespace LogEvent

def debug (message : Text) (fields : List (Text × Value)) : LogEvent := ⟨.debug, message, fields⟩

def info (message : Text) (fields : List (Text × Value)) : LogEvent := ⟨.info, message, fields⟩

/-- The event with values in front of its own. -/
def within (fields : List (Text × Value)) (e : LogEvent) : LogEvent :=
  { e with fields := fields ++ e.fields }

end LogEvent

end RecordSchema
