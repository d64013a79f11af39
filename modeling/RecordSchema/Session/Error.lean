import RecordSchema.Program.Load
import RecordSchema.Report.Format
import RecordSchema.Store.Output

/-!
# How sessions end
-/

namespace RecordSchema

open Text

/-- The outcome of a session. -/
inductive Outcome where
  | ok
  | malformed
  | permission
  | tagConflict
  | unresolvedType
  | cyclic
  | importCycle
  | unwritten
  | other
  deriving DecidableEq, Repr

namespace Outcome

def name : Outcome → Text
  | ok => "ok"
  | malformed => "syntax"
  | permission => "permission"
  | tagConflict => "tag_conflict"
  | unresolvedType => "unresolved_type"
  | cyclic => "cyclic_dependency"
  | importCycle => "import_cycle"
  | unwritten => "io"
  | other => "error"

end Outcome

/-- Why a session fails. -/
inductive SessionError where
  | format (cause : RegistryError)
  | load (cause : LoadError)
  | schema (cause : SchemaError)
  /-- A bundle that a format cannot show. -/
  | unshown (format : Format) (cause : Json.Error)
  | store (path : Text) (cause : OutputError)
  deriving Repr

def SchemaError.outcome : SchemaError → Outcome
  | .malformed _ _ => .malformed
  | .permission _ _ _ => .permission
  | .tagConflict _ _ _ _ => .tagConflict
  | .unresolvedType _ _ => .unresolvedType
  | .cyclic _ => .cyclic
  | .importCycle _ => .importCycle

/-- An error behind imports counts as what it is. -/
def LoadError.outcome : LoadError → Outcome
  | .schema cause => cause.outcome
  | .unread _ _ => .other
  | .imported _ _ cause => cause.outcome

namespace SessionError

def message : SessionError → Text
  | format cause => cause.message
  | load cause => cause.message
  | schema cause => cause.message
  | unshown f cause => "format " ++ f.name ++ ": " ++ cause.message
  | store path cause => "write " ++ path ++ ": " ++ cause.message

def outcome : SessionError → Outcome
  | format _ => .other
  | load cause => cause.outcome
  | schema cause => cause.outcome
  | unshown _ _ => .other
  | store _ _ => .unwritten

end SessionError

end RecordSchema
