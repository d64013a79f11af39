import RecordSchema.Browser.Target

/-!
# Routes

What a request can ask for.
-/

namespace RecordSchema

open Text

inductive Route where
  | health
  | bundle
  | objects
  | object (name : Text)
  | enum (name : Text)
  | bitmask (name : Text)
  | database (name : Text)
  | metrics
  deriving DecidableEq, Repr

namespace Route

/-- The route of a path. Names are single segments that are not empty. -/
def ofPath? (path : Text) : Option Route :=
  match splitOn 47 path with
  | [[], first] =>
    if first = "health" then some .health
    else if first = "bundle" then some .bundle
    else if first = "objects" then some .objects
    else if first = "metrics" then some .metrics
    else none
  | [[], first, name] =>
    if name.isEmpty then none
    else if first = "objects" then some (.object name)
    else if first = "enums" then some (.enum name)
    else if first = "bitmasks" then some (.bitmask name)
    else if first = "databases" then some (.database name)
    else none
  | _ => none

/-- The methods of requests that are known at all. -/
def methods : List Text :=
  ["CONNECT", "DELETE", "GET", "HEAD", "OPTIONS", "PATCH", "POST", "PUT", "TRACE"]

/-- Whether a route takes a method. Everything but the metrics can only be got. -/
def takes (r : Route) (method : Text) : Bool := r == .metrics || method == ofString "GET"

end Route

end RecordSchema
