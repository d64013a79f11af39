import RecordSchema.Text.Basic

/-!
# Slash-separated paths

A path is cleaned by reading its components from left to right: empty components and `.` are
dropped, and `..` takes away the component before it, or stays at the front of a path that does not
start at the root.
-/

namespace RecordSchema.Text

namespace Path

/-- The byte between two components. -/
def slash : UInt8 := 47

def dot : Text := [46]

def dotdot : Text := [46, 46]

def isRooted : Text → Bool
  | b :: _ => b == slash
  | [] => false

/-- One more component after those of `kept`, the last of which comes first. -/
def push (rooted : Bool) (kept : List Text) (part : Text) : List Text :=
  if part = [] ∨ part = dot then kept
  else if part = dotdot then
    match kept with
    | last :: before => if last = dotdot then dotdot :: kept else before
    | [] => if rooted then [] else [dotdot]
  else part :: kept

/-- The components of the cleaned path. -/
def components (p : Text) : List Text :=
  ((splitOn slash p).foldl (push (isRooted p)) []).reverse

/-- The path with the given components; the empty relative path is written `.`. -/
def ofComponents (rooted : Bool) (parts : List Text) : Text :=
  if rooted then slash :: join [slash] parts
  else if parts = [] then dot
  else join [slash] parts

/-- The shortest path with the same components as `p`. -/
def clean (p : Text) : Text := ofComponents (isRooted p) (components p)

/-- The cleaned path through all the non-empty parts, or nothing when there are none. -/
def joined (parts : List Text) : Text :=
  match parts.filter (· ≠ []) with
  | [] => []
  | parts => clean (join [slash] parts)

/-- What stands up to the last slash, cleaned. -/
def dir (p : Text) : Text :=
  match cutLast? slash p with
  | some (before, _) => clean (before ++ [slash])
  | none => dot

/-- The last component of a path as it is written. -/
def base (p : Text) : Text :=
  if p = [] then dot
  else
    let stripped := (p.reverse.dropWhile (· == slash)).reverse
    if stripped = [] then [slash]
    else
      match cutLast? slash stripped with
      | some (_, last) => last
      | none => stripped

/-- The part of the last component from its last dot on. -/
def extension (p : Text) : Text :=
  let last := match cutLast? slash p with
    | some (_, last) => last
    | none => p
  match cutLast? 46 last with
  | some (_, tail) => 46 :: tail
  | none => []

end Path

end RecordSchema.Text
