import RecordSchema.Number.Integer

/-!
# Access levels

Permissions are levels, from the least to the most restricted, and a declaration sets them verb by
verb.
-/

namespace RecordSchema

open Text

/-- An access level. -/
inductive Level where
  | everyone
  | admin
  | root
  deriving DecidableEq, Repr

namespace Level

/-- Every level, the least restricted first. -/
def all : List Level := [.everyone, .admin, .root]

def name : Level → Text
  | .everyone => "Public"
  | .admin => "Admin"
  | .root => "Root"

/-- A level by its exact name. -/
def ofText? (t : Text) : Option Level := all.find? fun l => l.name == t

/-- How restricted a level is. -/
def rank : Level → Nat
  | .everyone => 0
  | .admin => 1
  | .root => 2

def ofRank? (n : Int) : Option Level := all.find? fun l => (l.rank : Int) == n

/-- The name of the level of a rank, also where there is none. -/
def nameOfRank (n : Int) : Text :=
  match ofRank? n with
  | some l => l.name
  | none => "Level(" ++ ofInt n ++ ")"

end Level

/-- What a permission is about. -/
inductive Verb where
  | read
  | write
  | create
  | update
  | delete
  deriving DecidableEq, Repr

namespace Verb

/-- Every verb, in the order in which levels are checked. -/
def all : List Verb := [.read, .write, .create, .update, .delete]

def name : Verb → Text
  | .read => "read"
  | .write => "write"
  | .create => "create"
  | .update => "update"
  | .delete => "delete"

def ofText? (t : Text) : Option Verb := all.find? fun v => v.name == t

end Verb

end RecordSchema
