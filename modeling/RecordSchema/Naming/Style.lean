import RecordSchema.Naming.Plural
import RecordSchema.Text.Letter

/-!
# Names in generated code

The identifiers that a backend declares for the objects and fields of a schema.
-/

namespace RecordSchema

open Text

/-- How identifiers are formed. -/
structure Naming where
  /-- Stands after the name of an object in that of its struct. -/
  structSuffix : Text := "_t"
  /-- Stands before the name of a field in that of its member. -/
  memberPrefix : Text := "m_"
  /-- Stands after the name of an accessor class. -/
  objectSuffix : Text := []
  /-- Capitalised accessor titles, and plurals that only add an `s`. -/
  legacy : Bool := false
  deriving DecidableEq, Repr

namespace Naming

def standard : Naming := {}

/-- What older runtimes expect. -/
def older : Naming := { objectSuffix := "Accessor", legacy := true }

def structName (n : Naming) (object : Text) : Text := object ++ n.structSuffix

def member (n : Naming) (field : Text) : Text := n.memberPrefix ++ field

/-- The member that counts the elements of a repeated field. -/
def countMember (n : Naming) (field : Text) : Text := n.member field ++ "_count"

/-- One word of a class name. -/
def titleWord (word : Text) : Text := toUpper (word.take 1) ++ toLower (word.drop 1)

/-- The accessor class of an object: the words between underscores, each with a capital. -/
def className (n : Naming) (object : Text) : Text :=
  ((splitOn 95 object).filter (· ≠ [])).flatMap titleWord ++ n.objectSuffix

/-- The accessor title of a field. -/
def title (n : Naming) (field : Text) : Text :=
  if n.legacy ∧ field ≠ [] then capitalized field else field

def plural (n : Naming) (field : Text) : Text :=
  if n.legacy then simplePlural (n.title field) else pluralize (n.title field)

/-- The identifier for a label: hyphens become underscores, and one stands in front of anything that
does not start with a letter. -/
def symbol (label : Text) : Text :=
  let t := label.map fun b => if b = 45 then 95 else b
  match glyphs t with
  | .char c :: _ => if isLetter c then t else [95] ++ t
  | _ => [95] ++ t

end Naming

end RecordSchema
