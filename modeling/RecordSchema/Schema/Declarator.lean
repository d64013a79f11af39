import RecordSchema.Schema.Keyword

/-!
# Declarators

The name of a field or of a database entry, with an optional suffix: brackets around the bound of a
repeated declaration, or an empty pair of parentheses for an action.
-/

namespace RecordSchema

open Text

inductive Declarator.Suffix where
  | single
  | action
  /-- The text between the brackets, a number or the name of a constant. -/
  | bound (text : Text)
  deriving DecidableEq, Repr

structure Declarator where
  name : Text
  suffix : Declarator.Suffix
  deriving DecidableEq, Repr

/-- Why a text is no declarator. -/
inductive DeclaratorError where
  | unbalanced (text : Text)
  | actionForm (text : Text)
  | arrayForm (text : Text)
  | emptyLength (text : Text)
  | actionArray (text : Text)
  | notIdentifier (name : Text)
  deriving DecidableEq, Repr

namespace DeclaratorError

def message : DeclaratorError → Text
  | unbalanced text => "unbalanced suffix in " ++ quoted text
  | actionForm text => "action field " ++ quoted text ++ " should be of the form 'name()'"
  | arrayForm text => "array field " ++ quoted text ++ " should be of the form 'name[length]'"
  | emptyLength text => "array field " ++ quoted text ++ " has an empty length"
  | actionArray text => "array field " ++ quoted text ++ " cannot also be an action"
  | notIdentifier name => quoted name ++ " is not a valid identifier"

end DeclaratorError

namespace Declarator

def openBracket : UInt8 := 91
def closeBracket : UInt8 := 93
def openParen : UInt8 := 40
def closeParen : UInt8 := 41

/-- The bound as written, nothing for a declaration that is not repeated. -/
def bound (d : Declarator) : Text :=
  match d.suffix with
  | .bound text => text
  | _ => []

def isRepeated (d : Declarator) : Bool := !d.bound.isEmpty

def isAction (d : Declarator) : Bool := d.suffix == .action

/-- The form without white space. -/
def render (d : Declarator) : Text :=
  match d.suffix with
  | .single => d.name
  | .action => d.name ++ [openParen, closeParen]
  | .bound text => d.name ++ openBracket :: text ++ [closeBracket]

/-- A declarator whose name has to be an identifier. -/
def named (name : Text) (suffix : Suffix) : Except DeclaratorError Declarator :=
  if isIdentifier name then .ok ⟨name, suffix⟩ else .error (.notIdentifier name)

/-- The bound in a suffix that starts with a bracket; `text` is the whole declarator. -/
def boundOf (text suffix : Text) : Except DeclaratorError Text :=
  if !hasSuffix [closeBracket] suffix || suffix.count openBracket ≠ 1 ||
      suffix.count closeBracket ≠ 1 then
    .error (.arrayForm text)
  else
    let bound := trim (suffix.drop 1).dropLast
    if bound = [] then .error (.emptyLength text)
    else if bound.contains openParen || bound.contains closeParen then .error (.actionArray text)
    else .ok bound

/-- Whether a suffix starts with this byte. -/
def opensSuffix (b : UInt8) : Bool := b == openBracket || b == openParen

/-- Reads a declarator without white space at its ends. -/
def ofTrimmed (text : Text) : Except DeclaratorError Declarator :=
  let name := text.takeWhile fun b => !opensSuffix b
  let suffix := text.dropWhile fun b => !opensSuffix b
  match suffix with
  | [] =>
    if text.contains closeBracket || text.contains closeParen then .error (.unbalanced text)
    else named text .single
  | b :: _ =>
    if b = openParen then
      if suffix = [openParen, closeParen] then named (trim name) .action
      else .error (.actionForm text)
    else do
      let bound ← boundOf text suffix
      named (trim name) (.bound bound)

def parse (text : Text) : Except DeclaratorError Declarator := ofTrimmed (trim text)

end Declarator

end RecordSchema
