import RecordSchema.Text.Blank
import RecordSchema.Text.Quoted

/-!
# Keys of definitions

A definition is introduced by a key of two words, its kind and its name. Names are identifiers, but
an import may have any name, or none at all.
-/

namespace RecordSchema

open Text

/-- The kinds of definitions. -/
inductive Keyword where
  | imports
  | constant
  | attributeClass
  | enum
  | bitmask
  | object
  | database
  deriving DecidableEq, Repr

namespace Keyword

/-- Every kind, in documentation order. -/
def all : List Keyword :=
  [.imports, .constant, .attributeClass, .enum, .bitmask, .object, .database]

def name : Keyword → Text
  | .imports => "Import"
  | .constant => "Constant"
  | .attributeClass => "Class"
  | .enum => "Enum"
  | .bitmask => "Bitmask"
  | .object => "Object"
  | .database => "Database"

def ofText? (t : Text) : Option Keyword := all.find? fun k => k.name == t

theorem mem_all (k : Keyword) : k ∈ all := by cases k <;> decide

end Keyword

/-- The letters of identifiers. -/
def isIdentifierLetter (b : UInt8) : Bool := (97 ≤ b && b ≤ 122) || (65 ≤ b && b ≤ 90)

def isIdentifierStart (b : UInt8) : Bool := isIdentifierLetter b || b == 95

def isIdentifierRest (b : UInt8) : Bool := isIdentifierStart b || (48 ≤ b && b ≤ 57)

/-- A letter or an underscore, followed by letters, digits and underscores. -/
def isIdentifier : Text → Bool
  | [] => false
  | b :: rest => isIdentifierStart b && rest.all isIdentifierRest

/-- The kind and the name that a definition's key gives. -/
structure Key where
  keyword : Keyword
  name : Text
  deriving DecidableEq, Repr

/-- Why a text is no key of a definition. -/
inductive KeyError where
  | notTwoWords
  | unknownKeyword (word : Text)
  | notIdentifier (keyword : Keyword) (name : Text)
  deriving DecidableEq, Repr

namespace KeyError

def keywordList : Text := join ", " (Keyword.all.map Keyword.name)

def message : KeyError → Text
  | notTwoWords => "expected \"<Keyword> <Name>\" with Keyword one of " ++ keywordList
  | unknownKeyword word =>
    "unknown keyword " ++ quoted word ++ ": expected one of " ++ keywordList
  | notIdentifier keyword name =>
    keyword.name ++ " name " ++ quoted name ++ " is not a valid identifier"

end KeyError

namespace Key

/-- Reads the words of a key. The single word of an import is also its name. -/
def ofWords : List Text → Except KeyError Key
  | [word] =>
    if word = Keyword.imports.name then .ok ⟨.imports, word⟩ else .error .notTwoWords
  | [word, name] =>
    match Keyword.ofText? word with
    | none => .error (.unknownKeyword word)
    | some k =>
      if k = .imports ∨ isIdentifier name then .ok ⟨k, name⟩ else .error (.notIdentifier k name)
  | _ => .error .notTwoWords

def parse (t : Text) : Except KeyError Key := ofWords (words t)

/-- The key as locations name it. -/
def title (k : Key) : Text := k.keyword.name ++ " " ++ k.name

end Key

end RecordSchema
