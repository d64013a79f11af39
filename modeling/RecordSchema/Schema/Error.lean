import RecordSchema.Number.Notation
import RecordSchema.Schema.Attributes
import RecordSchema.Schema.Declarator

/-!
# What can be wrong with a schema

Every error says where it was found and why. The causes are data; their wording is in
`Reason.message` and `SchemaError.message`.
-/

namespace RecordSchema

open Text

/-- Where in a schema a problem was found. Parts that are not known are empty. -/
structure Location where
  document : Text := []
  /-- Counted from one. -/
  line : Nat := 0
  /-- The key of the definition. -/
  entity : Text := []
  /-- The field, entry or label inside the definition. -/
  member : Text := []
  deriving DecidableEq, Repr, Inhabited

namespace Location

/-- The known parts, from the document inwards. -/
def parts (l : Location) : List Text :=
  let document : List Text :=
    if l.document.isEmpty then []
    else if l.line = 0 then [l.document]
    else [l.document ++ ":" ++ ofNat l.line]
  let entity : List Text := if l.entity.isEmpty then [] else [l.entity]
  let member : List Text := if l.member.isEmpty then [] else [quoted l.member]
  document ++ entity ++ member

def render (l : Location) : Text := join ": " l.parts

/-- A message with the location in front, if any part of it is known. -/
def say (l : Location) (message : Text) : Text :=
  if l.render.isEmpty then message else l.render ++ ": " ++ message

end Location

/-- Why a definition is malformed. -/
inductive Reason where
  | yaml (cause : Yaml.SyntaxError)
  | topLevel
  | key (cause : KeyError)
  | definedTwice (key : Key) (line : Nat)
  | importWithoutPath
  | importEntry
  | importShape
  | constantShape
  | bodyShape
  | sharedName (name other : Text)
  | labelsShape
  | notInteger (value : Text)
  | undecodable (cause : Yaml.DecodeError)
  | descriptionNotText
  | unknownAttribute (key : Text)
  | missingValue (key : Text)
  | valueShape (key : Text)
  | bitRange (bit highest : Int)
  | bitTaken (bit : Int) (label : Text)
  | declarator (cause : DeclaratorError)
  | body (cause : BodyError)
  | unknownClass (name : Text)
  | identifierSuffix
  | identifierType (wanted given : Text)
  | missingType
  | objectShape
  | fieldTwice
  | tagNotPositive (tag : Int)
  | noTagLeft
  | unsized (declared base : Text)
  | sizeNotTaken (declared : Text)
  | unknownConstant (what name : Text)
  | notPositive (what text : Text)
  | minAboveMax (min max : Double)
  | databaseShape
  | actionEntry
  | entryTwice
  | containsItself
  | boundedDatabase
  /-- A reason in words. -/
  | stated (text : Text)
  deriving Repr

namespace Reason

def message : Reason → Text
  | yaml cause => "parse yaml: " ++ cause.message
  | topLevel => "top level should be a mapping"
  | key cause => cause.message
  | definedTwice k line => k.title ++ " already defined on line " ++ ofNat line
  | importWithoutPath => "import without a path"
  | importEntry => "import list entries must be paths"
  | importShape => "import should be a path or a list of paths"
  | constantShape => "constant should be a scalar value"
  | bodyShape => "definition body should be a mapping"
  | sharedName name other => "schema name " ++ quoted name ++ " is also used by " ++ other
  | labelsShape => "body should be a mapping of labels to values"
  | notInteger value => "value " ++ quoted value ++ " is not an integer"
  | undecodable cause => cause.message
  | descriptionNotText => "description should be text"
  | unknownAttribute k => "unknown attribute " ++ quoted k
  | missingValue k => "defined as a mapping but no " ++ quoted k ++ " given"
  | valueShape k => "should be an integer or a mapping with " ++ quoted k
  | bitRange bit highest => "bit " ++ ofInt bit ++ " is outside 0.." ++ ofInt highest
  | bitTaken bit label => "bit " ++ ofInt bit ++ " already used by " ++ quoted label
  | declarator cause => cause.message
  | body cause => cause.message
  | unknownClass name => "unknown class " ++ quoted name
  | identifierSuffix => "identifier field cannot be repeated or an action"
  | identifierType wanted given =>
    "identifier field must have type " ++ quoted wanted ++ ", not " ++ quoted given
  | missingType => "missing type"
  | objectShape => "object body should be a mapping of fields"
  | fieldTwice => "field declared twice"
  | tagNotPositive tag => "tag " ++ ofInt tag ++ " should be a number > 0"
  | noTagLeft => "no tag left for field"
  | unsized declared base =>
    "type " ++ quoted declared ++ " should be of the form '" ++ base ++
      ":n' where n is a number > 0"
  | sizeNotTaken declared =>
    "type " ++ quoted declared ++ ": only string and bytes take a size"
  | unknownConstant what name =>
    what ++ " " ++ quoted name ++ " is neither a number nor a known constant"
  | notPositive what text => what ++ " " ++ quoted text ++ " should be a number > 0"
  | minAboveMax min max =>
    "min " ++ min.render Double.general ++ " is greater than max " ++ max.render Double.general
  | databaseShape => "database body should be a mapping of entries"
  | actionEntry => "database entries cannot be actions"
  | entryTwice => "entry declared twice"
  | containsItself => "database cannot contain itself"
  | boundedDatabase => "sub-database entries cannot have a bound"
  | stated text => text

end Reason

/-- An error of a schema. -/
inductive SchemaError where
  /-- A malformed definition. -/
  | malformed (place : Location) (reason : Reason)
  /-- A level other than the three. -/
  | permission (place : Location) (verb value : Text)
  /-- A tag that is reserved, for the reason given, or claimed by several fields. -/
  | tagConflict (place : Location) (tag : Int) (fields : List Text) (reason : Text)
  /-- A type name that nothing defines. -/
  | unresolvedType (place : Location) (type : Text)
  /-- Objects that embed each other. -/
  | cyclic (names : List Text)
  /-- A document that imports itself, with the documents from its first occurrence to the second. -/
  | importCycle (chain : List Text)
  deriving Repr

namespace SchemaError

/-- An error for a cycle through objects of the given names, in order and without repetitions. -/
def cycle (names : List Text) : SchemaError := cyclic (sort names.eraseDups)

def place : SchemaError → Location
  | malformed place _ => place
  | permission place _ _ => place
  | tagConflict place _ _ _ => place
  | unresolvedType place _ => place
  | cyclic _ => {}
  | importCycle _ => {}

def message : SchemaError → Text
  | malformed place reason => place.say reason.message
  | permission place verb value =>
    place.say ("invalid " ++ verb ++ " level " ++ quoted value ++ ": must be one of " ++
      join ", " (Level.all.map Level.name))
  | tagConflict place tag fields reason =>
    if reason.isEmpty then
      place.say ("tag " ++ ofInt tag ++ " is claimed by both " ++
        join " and " (fields.map quoted))
    else place.say ("tag " ++ ofInt tag ++ " " ++ reason)
  | unresolvedType place type => place.say ("unresolved type " ++ quoted type)
  | cyclic names => "cyclic dependency between objects \x7b" ++ join ", " names ++ "\x7d"
  | importCycle chain => "import cycle: " ++ join " -> " chain

end SchemaError

end RecordSchema
