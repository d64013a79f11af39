import RecordSchema.Catalog
import RecordSchema.Schema.Level
import RecordSchema.Value.Basic

/-!
# Resolved definitions

Every name is replaced by what it stands for: a type by its category and the key of its definition,
a permission by a level, a bound by a number.
-/

namespace RecordSchema

open Text

/-- A field of an object. -/
structure Field where
  name : Text
  /-- The wire tag. -/
  tag : Int
  category : Category
  /-- The declared type without its size. -/
  typeName : Text
  /-- The key of the enum, bitmask or object that the type names; nothing for the other types. -/
  typeKey : Text := []
  /-- The greatest length of a string or bytes value. -/
  maxSize : Nat := 0
  /-- The length of a repeated field, zero for a single one. -/
  bound : Nat := 0
  isIdentifier : Bool := false
  isAction : Bool := false
  persist : Bool := true
  alwaysNotify : Bool := false
  read : Level := .everyone
  write : Level := .everyone
  min : Option Double := none
  max : Option Double := none
  description : Text := []
  aliasName : Text := []
  default : Option Value := none
  /-- Where the field is declared, zero for an identifier that is not. -/
  line : Nat := 0
  deriving Repr

namespace Field

def isRepeated (f : Field) : Bool := decide (0 < f.bound)

/-- The name of the identifier field. -/
def identifierName : Text := "id"

/-- The tag of the identifier field. -/
def identifierTag : Int := 1000

/-- The identifier of an object that declares none. -/
def implicitIdentifier : Field :=
  { name := identifierName, tag := identifierTag, category := .unsigned,
    typeName := Atomic.identifier.name, isIdentifier := true, persist := false, read := .root,
    write := .root }

end Field

/-- The name of a definition qualified by that of its schema. -/
def qualified (origin name : Text) : Text := origin ++ "." ++ name

structure Object where
  name : Text
  origin : Text
  document : Text
  line : Nat
  identifier : Field
  /-- The other fields by ascending tag. -/
  ordered : List Field
  /-- The keys of the enums, bitmasks and objects that the fields refer to, in order. -/
  dependencies : List Text
  deriving Repr

namespace Object

def key (o : Object) : Text := qualified o.origin o.name

/-- The identifier and then the other fields. -/
def fields (o : Object) : List Field := o.identifier :: o.ordered

/-- The field of a name. -/
def field? (o : Object) (name : Text) : Option Field := o.fields.find? fun f => f.name == name

end Object

/-- The stages that an object passes through while it is resolved. -/
inductive Stage where
  | unresolved
  | fieldsParsed
  | tagsAllocated
  | typesResolved
  | finalized
  deriving DecidableEq, Repr

namespace Stage

def all : List Stage := [.unresolved, .fieldsParsed, .tagsAllocated, .typesResolved, .finalized]

def name : Stage → Text
  | .unresolved => "unresolved"
  | .fieldsParsed => "fields parsed"
  | .tagsAllocated => "tags allocated"
  | .typesResolved => "types resolved"
  | .finalized => "finalized"

/-- The name of the stage with a number, counted from zero. -/
def nameOfCode (n : Int) : Text :=
  if n < 0 then "unknown"
  else
    match all[n.toNat]? with
    | some s => s.name
    | none => "unknown"

end Stage

/-- A value of an enum or a bit of a bitmask. -/
structure LabelledValue where
  /-- The label as written. -/
  label : Text
  /-- The identifier for the label. -/
  symbol : Text
  value : Int := 0
  description : Text := []
  deriving DecidableEq, Repr

structure Enumeration where
  name : Text
  origin : Text
  document : Text
  values : List LabelledValue
  deriving DecidableEq, Repr

def Enumeration.key (e : Enumeration) : Text := qualified e.origin e.name

structure Bitmask where
  name : Text
  origin : Text
  document : Text
  /-- The bits by number. -/
  values : List LabelledValue
  /-- One, two, four or eight bytes. -/
  storageSize : Nat
  deriving DecidableEq, Repr

def Bitmask.key (b : Bitmask) : Text := qualified b.origin b.name

/-- What a database entry holds. -/
inductive EntryKind where
  | resource
  | collection
  | subdatabase
  deriving DecidableEq, Repr

namespace EntryKind

def name : EntryKind → Text
  | .resource => "resource"
  | .collection => "collection"
  | .subdatabase => "subdatabase"

/-- The name of the kind with a number, counted from one. -/
def nameOfCode (n : Int) : Text :=
  if n = 1 then EntryKind.resource.name
  else if n = 2 then EntryKind.collection.name
  else if n = 3 then EntryKind.subdatabase.name
  else "unknown"

end EntryKind

structure DatabaseEntry where
  name : Text
  kind : EntryKind
  /-- The declared object or database. -/
  backingType : Text
  backingKey : Text
  /-- The size of a collection, zero otherwise. -/
  bound : Nat := 0
  create : Level
  read : Level
  update : Level
  delete : Level
  description : Text := []
  line : Nat
  deriving DecidableEq, Repr

structure Database where
  name : Text
  origin : Text
  document : Text
  entries : List DatabaseEntry
  deriving DecidableEq, Repr

def Database.key (d : Database) : Text := qualified d.origin d.name

structure Constant where
  name : Text
  origin : Text
  value : Text
  deriving DecidableEq, Repr

/-- A program with all names resolved. -/
structure Model where
  /-- The name of the root document. -/
  schema : Text
  /-- The imports of the root document as written. -/
  imports : List Text
  constants : List Constant
  enums : List Enumeration
  bitmasks : List Bitmask
  objects : List Object
  databases : List Database
  /-- The definitions of all documents, those above are the ones of the root document. -/
  allEnums : List Enumeration
  allBitmasks : List Bitmask
  allObjects : List Object
  deriving Repr

namespace Model

def enum? (m : Model) (key : Text) : Option Enumeration := m.allEnums.find? fun e => e.key == key

def bitmask? (m : Model) (key : Text) : Option Bitmask := m.allBitmasks.find? fun b => b.key == key

def object? (m : Model) (key : Text) : Option Object := m.allObjects.find? fun o => o.key == key

end Model

end RecordSchema
