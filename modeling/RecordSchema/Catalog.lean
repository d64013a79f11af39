import RecordSchema.Number.Integer
import RecordSchema.Text.Blank
import RecordSchema.Text.LetterCase

/-!
# Built-in types

The wire categories that fields fall into, and the atomic types with the storage they take.
-/

namespace RecordSchema

open Text

/-- The wire-level class of a field. -/
inductive Category where
  | signed
  | unsigned
  | float
  | bool
  | string
  | bytes
  | enum
  | bitmask
  | object
  deriving DecidableEq, Repr

namespace Category

/-- Every category, by ascending code. -/
def all : List Category :=
  [.signed, .unsigned, .float, .bool, .string, .bytes, .enum, .bitmask, .object]

/-- The number of a category, counted from one. -/
def code : Category → Nat
  | .signed => 1
  | .unsigned => 2
  | .float => 3
  | .bool => 4
  | .string => 5
  | .bytes => 6
  | .enum => 7
  | .bitmask => 8
  | .object => 9

def name : Category → Text
  | .signed => "SIGNED"
  | .unsigned => "UNSIGNED"
  | .float => "FLOAT"
  | .bool => "BOOL"
  | .string => "STRING"
  | .bytes => "BYTES"
  | .enum => "ENUM"
  | .bitmask => "BITMASK"
  | .object => "OBJECT"

def ofCode? (n : Int) : Option Category := all.find? fun c => (c.code : Int) == n

/-- The name of the category with a code, also where there is none. -/
def nameOfCode (n : Int) : Text :=
  match ofCode? n with
  | some c => c.name
  | none => "Category(" ++ ofInt n ++ ")"

/-- A category by its name in either case. -/
def ofText? (t : Text) : Option Category :=
  let upper := toUpper (trim t)
  all.find? fun c => c.name == upper

/-- Whether bounds make sense for the category. -/
def isNumeric : Category → Bool
  | .signed => true
  | .unsigned => true
  | .float => true
  | _ => false

end Category

/-- A built-in type. -/
structure Atomic where
  /-- The name in schemas. -/
  name : Text
  /-- The type in which storage is declared. -/
  storage : Text
  category : Category
  /-- Bytes taken. -/
  size : Nat
  /-- The natural alignment. -/
  align : Nat
  deriving DecidableEq, Repr

namespace Atomic

/-- The identifier type, in which every object carries its identity. -/
def identifier : Atomic := ⟨"id", "jude_id_t", .unsigned, 8, 8⟩

/-- Every built-in type, in the order of names. -/
def all : List Atomic :=
  [⟨"bool", "bool", .bool, 1, 1⟩,
    ⟨"char", "char", .unsigned, 1, 1⟩,
    ⟨"double", "double", .float, 8, 8⟩,
    ⟨"float", "float", .float, 4, 4⟩,
    ⟨"i16", "int16_t", .signed, 2, 2⟩,
    ⟨"i32", "int32_t", .signed, 4, 4⟩,
    ⟨"i64", "int64_t", .signed, 8, 8⟩,
    ⟨"i8", "int8_t", .signed, 1, 1⟩,
    identifier,
    ⟨"u16", "uint16_t", .unsigned, 2, 2⟩,
    ⟨"u32", "uint32_t", .unsigned, 4, 4⟩,
    ⟨"u64", "uint64_t", .unsigned, 8, 8⟩,
    ⟨"u8", "uint8_t", .unsigned, 1, 1⟩]

def ofText? (t : Text) : Option Atomic := all.find? fun a => a.name == t

end Atomic

/-- Bytes of the counter in front of repeated members, and of the length of a bytes value. -/
def countSize : Nat := 2

/-- Bytes of an enum value. -/
def enumSize : Nat := 4

/-- Bytes that hold the bits up to the highest one. -/
def bitmaskSize (highest : Int) : Nat :=
  if highest < 8 then 1 else if highest < 16 then 2 else if highest < 32 then 4 else 8

end RecordSchema
