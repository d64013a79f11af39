import RecordSchema.Model.Basic
import RecordSchema.Naming.Style
import RecordSchema.Program.Load

/-!
# Enums and bitmasks

Both are mappings from labels to numbers, or to mappings with a number and a description.
-/

namespace RecordSchema

open Text Yaml

namespace LabelledValue

/-- A scalar that is an integer of 64 bits. -/
def integer (t : Tree) : Except Reason Int :=
  match t.node with
  | .scalar _ tag _ value =>
    if tag = Tag.int then
      match Decode.run t fun _ n => Decode.single Decode.Reading.int64 n with
      | .ok n => .ok (n.getD 0)
      | .error e => .error (.undecodable e)
    else .error (.notInteger value)
  | n => .error (.notInteger n.value)

/-- The attributes of a value in order, where `found` tells whether the number has been given. -/
def attributes (valueKeys : List Text) : List (Tree × Tree) → (found : Bool) → LabelledValue →
    Except Reason (Bool × LabelledValue)
  | [], found, v => .ok (found, v)
  | (k, t) :: rest, found, v =>
    let key := k.node.value
    if key = "description" then
      match t.node with
      | .scalar _ _ _ text => attributes valueKeys rest found { v with description := text }
      | _ => .error .descriptionNotText
    else if valueKeys.contains key then do
      let n ← integer t
      attributes valueKeys rest true { v with value := n }
    else .error (.unknownAttribute key)

/-- The value at a node for a label. `valueKeys` are the names of the number, the first one the one
that messages ask for. -/
def read (valueKeys : List Text) (t : Tree) (v : LabelledValue) : Except Reason LabelledValue :=
  let wanted := valueKeys.headD []
  match t.node with
  | .scalar _ _ _ _ => do return { v with value := ← integer t }
  | .mapping _ _ _ => do
    let (found, v) ← attributes valueKeys (t.pairs?.getD []) false v
    if found then return v else .error (.missingValue wanted)
  | _ => .error (.valueShape wanted)

/-- The values of a definition, in order. -/
def readAll (d : Definition) (valueKeys : List Text) : Except SchemaError (List LabelledValue) :=
  match d.body.pairs? with
  | none => .error (.malformed d.place .labelsShape)
  | some pairs =>
    pairs.mapM fun p =>
      let label := p.1.node.value
      match read valueKeys p.2 { label, symbol := Naming.symbol label } with
      | .ok v => .ok v
      | .error reason =>
        .error (.malformed { d.place with line := p.1.line, member := label } reason)

end LabelledValue

namespace Enumeration

/-- Resolves an enum. -/
def resolve (d : Definition) : Except SchemaError Enumeration := do
  let values ← LabelledValue.readAll d ["value"]
  return { name := d.name, origin := d.origin, document := d.document, values }

end Enumeration

namespace Bitmask

/-- The highest bit of a bitmask. -/
def highestBit : Int := 63

/-- Bits in order, each in range and used once; the answer is the highest. -/
def checkBits (place : Location) : List LabelledValue → (seen : List (Int × Text)) →
    (highest : Int) → Except SchemaError Int
  | [], _, highest => .ok highest
  | v :: rest, seen, highest =>
    let refuse (reason : Reason) : Except SchemaError Int :=
      .error (.malformed { place with member := v.label } reason)
    if v.value < 0 ∨ highestBit < v.value then refuse (.bitRange v.value highestBit)
    else
      match seen.lookup v.value with
      | some other => refuse (.bitTaken v.value other)
      | none => checkBits place rest ((v.value, v.label) :: seen) (max highest v.value)

/-- Resolves a bitmask. -/
def resolve (d : Definition) : Except SchemaError Bitmask := do
  let values ← LabelledValue.readAll d ["bit", "value"]
  let highest ← checkBits d.place values [] 0
  return { name := d.name, origin := d.origin, document := d.document, values,
           storageSize := bitmaskSize highest }

end Bitmask

end RecordSchema
