import RecordSchema.Number.Double
import RecordSchema.Time.Timestamp

/-!
# Values

The values that a document may give as a default and that descriptors are written as. A map lists
its entries in the order of first insertion, which has no meaning: it is written in the order of its
keys. A record is written in the order of its fields.
-/

namespace RecordSchema

inductive Value where
  | null
  | bool (b : Bool)
  | int (n : Int)
  | float (d : Double)
  | time (t : Timestamp)
  | text (t : Text)
  | list (items : List Value)
  /-- A map; `general` when its keys need not be texts. -/
  | map (general : Bool) (entries : List (Value × Value))
  | record (fields : List (Text × Value))
  deriving Repr, Inhabited

namespace Value

/-- Whether two keys of a map are the same. Numbers of different kinds differ, and so does a number
that is not one from itself. Times are the same in the same zone only. -/
def sameKey : Value → Value → Bool
  | null, null => true
  | bool a, bool b => a == b
  | int a, int b => a == b
  | float a, float b => !a.isNaN && !b.isNaN && a.rank == b.rank
  | time a, time b => a == b && a.zoneIsShared
  | text a, text b => a == b
  | _, _ => false

/-- The entries with the value of `key` set. The key is set too: zeros of both signs are one key. -/
def setEntry (key value : Value) : List (Value × Value) → List (Value × Value)
  | [] => [(key, value)]
  | (k, v) :: rest =>
    if sameKey k key then (key, value) :: rest else (k, v) :: setEntry key value rest

/-- Whether a value holds other values. -/
def isCollection : Value → Bool
  | list _ => true
  | map _ _ => true
  | record _ => true
  | _ => false

mutual

/-- The value with the entries of all its maps listed backwards. -/
def reversed : Value → Value
  | list items => list (reversedItems items)
  | map general entries => map general (reversedEntries entries).reverse
  | record fields => record (reversedFields fields)
  | v => v

def reversedItems : List Value → List Value
  | [] => []
  | v :: rest => reversed v :: reversedItems rest

def reversedEntries : List (Value × Value) → List (Value × Value)
  | [] => []
  | (k, v) :: rest => (k, reversed v) :: reversedEntries rest

def reversedFields : List (Text × Value) → List (Text × Value)
  | [] => []
  | (k, v) :: rest => (k, reversed v) :: reversedFields rest

end

end Value

end RecordSchema
