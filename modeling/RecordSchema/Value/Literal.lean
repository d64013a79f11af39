import RecordSchema.Number.Notation
import RecordSchema.Sorting
import RecordSchema.Text.Quoted
import RecordSchema.Value.Basic

/-!
# Values in messages

A message that refuses a value shows it with its type: a list or a map opens with its type, texts
are quoted, and numbers that need the unsigned range are in hexadecimal. A map is shown in the order
of its keys, as far as that tells them apart: `Tells` says all that a message may show.
-/

namespace RecordSchema

open Text

namespace Value

def monthNames : List Text :=
  ["January", "February", "March", "April", "May", "June", "July", "August", "September", "October",
    "November", "December"]

def literalTime (t : Timestamp) : Text :=
  let zone : Text := if t.offset = 0 then "UTC" else "Location(\"\")"
  "time.Date(" ++ join ", "
    [ofNat t.year, "time." ++ monthNames.getD (t.month - 1) [], ofNat t.day, ofNat t.hour,
      ofNat t.minute, ofNat t.second, ofNat t.nano, "time." ++ zone] ++ ")"

/-- The rank of the kinds of keys in a message. -/
def kindRank : Value → Nat
  | null => 0
  | bool _ => 1
  | float _ => 2
  | int n => if Number.fitsInt64 n then 3 else 5
  | text _ => 4
  | time _ => 6
  | _ => 7

/-- Whether a message may show a key in front of another: by kind, and then by value. What is no
number comes before the numbers, and a time goes by its fraction first. -/
def shownBefore (a b : Value) : Bool :=
  match a, b with
  | bool x, bool y => !x || y
  | float x, float y => x.isNaN || (!y.isNaN && decide (x.rank ≤ y.rank))
  | text x, text y => Text.le x y
  | time x, time y => x.nano < y.nano || (x.nano == y.nano && decide (x.seconds ≤ y.seconds))
  | int x, int y => decide (x ≤ y)
  | _, _ => kindRank a ≤ kindRank b

def literalList (parts : List Text) : Text :=
  "[]interface \x7b\x7d\x7b" ++ join ", " parts ++ "\x7d"

def literalMap (general : Bool) (parts : List Text) : Text :=
  let key : Text := if general then "interface \x7b\x7d" else "string"
  "map[" ++ key ++ "]interface \x7b\x7d\x7b" ++ join ", " parts ++ "\x7d"

def literalRecord (parts : List Text) : Text := "\x7b" ++ join ", " parts ++ "\x7d"

mutual

/-- A value as a message shows it. -/
def literal : Value → Text
  | null => "interface \x7b\x7d(nil)"
  | bool b => if b then "true" else "false"
  | int n =>
    if Number.fitsInt64 n then ofInt n
    else "0x" ++ ofString (String.ofList (Nat.toDigits 16 n.toNat))
  | float d => d.render Double.general
  | time t => literalTime t
  | text t => quoted t
  | list items => literalList (literals items)
  | map general entries =>
    literalMap general
      (((literalEntries entries).mergeSort fun a b => shownBefore a.1 b.1).map Prod.snd)
  | record fields => literalRecord (literalFields fields)

def literals : List Value → List Text
  | [] => []
  | v :: rest => literal v :: literals rest

def literalEntries : List (Value × Value) → List (Value × Text)
  | [] => []
  | (k, v) :: rest => (k, literal k ++ ":" ++ literal v) :: literalEntries rest

def literalFields : List (Text × Value) → List Text
  | [] => []
  | (k, v) :: rest => (k ++ ":" ++ literal v) :: literalFields rest

end

/-- An entry of a map whose value is shown as `text`. -/
def literalEntry (e : Value × Value) (text : Text) : Text := e.1.literal ++ ":" ++ text

/-- A field of a record whose value is shown as `text`. -/
def literalField (f : Text × Value) (text : Text) : Text := f.1 ++ ":" ++ text

/-- What a message may show for a value. The keys of a map hold no other values. -/
inductive Tells : Value → Text → Prop where
  | list {items : List Value} {parts : List Text} (hlength : parts.length = items.length)
      (h : ∀ p ∈ items.zip parts, Tells p.1 p.2) : Tells (list items) (literalList parts)
  | map {general : Bool} {entries sorted : List (Value × Value)} {parts : List Text}
      (hsorted : Sorting.Sorts (fun a b => !shownBefore b.1 a.1) entries sorted)
      (hlength : parts.length = sorted.length) (h : ∀ p ∈ sorted.zip parts, Tells p.1.2 p.2) :
      Tells (map general entries) (literalMap general (sorted.zipWith literalEntry parts))
  | record {fields : List (Text × Value)} {parts : List Text}
      (hlength : parts.length = fields.length) (h : ∀ p ∈ fields.zip parts, Tells p.1.2 p.2) :
      Tells (record fields) (literalRecord (fields.zipWith literalField parts))
  | scalar {v : Value} (h : v.isCollection = false) : Tells v v.literal

end Value

end RecordSchema
