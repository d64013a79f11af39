import RecordSchema.Text.Basic

/-!
# Edit distance

The least number of bytes to insert, remove or replace to get from one text to another.
-/

namespace RecordSchema.Text

/-- The distances to the longer and longer starts of a text after one more byte on the other side,
from those before. `diagonal` and `left` are the neighbours of the next one. -/
def distanceRow (a : UInt8) : (diagonal left : Nat) → List Nat → Text → List Nat
  | diagonal, left, up :: ups, b :: bs =>
    let d := if a = b then diagonal else min up (min left diagonal) + 1
    d :: distanceRow a up d ups bs
  | _, _, _, _ => []

def distance (s t : Text) : Nat :=
  let rows := s.foldl (fun row a =>
    match row with
    | first :: rest => (first + 1) :: distanceRow a first (first + 1) rest t
    | [] => []) (List.range (t.length + 1))
  rows.getLastD 0

end RecordSchema.Text
