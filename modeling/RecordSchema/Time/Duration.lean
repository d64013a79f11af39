import RecordSchema.Number.Integer
import RecordSchema.Number.Double

/-!
# Spans of time

A span is written as a sum of decimal fractions, each with a unit, such as `1h30m` or `1.5s`, and
held as a number of nanoseconds in a word of 64 bits. A fraction of a unit is multiplied out in
doubles, so its last digits may be lost.
-/

namespace RecordSchema

open Text Number

namespace Duration

/-- The nanoseconds of each unit. Microseconds have three spellings. -/
def units : List (Text × Nat) :=
  [("ns", 1), ("us", 1000), ("µs", 1000), ("μs", 1000), ("ms", 1000000),
    ("s", 1000000000), ("m", 60000000000), ("h", 3600000000000)]

/-- The largest magnitude of a span. -/
def limit : Nat := Nat.pow 2 63

private def isFigure (b : UInt8) : Bool := 48 ≤ b && b ≤ 57

private def digitsValue (t : Text) : Nat := t.foldl (fun n b => n * 10 + (b.toNat - 48)) 0

/-- The digits after a point that are taken into account, as a number with their count: no more than
fit the limit. -/
def fraction : Nat → Nat → Text → Nat × Nat
  | value, places, [] => (value, places)
  | value, places, b :: rest =>
    let next := value * 10 + (b.toNat - 48)
    if (limit - 1) / 10 < value ∨ limit < next then (value, places)
    else fraction next (places + 1) rest

/-- The nanoseconds in `value` parts of which `10 ^ places` make up a unit. -/
def ofFraction (value places unit : Nat) : Nat :=
  (Double.mul (Double.ofInt value) (Double.ofRatio unit (Nat.pow 10 places))).truncate.toNat

/-- One decimal fraction with its unit at the front of a text: its nanoseconds and what follows. -/
def term? (t : Text) : Option (Nat × Text) :=
  let whole := t.takeWhile isFigure
  let rest := t.dropWhile isFigure
  let (part, rest) : Text × Text := match rest with
    | 46 :: more => (more.takeWhile isFigure, more.dropWhile isFigure)
    | rest => ([], rest)
  let isUnit (b : UInt8) : Bool := !(isFigure b || b == 46)
  if whole = [] ∧ part = [] then none
  else
    match units.lookup (rest.takeWhile isUnit) with
    | none => none
    | some unit =>
      let v := digitsValue whole
      if limit < v ∨ limit / unit < v then none
      else
        let (f, places) := fraction 0 0 part
        let n := v * unit + (if f = 0 then 0 else ofFraction f places unit)
        if limit < n then none else some (n, rest.dropWhile isUnit)

/-- The sum of the terms of a text, in a word of 64 bits. -/
def sum? : Nat → Nat → Text → Option Nat
  | _, total, [] => some total
  | 0, _, _ => none
  | fuel + 1, total, t => do
    let (n, rest) ← term? t
    let total := (total + n) % Nat.pow 2 64
    if limit < total then none else sum? fuel total rest

/-- The nanoseconds that a text stands for. A lone zero needs no unit. -/
def parse? (t : Text) : Option Int :=
  let (negative, t) : Bool × Text := match t with
    | 45 :: rest => (true, rest)
    | 43 :: rest => (false, rest)
    | t => (false, t)
  if t = [48] then some 0
  else if t = [] then none
  else do
    let n ← sum? t.length 0 t
    if negative then some (-(n : Int))
    else if n < limit then some n
    else none

end Duration

end RecordSchema
