import RecordSchema.Number.Integer

/-!
# Double precision numbers

A double is given by its 64 bits: a sign, eleven bits of exponent and fifty-two of fraction. Numbers
are made from exact ratios by rounding to the nearest double, halves to the even one, in integer
arithmetic throughout.
-/

namespace RecordSchema

/-- A binary floating point number of 64 bits. -/
structure Double where
  bits : UInt64
  deriving DecidableEq, Repr

namespace Double

def infinity : Double := ⟨0x7FF0000000000000⟩

def negInfinity : Double := ⟨0xFFF0000000000000⟩

def nan : Double := ⟨0x7FF8000000000001⟩

def isNegative (d : Double) : Bool := 0x8000000000000000 ≤ d.bits

/-- The bits without the sign. -/
def magnitude (d : Double) : Nat := d.bits.toNat % Nat.pow 2 63

def isNaN (d : Double) : Bool := decide (0x7FF0000000000000 < d.magnitude)

def isInfinite (d : Double) : Bool := d.magnitude == 0x7FF0000000000000

def isFinite (d : Double) : Bool := decide (d.magnitude < 0x7FF0000000000000)

def neg (d : Double) : Double := ⟨d.bits ^^^ 0x8000000000000000⟩

/-- The significand `m` and the exponent `q` of the value `m * 2 ^ q` of a finite double. -/
def decode (d : Double) : Nat × Int :=
  let e : Nat := d.magnitude / Nat.pow 2 52
  let f : Nat := d.magnitude % Nat.pow 2 52
  if e = 0 then (f, -1074) else (f + Nat.pow 2 52, (e : Int) - 1075)

/-- The position of a double among all doubles but the NaNs, the two zeros at the same place. -/
def rank (d : Double) : Int := if d.isNegative then -(d.magnitude : Int) else d.magnitude

/-- Whether `a` is less than `b`; false when either is not a number. -/
def lt (a b : Double) : Bool := !a.isNaN && !b.isNaN && decide (a.rank < b.rank)

/-- `n / d` rounded to the nearest integer, a half to the even one. -/
def roundRatio (n d : Nat) : Nat :=
  let q := n / d
  let r := n % d
  if d < 2 * r ∨ (2 * r = d ∧ q % 2 = 1) then q + 1 else q

/-- `num / den * 2 ^ (-e)` as a ratio. -/
def scale (num den : Nat) (e : Int) : Nat × Nat :=
  if 0 ≤ e then (num, den * Nat.pow 2 e.toNat) else (num * Nat.pow 2 (-e).toNat, den)

/-- The double nearest to the positive ratio `num / den`, which may be the infinity. -/
def ofRatio (num den : Nat) : Double :=
  if num = 0 then ⟨0⟩
  else
    let guess : Int := (Nat.log2 num : Int) - Nat.log2 den - 53
    let (n, d) := scale num den guess
    let exact : Int := if Nat.pow 2 53 ≤ n / d then guess + 1 else guess
    let e : Int := max exact (-1074)
    let (n, d) := scale num den e
    let q := roundRatio n d
    let (q, e) := if q = Nat.pow 2 53 then (Nat.pow 2 52, e + 1) else (q, e)
    if 971 < e then infinity
    else if q < Nat.pow 2 52 then ⟨q.toUInt64⟩
    else ⟨((e + 1075).toNat * Nat.pow 2 52 + (q - Nat.pow 2 52)).toUInt64⟩

/-- The double nearest to an integer. -/
def ofInt (n : Int) : Double :=
  if n < 0 then neg (ofRatio n.natAbs 1) else ofRatio n.natAbs 1

/-- The double nearest to `digits * 10 ^ exponent`, which may be the infinity. Exponents far outside
the range of doubles are settled by the number of digits alone. -/
def ofDecimal (digits : Nat) (exponent : Int) : Double :=
  if digits = 0 then ⟨0⟩
  else
    let places : Int := (Nat.log2 digits : Int) / 4 + exponent
    if 400 < places then infinity
    else if places + (Nat.log2 digits : Int) < -400 then ⟨0⟩
    else if 0 ≤ exponent then ofRatio (digits * Nat.pow 10 exponent.toNat) 1
    else ofRatio digits (Nat.pow 10 (-exponent).toNat)

/-- The product of two finite doubles that are not negative, rounded to nearest. -/
def mul (a b : Double) : Double :=
  let (m, q) := a.decode
  let (n, r) := b.decode
  let e := q + r
  if 0 ≤ e then ofRatio (m * n * Nat.pow 2 e.toNat) 1
  else ofRatio (m * n) (Nat.pow 2 (-e).toNat)

/-- The double nearest to a ratio of integers, the second positive. -/
def ofSignedRatio (num : Int) (den : Nat) : Double :=
  if num < 0 then neg (ofRatio num.natAbs den) else ofRatio num.natAbs den

/-- The sum of two finite doubles rounded to nearest. A sum of zero is positive. -/
def add (a b : Double) : Double :=
  let (m, q) := a.decode
  let (n, r) := b.decode
  let e := min q r
  let m : Int := m * Nat.pow 2 (q - e).toNat
  let n : Int := n * Nat.pow 2 (r - e).toNat
  let total := (if a.isNegative then -m else m) + (if b.isNegative then -n else n)
  if 0 ≤ e then ofSignedRatio (total * Nat.pow 2 e.toNat) 1
  else ofSignedRatio total (Nat.pow 2 (-e).toNat)

/-- The integer part of a finite double. -/
def truncate (d : Double) : Int :=
  let (m, q) := d.decode
  let n : Nat := if 0 ≤ q then m * Nat.pow 2 q.toNat else m / Nat.pow 2 (-q).toNat
  if d.isNegative then -(n : Int) else n

end Double

end RecordSchema
