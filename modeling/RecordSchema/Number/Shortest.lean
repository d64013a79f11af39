import RecordSchema.Number.Double

/-!
# The shortest decimal of a double

A finite positive double is written with the fewest significant digits that read back as the same
double, and among those by the decimal nearest to it. All arithmetic is on integers: a decimal grid
is tried for one digit, two digits and so on, and seventeen digits always suffice.
-/

namespace RecordSchema.Double

/-- The decimal `digits * 10 ^ exponent`. -/
structure Decimal where
  digits : Nat
  exponent : Int
  deriving DecidableEq, Repr

namespace Decimal

/-- The same value without zeros at the end of the digits. -/
def strip (fuel : Nat) (d : Decimal) : Decimal :=
  match fuel with
  | 0 => d
  | fuel + 1 =>
    if d.digits ≠ 0 ∧ d.digits % 10 = 0 then strip fuel ⟨d.digits / 10, d.exponent + 1⟩ else d

end Decimal

/-- The ends of the interval of reals that round to a double, doubled twice, together with the value
itself on the same scale: `(low, value, high)` times `2 ^ (q - 2)`. -/
def interval (m : Nat) (q : Int) : Nat × Nat × Nat :=
  let low := if m = Nat.pow 2 52 ∧ -1074 < q then 4 * m - 1 else 4 * m - 2
  (low, 4 * m, 4 * m + 2)

/-- Whether `x` lies between the ends, which belong to it when `closed`. -/
def within (closed : Bool) (low high x : Nat) : Bool :=
  if closed then decide (low ≤ x ∧ x ≤ high) else decide (low < x ∧ x < high)

/-- The number of decimal digits. -/
def decimalLength (n : Nat) : Nat := (Nat.toDigits 10 n).length

/-- The least exponent `p` with `num / den < 10 ^ p`, for a positive ratio. -/
def decimalTop (num den : Nat) : Int :=
  let guess : Int := (decimalLength num : Int) - decimalLength den
  let below (p : Int) : Bool :=
    if 0 ≤ p then decide (num < den * Nat.pow 10 p.toNat)
    else decide (num * Nat.pow 10 (-p).toNat < den)
  if below guess then guess else guess + 1

/-- The multiple of `10 ^ p` that is chosen for the value if one lies in its interval: the nearer of
the two neighbours, and the even one of two at the same distance. Everything is given over `den`. -/
def onGrid (closed : Bool) (low value high den : Nat) (p : Int) : Option Decimal :=
  let up : Nat := if 0 ≤ p then 1 else Nat.pow 10 (-p).toNat
  let unit : Nat := den * (if 0 ≤ p then Nat.pow 10 p.toNat else 1)
  let k := value * up / unit
  let inside (k : Nat) : Bool := within closed (low * up) (high * up) (k * unit)
  let below := value * up - k * unit
  let above := (k + 1) * unit - value * up
  match inside k && k != 0, inside (k + 1) with
  | true, true =>
    if below < above ∨ (below = above ∧ k % 2 = 0) then some ⟨k, p⟩ else some ⟨k + 1, p⟩
  | true, false => some ⟨k, p⟩
  | false, true => some ⟨k + 1, p⟩
  | false, false => none

/-- The first grid with a decimal in the interval, trying `tries` grids from `10 ^ p` downwards. -/
def search (closed : Bool) (low value high den : Nat) : Nat → Int → Decimal
  | 0, p => ⟨value / den, p⟩
  | tries + 1, p =>
    match onGrid closed low value high den p with
    | some d => d
    | none => search closed low value high den tries (p - 1)

/-- The shortest decimal of the absolute value of a finite double. -/
def shortest (d : Double) : Decimal :=
  let (m, q) := d.decode
  if m = 0 then ⟨0, 0⟩
  else
    let (low, value, high) := interval m q
    let up : Nat := if 0 ≤ q - 2 then Nat.pow 2 (q - 2).toNat else 1
    let den : Nat := if 0 ≤ q - 2 then 1 else Nat.pow 2 (2 - q).toNat
    let top := decimalTop (value * up) den
    (search (m % 2 == 0) (low * up) (value * up) (high * up) den 18 (top - 1)).strip 400

end RecordSchema.Double
