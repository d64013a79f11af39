import RecordSchema.Number.Shortest

/-!
# Written forms of doubles

Both forms write the shortest decimal. They differ in the exponents at which they leave positional
notation and in the least number of exponent digits.
-/

namespace RecordSchema.Double

open Text

/-- Where positional notation ends, and how many digits an exponent has at least. -/
structure Style where
  /-- The first decimal exponent, upwards, that is written with an exponent part. -/
  upper : Int
  /-- The last decimal exponent, downwards, that is written positionally. -/
  lower : Int
  exponentDigits : Nat

/-- Messages and YAML: an exponent part below `1e-4` and from `1e+06` on, with two digits. -/
def general : Style := ⟨6, -4, 2⟩

/-- JSON: an exponent part below `1e-6` and from `1e+21` on, as short as possible. -/
def json : Style := ⟨21, -6, 1⟩

private def zeros (n : Nat) : Text := replicate n 48

/-- Digits with a point so that their value is `digits * 10 ^ exponent`. -/
def positional (digits : Text) (exponent : Int) : Text :=
  if 0 ≤ exponent then digits ++ zeros exponent.toNat
  else
    let places := (-exponent).toNat
    if places < digits.length then
      digits.take (digits.length - places) ++ "." ++ digits.drop (digits.length - places)
    else "0." ++ zeros (places - digits.length) ++ digits

/-- One digit before the point and an exponent part. -/
def scientific (style : Style) (digits : Text) (e : Int) : Text :=
  let tail := match digits.drop 1 with
    | [] => []
    | rest => "." ++ rest
  let size := ofNat e.natAbs
  digits.take 1 ++ tail ++ "e" ++ (if e < 0 then "-" else "+") ++
    zeros (style.exponentDigits - size.length) ++ size

/-- The written form of a double in a style. -/
def render (style : Style) (d : Double) : Text :=
  if d.isNaN then "NaN"
  else if d.isInfinite then if d.isNegative then "-Inf" else "+Inf"
  else
    let dec := d.shortest
    let digits := ofNat dec.digits
    let e : Int := dec.exponent + digits.length - 1
    let sign : Text := if d.isNegative then "-" else ""
    if dec.digits ≠ 0 ∧ (e < style.lower ∨ style.upper ≤ e) then
      sign ++ scientific style digits e
    else sign ++ positional digits dec.exponent

end RecordSchema.Double
