import RecordSchema.Text.Basic

/-!
# Integers in texts

Integers are written in decimal. They are read in the notation of their prefix: `0b`, `0o`, `0x`, a
plain leading `0` for octal, and decimal otherwise. Reading is unbounded; a reader that stores the
number checks its range.
-/

namespace RecordSchema

namespace Text

def ofNat (n : Nat) : Text := ofString (toString n)

def ofInt (n : Int) : Text := ofString (toString n)

end Text

namespace Number

open Text

/-- The value of a digit in any base up to 36. -/
def digitValue? (b : UInt8) : Option Nat :=
  if 48 ≤ b ∧ b ≤ 57 then some (b.toNat - 48)
  else if 97 ≤ b ∧ b ≤ 122 then some (b.toNat - 87)
  else if 65 ≤ b ∧ b ≤ 90 then some (b.toNat - 55)
  else none

/-- The value of a list of digits below `base`, continuing from `acc`. -/
def readDigits? (base : Nat) : Nat → Text → Option Nat
  | acc, [] => some acc
  | acc, b :: rest =>
    match digitValue? b with
    | some d => if d < base then readDigits? base (acc * base + d) rest else none
    | none => none

/-- A number in the given base; there must be a digit. -/
def natIn? (base : Nat) (t : Text) : Option Nat :=
  if t = [] then none else readDigits? base 0 t

/-- The base that the prefix of an unsigned number announces, and the digits after the prefix. -/
def splitBase (t : Text) : Nat × Text :=
  match t with
  | 48 :: p :: d :: rest =>
    if p = 98 ∨ p = 66 then (2, d :: rest)
    else if p = 111 ∨ p = 79 then (8, d :: rest)
    else if p = 120 ∨ p = 88 then (16, d :: rest)
    else (8, p :: d :: rest)
  | 48 :: rest => (8, rest)
  | t => (10, t)

/-- Whether every underscore stands between two digits, a base prefix counting as a digit. -/
def underscoresFit (isDigit : UInt8 → Bool) : (afterDigit : Bool) → Text → Bool
  | _, [] => true
  | afterDigit, b :: rest =>
    if b = 95 then
      match rest with
      | next :: _ => afterDigit && isDigit next && underscoresFit isDigit false rest
      | [] => false
    else underscoresFit isDigit (isDigit b) rest

private def separated (t : Text) : Bool :=
  match t with
  | 48 :: p :: rest =>
    if p = 120 ∨ p = 88 then
      underscoresFit (fun b => (digitValue? b).any (· < 16)) true rest
    else if p = 98 ∨ p = 66 ∨ p = 111 ∨ p = 79 then
      underscoresFit (fun b => (digitValue? b).any (· < 10)) true rest
    else underscoresFit (fun b => (digitValue? b).any (· < 10)) false t
  | t => underscoresFit (fun b => (digitValue? b).any (· < 10)) false t

/-- An unsigned number in the base that its prefix announces. Underscores may separate digits. -/
def nat? (t : Text) : Option Nat :=
  if t = [] then none
  else
    let (base, digits) := splitBase t
    if separated t then readDigits? base 0 (digits.filter (· ≠ 95)) else none

/-- A number with an optional sign, in the base that its prefix announces. -/
def int? (t : Text) : Option Int :=
  match t with
  | 45 :: rest => (nat? rest).map fun n => -(n : Int)
  | 43 :: rest => (nat? rest).map Int.ofNat
  | t => (nat? t).map Int.ofNat

/-- A decimal number with an optional sign. -/
def decimal? (t : Text) : Option Int :=
  match t with
  | 45 :: rest => (natIn? 10 rest).map fun n => -(n : Int)
  | 43 :: rest => (natIn? 10 rest).map Int.ofNat
  | t => (natIn? 10 t).map Int.ofNat

/-- The numbers of a two's-complement word of 64 bits. -/
def fitsInt64 (n : Int) : Bool := decide (-9223372036854775808 ≤ n ∧ n ≤ 9223372036854775807)

def fitsUInt64 (n : Int) : Bool := decide (0 ≤ n ∧ n ≤ 18446744073709551615)

end Number

end RecordSchema
