import RecordSchema.Text.Basic

/-!
# Base 64

The standard alphabet with padding. Reading passes over line breaks and refuses anything else
outside the alphabet, missing padding, and text after the padding.
-/

namespace RecordSchema.Text

private def alphabet : Text :=
  "ABCDEFGHIJKLMNOPQRSTUVWXYZabcdefghijklmnopqrstuvwxyz0123456789+/"

private def digit (n : Nat) : UInt8 := alphabet.getD (n % 64) 0

private def value? (b : UInt8) : Option Nat := alphabet.idxOf? b

/-- Four characters for every three bytes; the last group is padded with `=`. -/
def toBase64 : Text → Text
  | a :: b :: c :: rest =>
    let n := (a.toNat * 256 + b.toNat) * 256 + c.toNat
    digit (n / 262144) :: digit (n / 4096) :: digit (n / 64) :: digit n :: toBase64 rest
  | [a, b] =>
    let n := (a.toNat * 256 + b.toNat) * 4
    [digit (n / 4096), digit (n / 64), digit n, 61]
  | [a] =>
    let n := a.toNat * 16
    [digit (n / 64), digit n, 61, 61]
  | [] => []

private def groups? : Text → Option Text
  | [] => some []
  | [a, b, 61, 61] => do
    let n := (← value? a) * 64 + (← value? b)
    some [(n / 16).toUInt8]
  | [a, b, c, 61] => do
    let n := ((← value? a) * 64 + (← value? b)) * 64 + (← value? c)
    some [(n / 1024).toUInt8, (n / 4).toUInt8]
  | a :: b :: c :: d :: rest => do
    let n := (((← value? a) * 64 + (← value? b)) * 64 + (← value? c)) * 64 + (← value? d)
    let more ← groups? rest
    some ((n / 65536).toUInt8 :: (n / 256).toUInt8 :: n.toUInt8 :: more)
  | _ => none

/-- The bytes that a base 64 text stands for. -/
def ofBase64? (t : Text) : Option Text :=
  groups? (t.filter fun b => b != 10 && b != 13)

example : toBase64 (ofString "hi") = ofString "aGk=" := by decide
example : ofBase64? (ofString "aGk=") = some (ofString "hi") := by decide
example : ofBase64? (ofString "aGk") = none := by decide

end RecordSchema.Text
