import RecordSchema.Value.Basic

/-!
# What a scalar stands for

A plain scalar is matched against the words for nothing, truth values and special numbers, then
against timestamps, integers and decimal fractions, by its first character; everything else is a
string. An explicit tag of the core schema has to agree with what the scalar stands for, and any
other tag leaves a string.
-/

namespace RecordSchema.Yaml

open Text Number

namespace Tag

def null : Text := "!!null"
def bool : Text := "!!bool"
def int : Text := "!!int"
def float : Text := "!!float"
def str : Text := "!!str"
def timestamp : Text := "!!timestamp"
def binary : Text := "!!binary"
def merge : Text := "!!merge"
def seq : Text := "!!seq"
def map : Text := "!!map"

/-- The address that the handle `!!` stands for. -/
def corePrefix : Text := "tag:yaml.org,2002:"

/-- A tag of the core schema by its handle. -/
def shorten (tag : Text) : Text :=
  match dropPrefix? corePrefix tag with
  | some rest => "!!" ++ rest
  | none => tag

end Tag

namespace Scalar

/-- Words with a meaning of their own. -/
def words : List (Text × Text × Value) :=
  [("", Tag.null, .null), ("~", Tag.null, .null), ("null", Tag.null, .null),
    ("Null", Tag.null, .null), ("NULL", Tag.null, .null), ("true", Tag.bool, .bool true),
    ("True", Tag.bool, .bool true), ("TRUE", Tag.bool, .bool true),
    ("false", Tag.bool, .bool false), ("False", Tag.bool, .bool false),
    ("FALSE", Tag.bool, .bool false), (".nan", Tag.float, .float .nan),
    (".NaN", Tag.float, .float .nan), (".NAN", Tag.float, .float .nan),
    (".inf", Tag.float, .float .infinity), (".Inf", Tag.float, .float .infinity),
    (".INF", Tag.float, .float .infinity), ("+.inf", Tag.float, .float .infinity),
    ("+.Inf", Tag.float, .float .infinity), ("+.INF", Tag.float, .float .infinity),
    ("-.inf", Tag.float, .float .negInfinity), ("-.Inf", Tag.float, .float .negInfinity),
    ("-.INF", Tag.float, .float .negInfinity)]

private def isDecimalDigit (b : UInt8) : Bool := 48 ≤ b && b ≤ 57

private def spanDigits (t : Text) : Text × Text :=
  (t.takeWhile isDecimalDigit, t.dropWhile isDecimalDigit)

/-- The exponent of a number up to the end of a text, zero when there is nothing left. -/
def exponent? (t : Text) : Option Int :=
  match t with
  | [] => some 0
  | e :: rest =>
    if e = 101 ∨ e = 69 then
      match rest with
      | 45 :: digits => (natIn? 10 digits).map fun n => -(n : Int)
      | 43 :: digits => (natIn? 10 digits).map Int.ofNat
      | digits => (natIn? 10 digits).map Int.ofNat
    else none

/-- An unsigned decimal fraction: digits, a point and digits, one of them in front of the point or
after it, and an exponent. The digits are returned as one number with the exponent of the last
one. -/
def fraction? (t : Text) : Option (Nat × Int) :=
  let (whole, rest) := spanDigits t
  let (part, rest) := match rest with
    | 46 :: more => spanDigits more
    | rest => ([], rest)
  if whole = [] ∧ part = [] then none
  else do
    let e ← exponent? rest
    let digits ← natIn? 10 (whole ++ part)
    some (digits, e - part.length)

/-- A finite double written as a decimal fraction with an optional sign. -/
def float? (t : Text) : Option Double :=
  let (negative, digits) : Bool × Text := match t with
    | 45 :: rest => (true, rest)
    | 43 :: rest => (false, rest)
    | t => (false, t)
  match fraction? digits with
  | some (n, e) =>
    let d := Double.ofDecimal n e
    if d.isInfinite then none else some (if negative then d.neg else d)
  | none => none

/-- A number in the given base after its prefix, where a sign may follow the prefix. -/
def prefixed? (base : Nat) (t : Text) : Option Int :=
  match t with
  | 45 :: rest => (natIn? base rest).map fun n => -(n : Int)
  | 43 :: rest => (natIn? base rest).map Int.ofNat
  | t => (natIn? base t).map Int.ofNat

/-- The integers of 64 bits, and without a sign also the unsigned ones. -/
def fits (signed : Bool) (n : Int) : Bool := fitsInt64 n || (!signed && fitsUInt64 n)

private def isSigned : Text → Bool
  | 45 :: _ => true
  | 43 :: _ => true
  | _ => false

/-- An integer in a prefixed notation with the sign after the prefix. -/
def looseInt? (t : Text) : Option Int :=
  let bounded (signed : Bool) (n : Option Int) : Option Int := n.filter (fits signed)
  match t with
  | 48 :: 98 :: rest => bounded (isSigned rest) (prefixed? 2 rest)
  | 45 :: 48 :: 98 :: rest => bounded true ((natIn? 2 rest).map fun n => -(n : Int))
  | 48 :: 111 :: rest => bounded (isSigned rest) (prefixed? 8 rest)
  | 45 :: 48 :: 111 :: rest => bounded true ((natIn? 8 rest).map fun n => -(n : Int))
  | _ => none

/-- A number that starts with a digit or a sign. -/
def number? (t : Text) : Option (Text × Value) :=
  let plain := t.filter (· ≠ 95)
  match (int? plain).filter (fits (isSigned plain)) with
  | some n => some (Tag.int, .int n)
  | none =>
    match float? plain with
    | some d => some (Tag.float, .float d)
    | none => (looseInt? plain).map fun n => (Tag.int, .int n)

/-- A timestamp starts with four digits and a hyphen. -/
def timestamp? (t : Text) : Option (Text × Value) :=
  (Timestamp.parse? t).map fun ts => (Tag.timestamp, .time ts)

/-- What an untagged plain scalar stands for; timestamps are tried only on demand. -/
def plain (timestamps : Bool) (t : Text) : Text × Value :=
  match words.lookup t with
  | some found => found
  | none =>
    let asText := (Tag.str, Value.text t)
    match t with
    | [] => asText
    | b :: _ =>
      if b = 46 then
        if underscoresFit isDecimalDigit false t then
          match float? (t.filter (· ≠ 95)) with
          | some d => (Tag.float, .float d)
          | none => asText
        else asText
      else if isDecimalDigit b ∨ b = 43 ∨ b = 45 then
        match if timestamps then timestamp? t else none with
        | some found => found
        | none => (number? t).getD asText
      else asText

/-- The tag of an untagged plain scalar. -/
def tagOf (t : Text) : Text := (plain true t).1

/-- A scalar that does not agree with its tag: the tag it has by itself, and the one it is given. -/
structure Misfit where
  found : Text
  value : Text
  wanted : Text
  deriving DecidableEq, Repr

/-- The tags that have to agree with the scalar. -/
def isChecked (tag : Text) : Bool :=
  [[], Tag.str, Tag.bool, Tag.int, Tag.float, Tag.null, Tag.timestamp].contains tag

/-- What a scalar with a tag stands for. An integer may stand for a fraction. -/
def resolve (tag value : Text) : Except Misfit (Text × Value) :=
  if !isChecked tag then .ok (tag, .text value)
  else if tag = Tag.str then .ok (Tag.str, .text value)
  else
    let (found, v) := plain (tag = [] ∨ tag = Tag.timestamp) value
    if tag = [] ∨ tag = found then .ok (found, v)
    else
      match v with
      | .int n =>
        if tag = Tag.float ∧ fitsInt64 n then .ok (Tag.float, .float (.ofInt n))
        else .error ⟨found, value, tag⟩
      | _ => .error ⟨found, value, tag⟩

end Scalar

end RecordSchema.Yaml
