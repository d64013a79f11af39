import RecordSchema.Number.Integer

/-!
# Request targets

The path of a request is what stands before the first question mark. It is taken decoded when it is
written in the usual way: capital hexadecimal digits, and escapes exactly where they are needed. Any
other spelling is taken as it stands, so that an escaped slash does not divide segments.
-/

namespace RecordSchema.Target

open Text

/-- Decodes percent escapes; nothing when one is malformed. -/
def unescape? : Text → Option Text
  | [] => some []
  | 37 :: a :: b :: rest => do
    let high ← (Number.digitValue? a).filter (· < 16)
    let low ← (Number.digitValue? b).filter (· < 16)
    return (16 * high + low).toUInt8 :: (← unescape? rest)
  | 37 :: _ => none
  | b :: rest => (unescape? rest).map (b :: ·)

/-- The bytes that stand for themselves in a path: letters, digits and a few signs. -/
def isPlain (b : UInt8) : Bool :=
  (48 ≤ b && b ≤ 57) || (97 ≤ b && b ≤ 122) || (65 ≤ b && b ≤ 90) ||
    (ofString "-_.~$&+,/:;=@").contains b

def upperHexDigit (n : Nat) : UInt8 := if n < 10 then (48 + n).toUInt8 else (55 + n).toUInt8

def escape (t : Text) : Text :=
  t.flatMap fun b =>
    if isPlain b then [b] else [37, upperHexDigit (b.toNat / 16), upperHexDigit (b.toNat % 16)]

/-- What stands after the scheme of a target, if it has one: letters, and after the first one also
digits and the signs `+`, `-` and `.`, up to a colon. -/
def afterScheme? (t : Text) : Option Text :=
  let isLetter (b : UInt8) : Bool := (97 ≤ b && b ≤ 122) || (65 ≤ b && b ≤ 90)
  let isLater (b : UInt8) : Bool :=
    isLetter b || (48 ≤ b && b ≤ 57) || b == 43 || b == 45 || b == 46
  match t.head?.any isLetter, t.dropWhile isLater with
  | true, 58 :: rest => some rest
  | _, _ => none

/-- The path of a target as it is written. A host in front of it needs a scheme, and what follows a
scheme without a slash is no path. -/
def written (target : Text) : Text :=
  match afterScheme? target with
  | none => target.takeWhile (· ≠ 63)
  | some rest =>
    match rest.takeWhile (· ≠ 63) with
    | 47 :: 47 :: more => more.dropWhile (· ≠ 47)
    | 47 :: more => 47 :: more
    | _ => []

/-- The path that a target is routed by; nothing when it is malformed. A target to connect to is a
host, unless it starts with a slash. -/
def path? (method target : Text) : Option Text :=
  let hostOnly := method = "CONNECT" ∧ target.head? ≠ some 47
  let written := written (if hostOnly then "http://" ++ target else target)
  (unescape? written).map fun decoded =>
    let path := if escape decoded = written then decoded else written
    if path.isEmpty then [47] else path

end RecordSchema.Target
