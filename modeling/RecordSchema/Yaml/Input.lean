import RecordSchema.Yaml.Problem

/-!
# The characters of a stream

A byte order mark chooses the encoding: UTF-16 in either order, or UTF-8, which is also meant when
there is none. The bytes are decoded a window at a time, and a fault in a window hides all of its
characters, so that a reader who never gets there never meets it.
-/

namespace RecordSchema.Yaml

/-- The characters that can be read, window by window, and the fault met by reading on after the
last one. -/
structure Input where
  windows : List (List Char)
  fault : Option Problem
  /-- The characters in front of the fault in its own window. -/
  spoiled : List Char
  deriving Repr

namespace Input

inductive Encoding where
  | utf8
  | utf16 (littleEndian : Bool)
  deriving DecidableEq, Repr

/-- What the front of a window holds. -/
inductive Reading where
  /-- A character that takes `more` bytes after the first. -/
  | char (code : Nat) (more : Nat)
  /-- The bytes of a character that goes on after the window. -/
  | partly (problem : Problem)
  | refused (problem : Problem)

/-- The characters that a stream may hold. -/
def isAllowed (n : Nat) : Bool :=
  n == 0x09 || n == 0x0A || n == 0x0D || (0x20 ≤ n && n ≤ 0x7E) || n == 0x85 ||
    (0xA0 ≤ n && n ≤ 0xD7FF) || (0xE000 ≤ n && n ≤ 0xFFFD) || (0x10000 ≤ n && n ≤ 0x10FFFF)

/-- The number of bytes of a UTF-8 sequence, by its first byte. -/
def octets (b : UInt8) : Option Nat :=
  if b < 0x80 then some 1
  else if 0xC0 ≤ b ∧ b < 0xE0 then some 2
  else if 0xE0 ≤ b ∧ b < 0xF0 then some 3
  else if 0xF0 ≤ b ∧ b < 0xF8 then some 4
  else none

/-- The lead bits of a UTF-8 sequence of the given length. -/
def leadBits (b : UInt8) : Nat → Nat
  | 1 => b.toNat
  | 2 => b.toNat % 32
  | 3 => b.toNat % 16
  | _ => b.toNat % 8

def readUtf8 (b : UInt8) (after : Text) : Reading :=
  match octets b with
  | none => .refused .invalidLeadingOctet
  | some width =>
    let tail := after.take (width - 1)
    if tail.length < width - 1 then .partly .incompleteOctets
    else if tail.any fun t => t.toNat / 64 ≠ 2 then .refused .invalidTrailingOctet
    else
      let code := tail.foldl (fun n t => n * 64 + t.toNat % 64) (leadBits b width)
      if (width = 2 ∧ code < 0x80) ∨ (width = 3 ∧ code < 0x800) ∨ (width = 4 ∧ code < 0x10000) then
        .refused .invalidSequenceLength
      else if (0xD800 ≤ code ∧ code ≤ 0xDFFF) ∨ 0x10FFFF < code then .refused .invalidScalarValue
      else .char code (width - 1)

private def pair (littleEndian : Bool) (a b : UInt8) : Nat :=
  if littleEndian then b.toNat * 256 + a.toNat else a.toNat * 256 + b.toNat

def readUtf16 (littleEndian : Bool) (b : UInt8) (after : Text) : Reading :=
  match after with
  | [] => .partly .incompleteUnit
  | b1 :: rest =>
    let high := pair littleEndian b b1
    if high / 1024 = 55 then .refused .unexpectedLowSurrogate
    else if high / 1024 = 54 then
      match rest with
      | b2 :: b3 :: _ =>
        let low := pair littleEndian b2 b3
        if low / 1024 = 55 then .char (0x10000 + high % 1024 * 1024 + low % 1024) 3
        else .refused .expectedLowSurrogate
      | _ => .partly .incompleteSurrogatePair
    else .char high 1

def read : Encoding → UInt8 → Text → Reading
  | .utf8 => readUtf8
  | .utf16 littleEndian => readUtf16 littleEndian

/-- What the bytes of a window end with. -/
inductive WindowEnd where
  | whole
  /-- So many bytes of a character that goes on after the window. -/
  | partly (left : Nat) (problem : Problem)
  | refused (problem : Problem)

/-- The characters of a window in front of those of `acc`, last one first. -/
def readWindow (enc : Encoding) : Nat → List Char → Text → List Char × WindowEnd
  | _, acc, [] => (acc, .whole)
  | skipped + 1, acc, _ :: rest => readWindow enc skipped acc rest
  | 0, acc, b :: rest =>
    match read enc b rest with
    | .refused problem => (acc, .refused problem)
    | .partly problem => (acc, .partly (rest.length + 1) problem)
    | .char code more =>
      if isAllowed code then readWindow enc more (Char.ofNat code :: acc) rest
      else (acc, .refused .controlCharacter)

/-- The number of bytes that are decoded together. -/
def windowSize : Nat := 512

/-- The windows of a text, the first of which has `size` bytes. A character that does not fit into a
window is read with the next one. -/
def readWindows (enc : Encoding) : Nat → Nat → Text → Input
  | 0, _, _ => ⟨[], none, []⟩
  | fuel + 1, size, t =>
    let last := (t.drop size).isEmpty
    let (acc, stop) := readWindow enc 0 [] (t.take size)
    let chars := acc.reverse
    match stop with
    | .refused problem => ⟨[], some problem, chars⟩
    | .whole =>
      if last then ⟨[chars], none, []⟩
      else
        let more := readWindows enc fuel windowSize (t.drop size)
        { more with windows := chars :: more.windows }
    | .partly left problem =>
      if last then ⟨[chars], some problem, []⟩
      else
        let more := readWindows enc fuel windowSize (t.drop (size - left))
        { more with windows := chars :: more.windows }

/-- The stream that a text holds. -/
def ofText (t : Text) : Input :=
  match t with
  | 0xFF :: 0xFE :: rest => readWindows (.utf16 true) (t.length + 1) (windowSize - 2) rest
  | 0xFE :: 0xFF :: rest => readWindows (.utf16 false) (t.length + 1) (windowSize - 2) rest
  | 0xEF :: 0xBB :: 0xBF :: rest => readWindows .utf8 (t.length + 1) (windowSize - 3) rest
  | t => readWindows .utf8 (t.length + 1) windowSize t

end Input

end RecordSchema.Yaml
