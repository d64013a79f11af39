import RecordSchema.Yaml.TokenStream.Queue
import RecordSchema.Yaml.TokenStream.Space

/-!
# Directives, anchors and tags

A tag is a handle with a suffix, or an address in angle brackets. Addresses may hold escaped octets.
-/

namespace RecordSchema.Yaml

open Character

namespace TokenStream

/-- A number of at most two digits. -/
def versionNumber (start : Mark) : Scan Nat := do
  let digits := (← spanRev isDigit 2 []).reverse
  need 1
  if isDigit (← peek) then refuse start .longVersion
  if digits.isEmpty then refuse start .expectedVersion
  return digits.foldl (fun n c => n * 10 + (c.toNat - 48)) 0

/-- One escaped octet of a tag address. -/
def uriOctet (start : Mark) : Scan UInt8 := do
  need 3
  match (← peek) == '%', hexValue? (← peekAt 1), hexValue? (← peekAt 2) with
  | true, some h, some l =>
    skip
    skip
    skip
    return (h * 16 + l).toUInt8
  | _, _, _ => refuse start .expectedUriOctet

/-- The octets that go on with an escaped character of a tag address. -/
def uriTail (start : Mark) : Nat → Scan Text
  | 0 => return []
  | left + 1 => do
    let octet ← uriOctet start
    if octet.toNat / 64 ≠ 2 then refuse start .incorrectTrailingUriOctet
    return octet :: (← uriTail start left)

/-- The escaped octets of one character of a tag address. -/
def uriChar (start : Mark) : Scan Text := do
  let octet ← uriOctet start
  match Input.octets octet with
  | some width => return octet :: (← uriTail start (width - 1))
  | none => refuse start .incorrectLeadingUriOctet

/-- The address characters at the front, the escaped ones decoded. -/
def uriChars (start : Mark) : Nat → Text → Scan Text
  | 0, acc => return acc
  | fuel + 1, acc => do
    need 1
    let c ← peek
    if c == '%' then uriChars start fuel (acc ++ (← uriChar start))
    else if isUri c then
      skip
      uriChars start fuel (acc ++ Text.ofChar c)
    else return acc

/-- A tag address; `head` is what was read of it as a handle. -/
def uri (start : Mark) (head : Text) : Scan Text := do
  let before ← here
  let address ← uriChars start ((← get).size + 1) (head.drop 1)
  if head.isEmpty && (← here) = before then refuse start .expectedTagUri
  return address

/-- A tag handle: `!`, `!!` or `!name!`, or what could be the start of a suffix after `!`. -/
def tagHandle (start : Mark) (directive : Bool) : Scan Text := do
  need 1
  if (← peek) != '!' then refuse start .expectedExclamation
  skip
  let name ← span isWord
  if (← peek) == '!' then
    skip
    return Text.ofChars ('!' :: name ++ ['!'])
  else if directive && !name.isEmpty then refuse start .expectedExclamation
  else return Text.ofChars ('!' :: name)

/-- The value of a directive with the given name. -/
def directiveValue (start : Mark) (name : List Char) : Scan Token.Kind := do
  if name == "YAML".toList then
    skipBlanks
    let major ← versionNumber start
    if (← peek) != '.' then refuse start .expectedVersionPoint
    skip
    let minor ← versionNumber start
    return .version major minor
  else if name == "TAG".toList then
    skipBlanks
    let handle ← tagHandle start true
    need 1
    if !isBlank (← peek) then refuse start .expectedBlank
    skipBlanks
    let address ← uri start []
    need 1
    if !isBlankOrEnd (← peek) then refuse start .expectedBlankOrBreak
    return .tagPrefix handle address
  else refuse start .unknownDirective

def scanDirective : Scan Unit := do
  let start ← here
  skip
  let name ← span isWord
  if name.isEmpty then refuse start .expectedDirectiveName
  if !isBlankOrEnd (← peek) then refuse start .directiveNameNotAlphabetic
  let kind ← directiveValue start name
  let stop ← here
  skipLineEnd start
  push kind start stop

def scanAnchor (kind : Text → Token.Kind) : Scan Unit := do
  let start ← here
  skip
  let name ← span isWord
  let c ← peek
  if name.isEmpty || !(isBlankOrEnd c || "?:,]\x7d%@\x60".toList.contains c) then
    refuse start .expectedAnchorName
  push (kind (Text.ofChars name)) start (← here)

/-- The handle and the suffix of a tag that is not in angle brackets. -/
def tagParts (start : Mark) : Scan (Text × Text) := do
  let handle ← tagHandle start false
  if 1 < handle.length && handle.getLast? == some 33 then
    return (handle, ← uri start [])
  else
    let suffix ← uri start handle
    return if suffix.isEmpty then (suffix, [33]) else ([33], suffix)

def scanTag : Scan Unit := do
  let start ← here
  need 2
  let (handle, suffix) ←
    if (← peekAt 1) == '<' then do
      skip
      skip
      let address ← uri start []
      if (← peek) != '>' then refuse start .expectedTagEnd
      skip
      pure ([], address)
    else tagParts start
  need 1
  if !isBlankOrEnd (← peek) then refuse start .expectedBlankOrBreak
  push (.tag handle suffix) start (← here)

end TokenStream

end RecordSchema.Yaml
