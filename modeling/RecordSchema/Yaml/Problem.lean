import RecordSchema.Number.Integer

/-!
# Why a YAML stream is refused

Every cause has one wording. The line that goes with it is counted from one and left out when the
fault lies on the first line.
-/

namespace RecordSchema.Yaml

open Text

/-- A place in a stream: characters from the start, lines and columns, all counted from zero. -/
structure Mark where
  index : Nat := 0
  line : Nat := 0
  column : Nat := 0
  deriving DecidableEq, Repr

/-- A fault in the bytes, the tokens or the structure of a stream. -/
inductive Problem where
  | invalidLeadingOctet
  | incompleteOctets
  | invalidTrailingOctet
  | invalidSequenceLength
  | invalidScalarValue
  | incompleteUnit
  | unexpectedLowSurrogate
  | incompleteSurrogatePair
  | expectedLowSurrogate
  | controlCharacter
  | noToken
  | expectedColon
  | depthExceeded
  | entryNotAllowed
  | keyNotAllowed
  | valueNotAllowed
  | unknownDirective
  | expectedDirectiveName
  | directiveNameNotAlphabetic
  | expectedLineEnd
  | expectedVersionPoint
  | longVersion
  | expectedVersion
  | expectedBlank
  | expectedBlankOrBreak
  | expectedExclamation
  | expectedTagUri
  | expectedUriOctet
  | incorrectLeadingUriOctet
  | incorrectTrailingUriOctet
  | expectedTagEnd
  | expectedAnchorName
  | zeroIndentation
  | tabInIndentation
  | documentIndicatorInQuotes
  | endInQuotes
  | unknownEscape
  | expectedHexadecimal
  | invalidEscapeCode
  | tabBeforePlain
  | duplicateVersion
  | incompatibleVersion
  | duplicateTagDirective
  | expectedDocumentStart
  | undefinedTagHandle
  | expectedContent
  | expectedEntry
  | expectedKey
  | expectedSequenceEnd
  | expectedMappingEnd
  | unknownAnchor (name : Text)
  deriving DecidableEq, Repr

namespace Problem

def message : Problem → Text
  | invalidLeadingOctet => "invalid leading UTF-8 octet"
  | incompleteOctets => "incomplete UTF-8 octet sequence"
  | invalidTrailingOctet => "invalid trailing UTF-8 octet"
  | invalidSequenceLength => "invalid length of a UTF-8 sequence"
  | invalidScalarValue => "invalid Unicode character"
  | incompleteUnit => "incomplete UTF-16 character"
  | unexpectedLowSurrogate => "unexpected low surrogate area"
  | incompleteSurrogatePair => "incomplete UTF-16 surrogate pair"
  | expectedLowSurrogate => "expected low surrogate area"
  | controlCharacter => "control characters are not allowed"
  | noToken => "found character that cannot start any token"
  | expectedColon => "could not find expected ':'"
  | depthExceeded => "exceeded max depth of 10000"
  | entryNotAllowed => "block sequence entries are not allowed in this context"
  | keyNotAllowed => "mapping keys are not allowed in this context"
  | valueNotAllowed => "mapping values are not allowed in this context"
  | unknownDirective => "found unknown directive name"
  | expectedDirectiveName => "could not find expected directive name"
  | directiveNameNotAlphabetic => "found unexpected non-alphabetical character"
  | expectedLineEnd => "did not find expected comment or line break"
  | expectedVersionPoint => "did not find expected digit or '.' character"
  | longVersion => "found extremely long version number"
  | expectedVersion => "did not find expected version number"
  | expectedBlank => "did not find expected whitespace"
  | expectedBlankOrBreak => "did not find expected whitespace or line break"
  | expectedExclamation => "did not find expected '!'"
  | expectedTagUri => "did not find expected tag URI"
  | expectedUriOctet => "did not find URI escaped octet"
  | incorrectLeadingUriOctet => "found an incorrect leading UTF-8 octet"
  | incorrectTrailingUriOctet => "found an incorrect trailing UTF-8 octet"
  | expectedTagEnd => "did not find the expected '>'"
  | expectedAnchorName => "did not find expected alphabetic or numeric character"
  | zeroIndentation => "found an indentation indicator equal to 0"
  | tabInIndentation => "found a tab character where an indentation space is expected"
  | documentIndicatorInQuotes => "found unexpected document indicator"
  | endInQuotes => "found unexpected end of stream"
  | unknownEscape => "found unknown escape character"
  | expectedHexadecimal => "did not find expected hexdecimal number"
  | invalidEscapeCode => "found invalid Unicode character escape code"
  | tabBeforePlain => "found a tab character that violates indentation"
  | duplicateVersion => "found duplicate %YAML directive"
  | incompatibleVersion => "found incompatible YAML document"
  | duplicateTagDirective => "found duplicate %TAG directive"
  | expectedDocumentStart => "did not find expected <document start>"
  | undefinedTagHandle => "found undefined tag handle"
  | expectedContent => "did not find expected node content"
  | expectedEntry => "did not find expected '-' indicator"
  | expectedKey => "did not find expected key"
  | expectedSequenceEnd => "did not find expected ',' or ']'"
  | expectedMappingEnd => "did not find expected ',' or '\x7d'"
  | unknownAnchor name => "unknown anchor '" ++ name ++ "' referenced"

end Problem

/-- A problem with the line it is reported on, zero when none is. -/
structure SyntaxError where
  line : Nat
  problem : Problem
  deriving DecidableEq, Repr

namespace SyntaxError

/-- A fault that is reported without a line. -/
def plain (problem : Problem) : SyntaxError := ⟨0, problem⟩

/-- A fault among the characters: the line of its context, or of the place itself, counted from one,
unless both lie on the first line. -/
def scanning (context place : Mark) (problem : Problem) : SyntaxError :=
  if context.line ≠ 0 then ⟨context.line + 1, problem⟩
  else if place.line ≠ 0 then ⟨place.line + 1, problem⟩
  else plain problem

/-- A fault among the tokens: the number of lines before its context, or before the place itself. -/
def parsing (context place : Mark) (problem : Problem) : SyntaxError :=
  if context.line ≠ 0 then ⟨context.line, problem⟩ else ⟨place.line, problem⟩

def message (e : SyntaxError) : Text :=
  let place : Text := if e.line = 0 then [] else "line " ++ ofNat e.line ++ ": "
  "yaml: " ++ place ++ e.problem.message

end SyntaxError

end RecordSchema.Yaml
