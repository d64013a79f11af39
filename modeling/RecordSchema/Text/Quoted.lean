import RecordSchema.Text.Letter
import RecordSchema.Text.Utf8

/-!
# Quoted texts

Messages show a text between double quotes. Printable characters stand for themselves; the quote,
the backslash and everything else is escaped, so that a message stays on one line and is valid UTF-8
whatever the text holds.
-/

namespace RecordSchema.Text

/-- `n` in lower-case hexadecimal, padded with zeros to `places` digits. -/
def hexPadded : Nat → Nat → Text
  | 0, _ => []
  | places + 1, n => hexPadded places (n / 16) ++ [hexDigit (n % 16)]

/-- The escape of a glyph between double quotes, or the glyph itself. -/
def Glyph.quoted : Glyph → Text
  | .stray b => "\\x" ++ hexPadded 2 b.toNat
  | .char c =>
    if c = '"' then "\\\""
    else if c = '\\' then "\\\\"
    else if isPrintable c then ofChar c
    else if c = '\x07' then "\\a"
    else if c = '\x08' then "\\b"
    else if c = '\x0c' then "\\f"
    else if c = '\n' then "\\n"
    else if c = '\r' then "\\r"
    else if c = '\t' then "\\t"
    else if c = '\x0b' then "\\v"
    else if c.toNat < 0x20 ∨ c.toNat = 0x7f then "\\x" ++ hexPadded 2 c.toNat
    else if c.toNat < 0x10000 then "\\u" ++ hexPadded 4 c.toNat
    else "\\U" ++ hexPadded 8 c.toNat

/-- The text between double quotes, with escapes. -/
def quoted (t : Text) : Text := "\"" ++ (glyphs t).flatMap Glyph.quoted ++ "\""

/-- A character between single quotes, with escapes. -/
def quotedChar (c : Char) : Text :=
  let inner : Text :=
    if c = '\'' then "\\'" else if c = '"' then "\"" else Glyph.quoted (.char c)
  "'" ++ inner ++ "'"

/-- Whether a text can stand between backquotes: it is valid and has no backquote, no byte order
mark and no control character but the tab. -/
def fitsBackquotes (t : Text) : Bool :=
  (glyphs t).all fun g =>
    match g with
    | .stray _ => false
    | .char c =>
      (0x20 ≤ c.toNat || c == '\t') && c.toNat != 0x7f && c.toNat != 0x60 && c.toNat != 0xfeff

/-- A text between backquotes if it fits, and quoted otherwise. -/
def backquoted (t : Text) : Text := if fitsBackquotes t then "\x60" ++ t ++ "\x60" else quoted t

end RecordSchema.Text
