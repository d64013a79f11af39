import RecordSchema.Text.Basic

/-!
# Characters in a text

A text is read as a list of glyphs: the characters whose shortest UTF-8 encodings stand in it, and
the stray bytes that belong to none. Writing the glyphs back gives the same bytes.
-/

namespace RecordSchema.Text

/-- A character, or one byte that takes part in no encoded character. -/
inductive Glyph where
  | char (c : Char)
  | stray (b : UInt8)
  deriving DecidableEq, Repr

/-- The UTF-8 encoding of a character. -/
def ofChar (c : Char) : Text := String.utf8EncodeChar c

def ofChars (cs : List Char) : Text := cs.flatMap ofChar

namespace Glyph

def bytes : Glyph → Text
  | .char c => ofChar c
  | .stray b => [b]

/-- The character that stands for the glyph in a text that admits characters only: a stray byte is
shown as the replacement character. -/
def shown : Glyph → Char
  | .char c => c
  | .stray _ => '�'

end Glyph

/-- Whether a byte can only stand inside an encoded character, after its first byte. -/
def isTail (b : UInt8) : Bool := 0x80 ≤ b && b ≤ 0xBF

/-- The bits that such a byte adds. -/
def low (b : UInt8) : Nat := b.toNat % 64

/-- The character whose shortest encoding is the byte `b` and some of the bytes after it, with the
number of those. -/
def encoded? (b : UInt8) (after : Text) : Option (Char × Nat) :=
  if b < 0x80 then some (Char.ofNat b.toNat, 0)
  else
    match after with
    | b1 :: rest =>
      if 0xC2 ≤ b && b ≤ 0xDF && isTail b1 then
        some (Char.ofNat (b.toNat % 32 * 64 + low b1), 1)
      else
        match rest with
        | b2 :: rest =>
          if 0xE0 ≤ b && b ≤ 0xEF && isTail b1 && isTail b2 && !(b == 0xE0 && b1 < 0xA0) &&
              !(b == 0xED && 0xA0 ≤ b1) then
            some (Char.ofNat ((b.toNat % 16 * 64 + low b1) * 64 + low b2), 2)
          else
            match rest with
            | b3 :: _ =>
              if 0xF0 ≤ b && b ≤ 0xF4 && isTail b1 && isTail b2 && isTail b3 &&
                  !(b == 0xF0 && b1 < 0x90) && !(b == 0xF4 && 0x90 ≤ b1) then
                some (Char.ofNat (((b.toNat % 8 * 64 + low b1) * 64 + low b2) * 64 + low b3), 3)
              else none
            | [] => none
        | [] => none
    | [] => none

/-- The glyphs of a text after its first `skipped` bytes. -/
def glyphsAfter : Nat → Text → List Glyph
  | _, [] => []
  | skipped + 1, _ :: rest => glyphsAfter skipped rest
  | 0, b :: rest =>
    match encoded? b rest with
    | some (c, more) => .char c :: glyphsAfter more rest
    | none => .stray b :: glyphsAfter 0 rest

/-- The glyphs of a text. An encoding that is cut short, longer than needed, or names no scalar
value gives stray bytes. -/
def glyphs (t : Text) : List Glyph := glyphsAfter 0 t

def ofGlyphs (gs : List Glyph) : Text := gs.flatMap Glyph.bytes

/-- Whether every byte takes part in an encoded character. -/
def isUtf8 (t : Text) : Bool :=
  (glyphs t).all fun g => match g with
    | .char _ => true
    | .stray _ => false

/-- The characters of a text, with the replacement character for each stray byte. -/
def shownChars (t : Text) : List Char := (glyphs t).map Glyph.shown

/-- The text as a string, with the replacement character for each stray byte. -/
def shown (t : Text) : String := String.ofList t.shownChars

/-- The number of characters, a stray byte counting as one. -/
def width (t : Text) : Nat := (glyphs t).length

end RecordSchema.Text
