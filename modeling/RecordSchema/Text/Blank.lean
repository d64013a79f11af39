import RecordSchema.Text.Utf8

/-!
# White space

The white space characters are those of the Unicode property of that name. A text is trimmed at both
ends and cut into words by them; stray bytes are never white space.
-/

namespace RecordSchema.Text

/-- The characters with the Unicode property White_Space. -/
def isBlankChar (c : Char) : Bool :=
  let n := c.toNat
  (0x09 ≤ n && n ≤ 0x0D) || n == 0x20 || n == 0x85 || n == 0xA0 || n == 0x1680 ||
    (0x2000 ≤ n && n ≤ 0x200A) || n == 0x2028 || n == 0x2029 || n == 0x202F || n == 0x205F ||
    n == 0x3000

namespace Glyph

def isBlank : Glyph → Bool
  | .char c => isBlankChar c
  | .stray _ => false

/-- A list of glyphs without the white space at its ends. -/
def trim (gs : List Glyph) : List Glyph :=
  ((gs.dropWhile isBlank).reverse.dropWhile isBlank).reverse

/-- The maximal runs without white space. -/
def words : List Glyph → List (List Glyph)
  | [] => []
  | g :: gs =>
    if g.isBlank then words gs
    else
      match gs with
      | [] => [[g]]
      | next :: _ =>
        if next.isBlank then [g] :: words gs
        else
          match words gs with
          | [] => [[g]]
          | w :: ws => (g :: w) :: ws

end Glyph

/-- The text without white space at its ends. -/
def trim (t : Text) : Text := ofGlyphs (Glyph.trim (glyphs t))

/-- The words of a text, in order. -/
def words (t : Text) : List Text := (Glyph.words (glyphs t)).map ofGlyphs

end RecordSchema.Text
