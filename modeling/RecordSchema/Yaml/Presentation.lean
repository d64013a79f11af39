import RecordSchema.Text.Base64
import RecordSchema.Text.Utf8
import RecordSchema.Yaml.Character
import RecordSchema.Yaml.Scalar
import RecordSchema.Yaml.Token

/-!
# How scalars are written

A scalar is written plain if it reads back as itself, between single quotes if its characters allow
that, and otherwise between double quotes with escapes. A text of several lines is written as a
literal block.
-/

namespace RecordSchema.Yaml

open Text Character

/-- What the characters of a scalar allow. -/
structure Presentation where
  /-- Whether there is a line break. -/
  multiline : Bool
  plainAllowed : Bool
  singleQuotedAllowed : Bool
  literalAllowed : Bool
  deriving DecidableEq, Repr

namespace Presentation

/-- The characters that stand for themselves. -/
def isPrintable (c : Char) : Bool :=
  let n := c.toNat
  c == '\n' || (0x20 ≤ n && n ≤ 0x7E) || (0xA0 ≤ n && n ≤ 0xD7FF) ||
    (0xE000 ≤ n && n ≤ 0xFFFD && n != 0xFEFF)

/-- Whether the first character of a scalar has a meaning there. -/
def isLeadingIndicator (c : Char) (followedByBlank : Bool) : Bool :=
  "#,[]\x7b\x7d&*!|>'\"%@\x60".toList.contains c || ("?:-".toList.contains c && followedByBlank)

/-- Whether a character after the first has a meaning outside of brackets. -/
def isInnerIndicator (c : Char) (afterBlank followedByBlank : Bool) : Bool :=
  (c == ':' && followedByBlank) || (c == '#' && afterBlank)

/-- Whether some character of a scalar has a meaning where it stands. -/
def hasIndicators : (first afterBlank : Bool) → List Char → Bool
  | _, _, [] => false
  | first, afterBlank, c :: rest =>
    let followedByBlank := match rest with
      | [] => true
      | next :: _ => isBlank next
    (if first then isLeadingIndicator c followedByBlank
      else isInnerIndicator c afterBlank followedByBlank) ||
      hasIndicators false (isBlankOrEnd c) rest

/-- Whether a blank and a line break, in this order, stand next to each other. -/
def hasPair (before after : Char → Bool) : List Char → Bool
  | a :: b :: rest => (before a && after b) || hasPair before after (b :: rest)
  | _ => false

def isSpace (c : Char) : Bool := c == ' '

/-- Whether a scalar starts like a document mark. -/
def startsLikeMark (cs : List Char) : Bool :=
  "---".toList.isPrefixOf cs || "...".toList.isPrefixOf cs

def ofChars (cs : List Char) : Presentation :=
  if cs.isEmpty then ⟨false, true, true, false⟩
  else
    let breaks := cs.any isBreak
    let tabs := cs.contains '\t'
    let special := cs.any fun c => c != '\t' && !isPrintable c
    let edge := cs.head?.any (fun c => isSpace c || isBreak c) ||
      cs.getLast?.any (fun c => isSpace c || isBreak c)
    let breakSpace := hasPair isBreak isSpace cs
    let spaceBreak := hasPair isSpace isBreak cs
    let indicators := startsLikeMark cs || hasIndicators true true cs
    { multiline := breaks
      plainAllowed :=
        !(edge || breakSpace || spaceBreak || tabs || special || breaks || indicators)
      singleQuotedAllowed := !(breakSpace || spaceBreak || tabs || special)
      literalAllowed := !(cs.getLast?.any isSpace || spaceBreak || special) }

/-- The style of a scalar for which `style` is wanted. A simple key stands on one line. -/
def select (p : Presentation) (empty simpleKey : Bool) (style : ScalarStyle) : ScalarStyle :=
  let style := if simpleKey && p.multiline then .doubleQuoted else style
  let style :=
    if style = .plain ∧ (!p.plainAllowed ∨ (empty ∧ simpleKey)) then .singleQuoted else style
  let style :=
    if style = .singleQuoted ∧ !p.singleQuotedAllowed then .doubleQuoted else style
  if style = .literal ∧ (!p.literalAllowed ∨ simpleKey) then .doubleQuoted else style

end Presentation

/-- A line of output so far: its text, and whether a new line has been started. -/
structure Written where
  text : Text
  /-- Whether the text ends with a line break. -/
  closed : Bool := false
  deriving DecidableEq, Repr

namespace Written

/-- The text with a line break at its end. -/
def ended (w : Written) : Text := if w.closed then w.text else w.text ++ [10]

private def upperHex (places n : Nat) : Text :=
  (List.range places).reverse.map fun i =>
    let d := n / Nat.pow 16 i % 16
    if d < 10 then (48 + d).toUInt8 else (55 + d).toUInt8

/-- The escape of a character between double quotes. -/
def escape (c : Char) : Text :=
  let n := c.toNat
  let short : List (Nat × Text) :=
    [(0, "0"), (7, "a"), (8, "b"), (9, "t"), (10, "n"), (11, "v"), (12, "f"), (13, "r"), (27, "e"),
      (34, "\""), (92, "\\"), (0x85, "N"), (0xA0, "_"), (0x2028, "L"), (0x2029, "P")]
  match short.lookup n with
  | some t => "\\" ++ t
  | none =>
    if n ≤ 0xFF then "\\x" ++ upperHex 2 n
    else if n ≤ 0xFFFF then "\\u" ++ upperHex 4 n
    else "\\U" ++ upperHex 8 n

/-- The characters between double quotes; every one of them is escaped after a byte order mark at
the start. -/
def doubleQuoted (cs : List Char) : Text :=
  let marked := cs.head? == some '\ufeff'
  "\"" ++ cs.flatMap (fun c =>
    if marked || !Presentation.isPrintable c || isBreak c || c == '"' || c == '\\' then escape c
    else ofChar c) ++ "\""

/-- The characters between single quotes: a quote is doubled, and the line after a break is
indented. -/
def singleQuotedChars (indent : Nat) : (afterBreak : Bool) → List Char → Text
  | _, [] => []
  | afterBreak, c :: rest =>
    if isBreak c then ofChar c ++ singleQuotedChars indent true rest
    else
      let pad : Text := if afterBreak && c != ' ' then replicate indent 32 else []
      let quote : Text := if c = '\'' then "'" else []
      pad ++ quote ++ ofChar c ++ singleQuotedChars indent (afterBreak && c == ' ') rest

def singleQuoted (indent : Nat) (cs : List Char) : Text :=
  "'" ++ singleQuotedChars indent false cs ++ "'"

/-- What follows the bar of a literal block: the indentation if the text starts with a blank or a
break, and how it ends. -/
def literalHints (cs : List Char) : Text :=
  let indentation : Text := if cs.head?.any (fun c => c == ' ' || isBreak c) then "2" else []
  let ending : Text := match cs.reverse with
    | last :: rest =>
      if !isBreak last then "-"
      else
        match rest with
        | before :: _ => if isBreak before then "+" else []
        | [] => "+"
    | [] => "-"
  indentation ++ ending

/-- The lines of a literal block. A break at the start of the text ends the line of the bar. -/
def literalLines (indent : Nat) : (afterBreak lineStart : Bool) → List Char → Text
  | _, _, [] => []
  | afterBreak, lineStart, c :: rest =>
    if isBreak c then ofChar c ++ literalLines indent true true rest
    else
      let pad : Text :=
        if afterBreak then (if lineStart then [] else "\n") ++ replicate indent 32 else []
      pad ++ ofChar c ++ literalLines indent false false rest

def literal (indent : Nat) (cs : List Char) : Written :=
  { text := "|" ++ literalHints cs ++ literalLines indent true false cs
    closed := cs.getLast?.any isBreak }

/-- A scalar in a style, with its later lines indented. -/
def scalar (style : ScalarStyle) (indent : Nat) (cs : List Char) : Written :=
  match style with
  | .plain => ⟨Text.ofChars cs, false⟩
  | .singleQuoted => ⟨singleQuoted indent cs, false⟩
  | .doubleQuoted => ⟨doubleQuoted cs, false⟩
  | _ => literal indent cs

end Written

namespace Scalar

/-- The words that older readers take for truth values. -/
def oldTruthWords : List Text :=
  ["y", "Y", "yes", "Yes", "YES", "on", "On", "ON", "n", "N", "no", "No", "NO", "off", "Off", "OFF"]

private def isFigure (b : UInt8) : Bool := 48 ≤ b && b ≤ 57

private def isFigureOrLow (b : UInt8) : Bool := isFigure b || b == 95

/-- One or two digits below sixty. -/
def isSexagesimalPart : Text → Bool
  | [a] => isFigure a
  | [a, b] => 48 ≤ a && a ≤ 53 && isFigure b
  | _ => false

/-- Whether older readers take a text for a number in base sixty. -/
def isSexagesimal (t : Text) : Bool :=
  let t := match t with
    | 43 :: rest => rest
    | 45 :: rest => rest
    | t => t
  let t := match cut? 46 t with
    | some (before, after) => if after.all isFigureOrLow then before else [58]
    | none => t
  match splitOn 58 t with
  | whole :: part :: parts =>
    (match whole with
      | b :: rest => isFigure b && rest.all isFigureOrLow
      | [] => false) && (part :: parts).all isSexagesimalPart
  | _ => false

/-- Whether a text that is written plain reads back as a text everywhere. -/
def readsAsText (t : Text) : Bool :=
  tagOf t == Tag.str && !isSexagesimal t && !oldTruthWords.contains t

/-- The base 64 form of bytes that are no text, in lines of seventy characters when it is long. -/
def binaryLines : Nat → Text → Text
  | 0, t => t
  | fuel + 1, t =>
    if t.isEmpty then [] else t.take 70 ++ "\n" ++ binaryLines fuel (t.drop 70)

def binary (t : Text) : Text :=
  let encoded := toBase64 t
  if encoded.length < 70 then encoded else binaryLines encoded.length encoded

/-- The style that is wanted for a text. -/
def wantedStyle (plain : Bool) (t : Text) : ScalarStyle :=
  if t.contains 10 then .literal else if plain then .plain else .doubleQuoted

end Scalar

end RecordSchema.Yaml
