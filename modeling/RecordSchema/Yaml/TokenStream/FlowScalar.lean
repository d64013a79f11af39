import RecordSchema.Yaml.TokenStream.Queue

/-!
# Quoted and plain scalars

These scalars fold their lines: the blanks around a break are dropped, one break is a space, and of
several the first is dropped.
-/

namespace RecordSchema.Yaml

open Character

namespace TokenStream

/-- The breaks between two lines of text: one break is a space, and of several the first is dropped,
unless it separates lines or paragraphs. -/
def fold (leading trailing : List Char) : List Char :=
  match leading with
  | '\n' :: _ => if trailing.isEmpty then [' '] else trailing
  | _ => leading ++ trailing

/-- The blanks and breaks after a piece of a flow scalar. -/
structure Gap where
  /-- Whether a break has been met, so that blanks are indentation. -/
  broken : Bool := false
  blanks : List Char := []
  leading : List Char := []
  trailing : List Char := []

/-- Moves past blanks and breaks. In a plain scalar a tab may not stand in the indentation. -/
def scanGap (plain : Option (Mark × Int)) : Nat → Gap → Scan Gap
  | 0, g => return g
  | fuel + 1, g => do
    need 1
    let c ← peek
    if isBlank c then
      match plain with
      | some (start, column) =>
        if g.broken && ((← here).column : Int) < column && c == '\t' then
          refuse start .tabBeforePlain
      | none => pure ()
      skip
      scanGap plain fuel (if g.broken then g else { g with blanks := g.blanks ++ [c] })
    else if isBreak c then
      need 2
      let line ← nextLine
      scanGap plain fuel
        (if g.broken then { g with trailing := g.trailing ++ line }
         else { g with broken := true, blanks := [], leading := line })
    else return g

/-- Whether a document indicator starts at the current place. -/
def atDocumentIndicator : Scan Bool := do
  need 4
  let s ← get
  let three := s.ahead.take 3
  return s.mark.column = 0 && (three == "---".toList || three == "...".toList) &&
    isBlankOrEnd (← peekAt 3)

/-- The number that `n` hexadecimal digits at the front stand for. -/
def hexCode (start : Mark) (n : Nat) : Scan Nat := do
  need n
  let digits := (← get).ahead.take n
  match digits.mapM hexValue? with
  | some values =>
    if values.length < n then refuse start .expectedHexadecimal
    return values.foldl (fun acc v => acc * 16 + v) 0
  | none => refuse start .expectedHexadecimal

/-- The characters that a simple escape stands for. -/
def escape? (c : Char) : Option Char :=
  match c with
  | '0' => some '\x00'
  | 'a' => some '\x07'
  | 'b' => some '\x08'
  | 't' => some '\t'
  | '\t' => some '\t'
  | 'n' => some '\n'
  | 'v' => some '\x0b'
  | 'f' => some '\x0c'
  | 'r' => some '\r'
  | 'e' => some '\x1b'
  | ' ' => some ' '
  | '"' => some '"'
  | '\'' => some '\''
  | '\\' => some '\\'
  | 'N' => some '\u0085'
  | '_' => some '\u00a0'
  | 'L' => some '\u2028'
  | 'P' => some '\u2029'
  | _ => none

/-- The number of digits of a numeric escape. -/
def escapeLength? (c : Char) : Option Nat :=
  match c with
  | 'x' => some 2
  | 'u' => some 4
  | 'U' => some 8
  | _ => none

/-- The character of an escape in a double-quoted scalar. -/
def scanEscape (start : Mark) : Scan Char := do
  let c ← peekAt 1
  match escape? c, escapeLength? c with
  | some d, _ =>
    skip
    skip
    return d
  | none, some n =>
    skip
    skip
    let code ← hexCode start n
    if (0xD800 ≤ code && code ≤ 0xDFFF) || 0x10FFFF < code then refuse start .invalidEscapeCode
    for _ in [0:n] do skip
    return Char.ofNat code
  | none, none => refuse start .unknownEscape

/-- The characters of a quoted scalar up to a blank, a break or the closing quote, the last one
first, and whether an escaped break came after them. -/
def quotedRun (single : Bool) (start : Mark) : Nat → List Char → Scan (List Char × Bool)
  | 0, acc => return (acc, false)
  | fuel + 1, acc => do
    let c ← peek
    let d ← peekAt 1
    if isBlankOrEnd c then return (acc, false)
    else if single && c == '\'' && d == '\'' then
      skip
      skip
      need 2
      quotedRun single start fuel ('\'' :: acc)
    else if (single && c == '\'') || (!single && c == '"') then return (acc, false)
    else if !single && c == '\\' && isBreak d then
      need 3
      skip
      skipLine
      return (acc, true)
    else if !single && c == '\\' then
      let e ← scanEscape start
      need 2
      quotedRun single start fuel (e :: acc)
    else
      skip
      need 2
      quotedRun single start fuel (c :: acc)

/-- The text of a quoted scalar after its opening quote, the last character first. -/
def quotedText (single : Bool) (start : Mark) : Nat → List Char → Scan (List Char)
  | 0, acc => return acc
  | fuel + 1, acc => do
    if ← atDocumentIndicator then refuse start .documentIndicatorInQuotes
    if isEnd (← peek) then refuse start .endInQuotes
    let (acc, escaped) ← quotedRun single start ((← get).size + 1) acc
    need 1
    if (← peek) == (if single then '\'' else '"') then return acc
    let g ← scanGap none ((← get).size + 1) { broken := escaped }
    let joined := if g.broken then fold g.leading g.trailing else g.blanks
    quotedText single start fuel (joined.reverse ++ acc)

def scanQuoted (single : Bool) : Scan Unit := do
  let start ← here
  skip
  let acc ← quotedText single start ((← get).size + 2) []
  skip
  let style := if single then ScalarStyle.singleQuoted else .doubleQuoted
  push (.scalar (Text.ofChars acc.reverse) style) start (← here)

/-- The characters of a plain scalar up to a blank or an indicator that ends it, the last one
first. -/
def plainRun (inFlow : Bool) : Nat → List Char → Scan (List Char)
  | 0, acc => return acc
  | fuel + 1, acc => do
    let c ← peek
    if isBlankOrEnd c || (c == ':' && isBlankOrEnd (← peekAt 1)) ||
        (inFlow && isFlowIndicator c) then
      return acc
    else
      skip
      need 2
      plainRun inFlow fuel (c :: acc)

/-- The text of a plain scalar, the last character first, the place after its last character, and
whether breaks follow it. -/
def plainText (start : Mark) (inFlow : Bool) (column : Int) :
    Nat → List Char → Mark → Gap → Scan (List Char × Mark × Bool)
  | 0, acc, stop, g => return (acc, stop, g.broken)
  | fuel + 1, acc, stop, g => do
    if (← atDocumentIndicator) || (← peek) == '#' then return (acc, stop, g.broken)
    else
      let run ← plainRun inFlow ((← get).size + 1) []
      let joined := if g.broken then fold g.leading g.trailing else g.blanks
      let moved := !run.isEmpty
      let acc := if moved then run ++ (joined.reverse ++ acc) else acc
      let after ← here
      let stop := if moved then after else stop
      let g := if moved then {} else g
      let c ← peek
      if !(isBlank c || isBreak c) then return (acc, stop, g.broken)
      else
        let g ← scanGap (some (start, column)) ((← get).size + 1) g
        if !inFlow && ((← here).column : Int) < column then return (acc, stop, g.broken)
        else plainText start inFlow column fuel acc stop g

def scanPlain : Scan Unit := do
  let s ← get
  let (acc, stop, broken) ←
    plainText s.mark (0 < s.flowLevel) (s.indent + 1) (s.size + 2) [] s.mark {}
  push (.scalar (Text.ofChars acc.reverse) .plain) s.mark stop
  if broken then allowKey true

end TokenStream

end RecordSchema.Yaml
