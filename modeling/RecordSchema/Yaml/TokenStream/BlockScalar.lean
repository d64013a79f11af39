import RecordSchema.Yaml.TokenStream.Queue
import RecordSchema.Yaml.TokenStream.Space

/-!
# Block scalars

A literal scalar keeps its breaks and a folded one joins its lines. The indicators in the header say
how far the text is indented and what becomes of the breaks at its end.
-/

namespace RecordSchema.Yaml

open Character

namespace TokenStream

/-- What becomes of the breaks at the end of a block scalar. -/
inductive Chomping where
  | strip
  | clip
  | keep
  deriving DecidableEq

def chomping? : Char → Option Chomping
  | '+' => some .keep
  | '-' => some .strip
  | _ => none

/-- An indentation indicator, zero when there is none. -/
def indentation (start : Mark) : Scan Nat := do
  need 1
  let c ← peek
  if isDigit c then
    if c == '0' then refuse start .zeroIndentation
    skip
    return c.toNat - 48
  else return 0

/-- The indicators after `|` or `>`, in either order. -/
def blockHeader (start : Mark) : Scan (Chomping × Nat) := do
  need 1
  match chomping? (← peek) with
  | some chomp =>
    skip
    return (chomp, ← indentation start)
  | none =>
    let increment ← indentation start
    if increment = 0 then return (.clip, 0)
    need 1
    match chomping? (← peek) with
    | some chomp =>
      skip
      return (chomp, increment)
    | none => return (.clip, increment)

/-- Moves past indentation up to a column, or past all spaces when none is known yet. -/
def skipIndent (indent : Nat) : Nat → Scan Unit
  | 0 => return
  | fuel + 1 => do
    need 1
    let s ← get
    if (indent = 0 || s.mark.column < indent) && s.ahead.headD '\x00' == ' ' then
      skip
      skipIndent indent fuel

/-- The breaks of empty lines in front of a line of a block scalar, the widest indentation met, and
the place after the last break. -/
def blockBreaks (start : Mark) (indent : Nat) :
    Nat → Nat → List Char → Mark → Scan (Nat × List Char × Mark)
  | 0, widest, breaks, stop => return (widest, breaks, stop)
  | fuel + 1, widest, breaks, stop => do
    skipIndent indent ((← get).size + 1)
    let column := (← here).column
    let widest := max widest column
    if (indent = 0 || column < indent) && (← peek) == '\t' then refuse start .tabInIndentation
    if isBreak (← peek) then
      need 2
      let line ← nextLine
      blockBreaks start indent fuel widest (breaks ++ line) (← here)
    else return (widest, breaks, stop)

/-- The column of a block scalar: the widest indentation before its first line, and at least one
more than that of the collection around it. -/
def blockColumn (widest : Nat) (around : Int) : Nat :=
  max (max widest (around + 1).toNat) 1

/-- The breaks in front of a line of a block scalar, and its column. -/
def blockGap (start : Mark) (indent : Nat) : Scan (Nat × List Char × Mark) := do
  let s ← get
  let (widest, breaks, stop) ← blockBreaks start indent (s.size + 1) 0 [] s.mark
  return (if indent = 0 then blockColumn widest s.indent else indent, breaks, stop)

/-- The lines of a block scalar. `leading` is the break of the line before, `trailing` those of the
empty lines after it, and `spaced` tells whether that line started with a blank. -/
def blockLines (literal : Bool) (start : Mark) (indent : Nat) :
    Nat → List Char → List Char → List Char → Bool → Mark →
      Scan (List Char × List Char × List Char × Mark)
  | 0, acc, leading, trailing, _, stop => return (acc, leading, trailing, stop)
  | fuel + 1, acc, leading, trailing, spaced, stop => do
    let c ← peek
    if (← here).column = indent && !isEnd c then
      let blank := isBlank c
      let glue :=
        if !literal && !spaced && !blank && leading.head? == some '\n' then
          if trailing.isEmpty then [' '] else []
        else leading
      let line ← span fun c => !isBreak c
      need 2
      let leading ← nextLine
      let s ← get
      let (_, breaks, stop) ← blockBreaks start indent (s.size + 1) 0 [] s.mark
      blockLines literal start indent fuel
        (line.reverse ++ (trailing.reverse ++ (glue.reverse ++ acc))) leading breaks blank stop
    else return (acc, leading, trailing, stop)

def scanBlock (literal : Bool) : Scan Unit := do
  let start ← here
  skip
  let (chomp, increment) ← blockHeader start
  skipBlanks
  if (← peek) == '#' then lineComment start.index
  skipLineEnd start
  let s ← get
  let given := if increment = 0 then 0 else (max s.indent 0).toNat + increment
  let (indent, breaks, stop) ← blockGap start given
  let (acc, leading, trailing, stop) ←
    blockLines literal start indent (s.size + 1) [] [] breaks false stop
  let tail := match chomp with
    | .strip => []
    | .clip => leading
    | .keep => leading ++ trailing
  let style := if literal then ScalarStyle.literal else .folded
  push (.scalar (Text.ofChars (acc.reverse ++ tail)) style) start stop

end TokenStream

end RecordSchema.Yaml
