import RecordSchema.Text.Utf8

/-!
# Aligned columns

A table is a text whose cells end with tabs. In a run of neighbouring lines that all have a cell in
a column, the cell is padded to the widest one of the run and two blanks. What follows the last tab
of a line is not padded. A line without tabs ends all runs.
-/

namespace RecordSchema.Columns

open Text

/-- The blanks after the widest cell of a column. -/
def padding : Nat := 2

/-- The cells of a line; the last one is not in a column. -/
abbrev Line := List Text

/-- Whether a byte ends a cell. A vertical tab does so like a tab. -/
def endsCell (b : UInt8) : Bool := b == 9 || b == 11

/-- Whether a byte ends a line. -/
def endsLine (b : UInt8) : Bool := b == 10 || b == 12

/-- The lines of a text, each with whether the runs of columns end after it: lines of a single
cell, and lines that end with a form feed. `cell` holds the bytes of the current cell, the last one
first. -/
def split : Text → (cell : Text) → (line : Line) → List (Line × Bool)
  | [], cell, line => if cell.isEmpty ∧ line.isEmpty then [] else [(line ++ [cell.reverse], true)]
  | b :: rest, cell, line =>
    if endsCell b then split rest [] (line ++ [cell.reverse])
    else if endsLine b then
      (line ++ [cell.reverse], line.isEmpty || b == 12) :: split rest [] []
    else split rest (b :: cell) line

/-- Groups of lines that are aligned together. -/
def groups : List (Line × Bool) → List (List Line)
  | [] => []
  | (line, last) :: rest =>
    if last then [line] :: groups rest
    else
      match groups rest with
      | [] => [[line]]
      | g :: gs => (line :: g) :: gs

/-- For each line of a group the widest cell of a column from there to the end of the run, nothing
where a line has no cell in it. -/
def widestAhead (column : Nat) : List Line → List (Option Nat)
  | [] => []
  | line :: rest =>
    let ahead := widestAhead column rest
    match line.dropLast[column]? with
    | none => none :: ahead
    | some cell => some (max (width cell) (ahead.head?.join.getD 0)) :: ahead

/-- The width of a run, which its first line knows, in all of its lines. -/
def spread : (run : Nat) → List (Option Nat) → List (Option Nat)
  | _, [] => []
  | _, none :: rest => none :: spread 0 rest
  | run, some w :: rest => some (max run w + padding) :: spread (max run w) rest

/-- The width of a column in each line of a group. -/
def widths (column : Nat) (g : List Line) : List (Option Nat) := spread 0 (widestAhead column g)

/-- A cell with blanks up to a width. -/
def padded (cell : Text) (w : Nat) : Text := cell ++ replicate (w - width cell) 32

/-- A line with the widths of its columns. -/
def render (line : Line) (ws : List Nat) : Text :=
  let cells := line.dropLast.zipWith padded ws
  cells.flatten ++ line.getLastD [] ++ [10]

/-- The lines of a group, given the widths of each column. -/
def rows : List Line → List (List (Option Nat)) → Text
  | [], _ => []
  | line :: rest, table =>
    render line (table.filterMap fun column => column.head?.join) ++ rows rest (table.map List.tail)

/-- The lines of a group with their columns aligned. -/
def align (g : List Line) : Text :=
  let columns := g.foldl (fun n l => max n (l.length - 1)) 0
  rows g ((List.range columns).map fun column => widths column g)

/-- A text with its columns aligned. -/
def format (t : Text) : Text := (groups (split t [] [])).flatMap align

end RecordSchema.Columns
