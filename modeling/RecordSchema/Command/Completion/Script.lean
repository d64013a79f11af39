import RecordSchema.Text.Utf8

/-!
# Scripts

A script is a list of lines in which single characters stand for what differs between programs: `§`
for the name of the program, `¤` for the name in a column of 36, `¶` for the command that the script
asks for choices, `‡` for the variable that turns hints off, and `†` for the address of known
issues. Braces are written `‹` and `›`.
-/

namespace RecordSchema.Completion

open Text

/-- What a mark stands for. -/
abbrev Marks := List (Char × Text)

/-- A line with every mark replaced. -/
def fillLine (marks : Marks) (line : String) : Text :=
  line.toList.flatMap fun c => (marks.lookup c).getD (ofChar c)

/-- The lines of a script with every mark replaced, each with a line break at its end. -/
def fill (marks : Marks) (lines : List String) : Text :=
  lines.flatMap fun line => fillLine marks line ++ "\n"

/-- Where issues with completion are described. -/
def issues : Text := "github.com/spf13/cobra/issues/"

/-- The marks of a program that is asked for choices by the command `request`, with `hints` as the
variable that turns hints off. -/
def marks (program request hints : Text) : Marks :=
  [('§', program), ('¤', program ++ replicate (36 - program.length) 32), ('¶', request),
    ('‡', hints), ('†', "https://" ++ issues), ('‹', "\x7b"), ('›', "\x7d")]

end RecordSchema.Completion
