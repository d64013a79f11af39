import RecordSchema.Command.Basic

/-!
# Help

What a command shows about itself: its description, how to call it, the commands below it and its
flags, in columns.
-/

namespace RecordSchema

open Text

namespace Flag

/-- What stands for the value of the flag. -/
def placeholder (f : Flag) : Text :=
  match f.kind with
  | .text => " string"
  | .number => " int"
  | .switch => []

/-- The flag as it is given. -/
def head (f : Flag) : Text :=
  let names : Text :=
    match f.letter with
    | some b => "  -" ++ [b] ++ ", --" ++ f.name
    | none => "      --" ++ f.name
  names ++ f.placeholder

/-- The description of the flag. -/
def description (f : Flag) : Text :=
  if f.default.isEmpty then f.usage else f.usage ++ " (default " ++ quoted f.default ++ ")"

/-- Lines about flags, ordered by name, with the descriptions below each other. -/
def lines (flags : List Flag) : List Text :=
  let sorted := flags.mergeSort fun a b => le a.name b.name
  let widest := sorted.foldl (fun n f => max n f.head.length) 0
  sorted.map fun f => f.head ++ replicate (widest - f.head.length + 3) 32 ++ f.description

end Flag

namespace Command

/-- A part of the usage with its title. -/
def part (title : Text) (lines : List Text) : List Text :=
  if lines.isEmpty then [] else [] :: title :: lines

/-- The least width of the column of command names. -/
def nameWidth : Nat := 11

/-- The commands below a command, ordered by name. -/
def childLines (c : Command) : List Text :=
  let sorted := c.children.mergeSort fun a b => le a.name b.name
  sorted.map fun child =>
    "  " ++ child.name ++ replicate (nameWidth - child.name.length + 1) 32 ++ child.short

/-- How to call a command, with `own` as its own flags. -/
def usageWith (own : List Flag) (c : Command) : Text :=
  let title : List Text := ["Usage:"]
  let call : List Text := if c.isRunnable then ["  " ++ c.useLine] else []
  let calls : List Text := if c.children.isEmpty then [] else ["  " ++ c.path ++ " [command]"]
  let flags : List Text :=
    if c = program then part "Flags:" (Flag.lines (own ++ globalFlags))
    else part "Flags:" (Flag.lines own) ++ part "Global Flags:" (Flag.lines globalFlags)
  let more : List Text :=
    if c.children.isEmpty then []
    else [[], "Use \"" ++ c.path ++ " [command] --help\" for more information about a command."]
  ofLines (title ++ call ++ calls ++ part "Available Commands:" c.childLines ++ flags ++ more)
    ++ "\n"

/-- How to call a command. -/
def usage (c : Command) : Text := c.usageWith (c.helpFlag :: c.ownFlags)

/-- The help of a command. -/
def helpText (c : Command) : Text := c.long ++ "\n\n" ++ c.usage

/-- The answer to a request for help about something that is no command. -/
def unknownTopic (args : List Text) : Text :=
  "Unknown help topic [" ++ join " " (args.map backquoted) ++ "]\n" ++ program.usageWith []

end Command

end RecordSchema
