import RecordSchema.Command.Basic

/-!
# Choices

What can go on at the end of a command line: the names of commands or of flags, with their
descriptions. The last argument is the word being typed. A flag in front of it that takes a value
takes the word, and no choices are known for values.
-/

namespace RecordSchema

open Text

/-- What a shell does when it has shown the choices. -/
inductive Directive where
  /-- It completes names of files if there are no choices. -/
  | files
  | noFiles
  deriving DecidableEq, Repr

namespace Directive

def code : Directive → Nat
  | files => 0
  | noFiles => 4

def name : Directive → Text
  | files => "ShellCompDirectiveDefault"
  | noFiles => "ShellCompDirectiveNoFileComp"

end Directive

/-- Why there are no choices for a command line. -/
inductive ChoiceError where
  | noCommand (args : List Text)
  | flags (args : List Text) (cause : FlagError)
  | unsupported (command flag : Text)
  deriving DecidableEq, Repr

namespace ChoiceError

def listed (args : List Text) : Text := "[" ++ join " " args ++ "]"

def message : ChoiceError → Text
  | noCommand args => "unable to find a command for arguments: " ++ listed args
  | flags args cause =>
    "Error while parsing flags from args " ++ listed args ++ ": " ++ cause.message
  | unsupported command flag =>
    "Subcommand '" ++ command ++ "' does not support flag '" ++ flag ++ "'"

end ChoiceError

/-- Choices, each with its description. -/
structure Choices where
  choices : List (Text × Text) := []
  directive : Directive
  error : Option ChoiceError := none
  /-- Whether descriptions are wanted, if the command line is itself a request. -/
  described : Option Bool := none
  deriving DecidableEq, Repr

namespace Choices

/-- The choices as a shell reads them. -/
def render (described : Bool) (c : Choices) : Text :=
  let line (choice : Text × Text) : Text :=
    if described then choice.1 ++ "\t" ++ choice.2 ++ "\n" else choice.1 ++ "\n"
  c.choices.flatMap line ++ ":" ++ ofNat c.directive.code ++ "\n"

end Choices

namespace Command

/-- The word being typed, with the arguments in front of it that count. -/
structure Typing where
  /-- The flag whose value the word is. -/
  flag : Option Flag := none
  args : List Text
  word : Text
  /-- A flag that the command does not have. -/
  unsupported : Option Text := none
  deriving DecidableEq, Repr

/-- The flag with a name, or with a letter if the name is only one byte. -/
def flagNamed? (c : Command) (name : Text) : Option Flag :=
  match name with
  | [b] => c.flags.find? fun f => f.letter == some b
  | name => c.flags.find? fun f => f.name == name

/-- Whether an argument is a flag. -/
def isFlag (s : Text) : Bool :=
  match s with
  | 45 :: 45 :: _ :: _ => true
  | 45 :: b :: _ => b != 45
  | _ => false

/-- The name of the flag that an argument without a value ends with. -/
def flagIn (s : Text) : Text := if hasPrefix "--" s then s.drop 2 else s.drop (s.length - 1)

/-- Finds out whether a word is the value of a flag: after an equals sign in the word itself, or
after a flag that needs a value. -/
def typing (c : Command) (args : List Text) (word : Text) : Typing :=
  let begins := word.head? == some 45
  if c.isRequest || (begins && !word.contains 61) then { args, word }
  else
    let (inside, value) : Option Text × Text :=
      match begins, cut? 61 word with
      | true, some (before, after) => (some (flagIn before), after)
      | _, _ => (none, word)
    let before? : Option Text :=
      args.getLast?.bind fun s => if isFlag s ∧ !s.contains 61 then some (flagIn s) else none
    let (name, left) : Text × List Text :=
      match inside, before? with
      | some (b :: name), _ => (b :: name, args)
      | _, some name => (name, args.dropLast)
      | _, none => ([], args)
    if name.isEmpty then { args := left, word := value }
    else
      match c.flagNamed? name with
      | none => { args, word, unsupported := some name }
      | some f =>
        if inside.isNone ∧ f.kind = .switch then { args, word := value }
        else { flag := some f, args := left, word := value }

/-- Commands below a command that a word begins, by name. -/
def childChoices (c : Command) (word : Text) : List (Text × Text) :=
  let sorted := c.children.mergeSort fun a b => le a.name b.name
  (sorted.filter fun child => hasPrefix word child.name).map fun child => (child.name, child.short)

/-- The ways of giving a flag that a word begins. -/
def flagChoices (word : Text) (f : Flag) : List (Text × Text) :=
  let letter : List Text := f.letter.toList.map fun b => [45, b]
  let forms : List Text := ("--" ++ f.name) :: letter
  (forms.filter fun form => hasPrefix word form).map fun form => (form, f.usage)

/-- The flags of a command in the order in which they are offered: those that every command takes
come first, except for the program itself. -/
def offeredFlags (c : Command) : List Flag :=
  let sorted (flags : List Flag) := flags.mergeSort fun a b => le a.name b.name
  let own := c.helpFlag :: c.ownFlags
  if c = program then sorted (own ++ globalFlags) else sorted globalFlags ++ sorted own

/-- The choices that a command gives itself: help offers commands, and what makes scripts takes no
files. -/
def ownChoices? (c : Command) (args : List Text) (word : Text) : Option (List (Text × Text)) :=
  match c with
  | .help =>
    match find true args with
    | .ok (topic, _) => some (topic.childChoices word)
    | .error _ => some []
  | .completion => some []
  | .completionFor _ => some []
  | _ => none

/-- The choices for a word after arguments of a command. `dashed` tells whether flags have been
ended by `--`, and `given` are the flags that the arguments set. -/
def choicesFor (c : Command) (t : Typing) (dashed : Bool) (given : Keyed Text) (rest : List Text) :
    Choices :=
  if t.flag.isNone ∧ t.word.head? = some 45 ∧ !t.word.contains 61 ∧ !dashed then
    let offered := c.offeredFlags.filter fun f => (given.lookup f.name).isNone
    { choices := offered.flatMap (flagChoices t.word), directive := .noFiles }
  else
    let children := t.flag.isNone && rest.isEmpty
    let below := if children then c.childChoices t.word else []
    let own := if t.flag.isSome ∧ !dashed then none else c.ownChoices? rest t.word
    match own with
    | some more => { choices := below ++ more, directive := .noFiles }
    | none =>
      { choices := below
        directive := if children && !c.children.isEmpty then .noFiles else .files }

/-- The choices for the last argument of a command line. -/
def choices (args : List Text) : Choices :=
  let before := args.dropLast
  match find true before with
  | .error _ => { directive := .files, error := some (.noCommand before) }
  | .ok (c, left) =>
    let t := c.typing left (args.getLast?.getD [])
    match c with
    | .request described =>
      { c.choicesFor t false [] t.args with described := some described }
    | c =>
      match Arguments.read c.flags t.args with
      | .error e => { directive := .files, error := some (.flags t.args e) }
      | .ok a =>
        let counted :=
          (Arguments.read c.flags (t.args ++ [("--" : Text)])).toOption.map fun a => a.rest.length
        let dashed := counted.any fun n => a.rest.length < n
        match t.unsupported, dashed with
        | some flag, false =>
          { directive := .files, error := some (.unsupported c.name flag) }
        | _, _ =>
          if (a.value? "help").isSome then { directive := .noFiles }
          else c.choicesFor t dashed a.values a.rest

end Command

end RecordSchema
