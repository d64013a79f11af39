import RecordSchema.Command.Flag
import RecordSchema.Text.Distance
import RecordSchema.Text.LetterCase

/-!
# Commands

The program, its commands and their flags, with the texts that help shows about them.
-/

namespace RecordSchema

open Text

/-- Shells that completion scripts are made for. -/
inductive Shell where
  | bash
  | zsh
  | fish
  | powershell
  deriving DecidableEq, Repr

namespace Shell

def all : List Shell := [.bash, .zsh, .fish, .powershell]

def name : Shell → Text
  | bash => "bash"
  | zsh => "zsh"
  | fish => "fish"
  | powershell => "powershell"

end Shell

inductive Command where
  | program
  | generate
  | serve
  | validate
  | version
  | watch
  | help
  | completion
  | completionFor (shell : Shell)
  /-- Asks for the choices at the end of a command line, with or without descriptions. -/
  | request (described : Bool)
  deriving DecidableEq, Repr

/-- Lines as one text. -/
def ofLines (lines : List Text) : Text := join "\n" lines

namespace Command

def programName : Text := "judegen"

def name : Command → Text
  | program => programName
  | generate => "generate"
  | serve => "serve"
  | validate => "validate"
  | version => "version"
  | watch => "watch"
  | help => "help"
  | completion => "completion"
  | completionFor shell => shell.name
  | request _ => "__complete"

/-- The commands that scripts ask for choices, by what they are called. They are not shown. -/
def requests : List (Text × Command) :=
  [("__complete", request true), ("__completeNoDesc", request false)]

def isRequest : Command → Bool
  | request _ => true
  | _ => false

/-- The commands below a command, in the order in which they are looked through. -/
def children : Command → List Command
  | program => [generate, serve, validate, version, watch, help, completion]
  | completion => Shell.all.map completionFor
  | _ => []

/-- The names from the program to the command. -/
def path : Command → Text
  | program => programName
  | completionFor shell => programName ++ " completion " ++ shell.name
  | c => programName ++ " " ++ c.name

/-- Whether the command does something itself; the others only show their help. -/
def isRunnable : Command → Bool
  | program => false
  | completion => false
  | _ => true

/-- How the command is called, after the program's name. -/
def use : Command → Text
  | program => programName
  | generate => "generate <schema.yaml>..."
  | serve => "serve <schema.yaml>..."
  | validate => "validate <schema.yaml>..."
  | watch => "watch <schema.yaml>..."
  | help => "help [command]"
  | c => c.name

/-- The command line in its help. -/
def useLine : Command → Text
  | completionFor .bash => (completionFor .bash).path
  | completionFor shell => (completionFor shell).path ++ " [flags]"
  | c => programName ++ " " ++ c.use ++ " [flags]"

/-- One line about the command. -/
def short : Command → Text
  | program => "Compile YAML object schemas into storage descriptors"
  | generate => "Compile schemas and write descriptors"
  | serve => "Serve compiled descriptors over HTTP"
  | validate => "Check schemas without writing descriptors"
  | version => "Print version information"
  | watch => "Recompile schemas when they or their imports change"
  | help => "Help about any command"
  | completion => "Generate the autocompletion script for the specified shell"
  | completionFor shell => "Generate the autocompletion script for " ++ shell.name
  | request _ => "Request shell completion choices for the specified command-line"

def restartNote : Text := "You will need to start a new shell for this setup to take effect."

def shellLong : Shell → Text
  | .bash => ofLines
    ["Generate the autocompletion script for the bash shell.",
      "",
      "This script depends on the 'bash-completion' package.",
      "If it is not installed already, you can install it via your OS's package manager.",
      "",
      "To load completions in your current shell session:",
      "",
      "\tsource <(" ++ programName ++ " completion bash)",
      "",
      "To load completions for every new session, execute once:",
      "",
      "#### Linux:",
      "",
      "\t" ++ programName ++ " completion bash > /etc/bash_completion.d/" ++ programName,
      "",
      "#### macOS:",
      "",
      "\t" ++ programName ++ " completion bash > $(brew --prefix)/etc/bash_completion.d/" ++
        programName,
      "",
      restartNote]
  | .zsh => ofLines
    ["Generate the autocompletion script for the zsh shell.",
      "",
      "If shell completion is not already enabled in your environment you will need",
      "to enable it.  You can execute the following once:",
      "",
      "\techo \"autoload -U compinit; compinit\" >> ~/.zshrc",
      "",
      "To load completions in your current shell session:",
      "",
      "\tsource <(" ++ programName ++ " completion zsh)",
      "",
      "To load completions for every new session, execute once:",
      "",
      "#### Linux:",
      "",
      "\t" ++ programName ++ " completion zsh > \"$\x7bfpath[1]\x7d/_" ++ programName ++ "\"",
      "",
      "#### macOS:",
      "",
      "\t" ++ programName ++ " completion zsh > $(brew --prefix)/share/zsh/site-functions/_" ++
        programName,
      "",
      restartNote]
  | .fish => ofLines
    ["Generate the autocompletion script for the fish shell.",
      "",
      "To load completions in your current shell session:",
      "",
      "\t" ++ programName ++ " completion fish | source",
      "",
      "To load completions for every new session, execute once:",
      "",
      "\t" ++ programName ++ " completion fish > ~/.config/fish/completions/" ++ programName ++
        ".fish",
      "",
      restartNote]
  | .powershell => ofLines
    ["Generate the autocompletion script for powershell.",
      "",
      "To load completions in your current shell session:",
      "",
      "\t" ++ programName ++ " completion powershell | Out-String | Invoke-Expression",
      "",
      "To load completions for every new session, add the output of the above command",
      "to your powershell profile."]

/-- What help says about the command. -/
def long : Command → Text
  | program => ofLines
    ["judegen compiles YAML schema documents into field and layout descriptors.",
      "",
      "Each schema declares objects, enums, bitmasks, classes and databases, and may",
      "import other schema documents. judegen resolves types, allocates field tags,",
      "orders objects by dependency and computes struct layouts, then writes the",
      "result to <out>/<schema>/<schema>.<ext>.",
      "",
      "Quick start:",
      "  judegen generate shop.yaml       # Compile and write descriptors",
      "  judegen validate shop.yaml       # Check without writing",
      "  judegen watch shop.yaml          # Recompile on change",
      "  judegen serve shop.yaml          # Browse descriptors over HTTP"]
  | generate => ofLines
    ["Compile each schema document and write its descriptors.",
      "",
      "Output goes to <out>/<schema>/<schema>.<ext>. A file whose content is",
      "unchanged is not rewritten. A schema that fails to compile writes nothing.",
      "",
      "Examples:",
      "  judegen generate shop.yaml",
      "  judegen generate -f yaml -o build shop.yaml inventory.yaml",
      "  judegen generate --stdout shop.yaml"]
  | serve => ofLines
    ["Compile each schema document, write its descriptors and serve the",
      "last successful bundle over HTTP. Schemas are recompiled on change as in",
      "watch mode.",
      "",
      "Endpoints:",
      "  GET /health              Status of the served bundle",
      "  GET /bundle              The whole descriptor bundle",
      "  GET /objects             Object summaries",
      "  GET /objects/\x7bname\x7d      One object descriptor",
      "  GET /enums/\x7bname\x7d        One enum descriptor",
      "  GET /bitmasks/\x7bname\x7d     One bitmask descriptor",
      "  GET /databases/\x7bname\x7d    One database descriptor",
      "  GET /metrics             Prometheus metrics (with --metrics)",
      "",
      "Examples:",
      "  judegen serve shop.yaml",
      "  judegen serve --addr :9090 --metrics shop.yaml"]
  | validate => ofLines
    ["Load and resolve each schema document and report errors.",
      "",
      "Checks:",
      "  - YAML syntax and keyword keys are valid",
      "  - Imports resolve and do not form a cycle",
      "  - Types, classes and permissions resolve",
      "  - Field tags do not conflict",
      "  - Objects do not depend on each other cyclically",
      "",
      "Examples:",
      "  judegen validate shop.yaml",
      "  judegen validate schemas/*.yaml"]
  | version => short version
  | watch => ofLines
    ["Compile each schema document, then recompile whenever one of the",
      "loaded documents or the config file changes.",
      "",
      "Bursts of changes are debounced (watch.debounce) and sessions are spaced at",
      "least watch.min_interval apart. A failing session is logged and keeps the",
      "previous output.",
      "",
      "Examples:",
      "  judegen watch shop.yaml",
      "  judegen watch --log-level debug shop.yaml"]
  | help => ofLines
    ["Help provides help for any command in the application.",
      "Simply type " ++ programName ++ " help [path to command] for full details."]
  | completion => ofLines
    ["Generate the autocompletion script for " ++ programName ++ " for the specified shell.",
      "See each sub-command's help for details on how to use the generated script."]
  | completionFor shell => shellLong shell
  | request r => ofLines
    [(request r).name ++ " is a special command that is used by the shell completion logic",
      "to request completion choices for the specified command-line."]

/-! ## Flags -/

/-- The settings file that is looked for when none is named. -/
def settingsFile : Text := "judegen.yaml"

/-- The flags that every command takes. -/
def globalFlags : List Flag :=
  [{ name := "config", letter := some 99, usage := "config file path", default := settingsFile },
    { name := "log-format", usage := "log format: json or console" },
    { name := "log-level", usage := "log level: debug, info, warn, error" }]

/-- The flags of commands that compile schemas. -/
def outputFlags : List Flag :=
  [{ name := "format", letter := some 102, usage := "output format: json, yaml, table" },
    { name := "legacy", kind := .switch, usage := "legacy accessor naming" },
    { name := "metrics", kind := .switch, usage := "enable metrics" },
    { name := "out", letter := some 111, usage := "output directory" },
    { name := "pointer-size", kind := .number, usage := "pointer size in bytes: 4 or 8" }]

/-- The flags of the command itself, without that for help. -/
def ownFlags : Command → List Flag
  | generate =>
    outputFlags ++
      [{ name := "stdout", kind := .switch, usage := "print descriptors instead of writing files" }]
  | validate => outputFlags
  | watch => outputFlags
  | serve => { name := "addr", usage := "listen address (default from serve.addr)" } :: outputFlags
  | completionFor _ =>
    [{ name := "no-descriptions", kind := .switch, usage := "disable completion descriptions" }]
  | _ => []

def helpFlag (c : Command) : Flag :=
  { name := "help", letter := some 104, kind := .switch, usage := "help for " ++ c.name }

/-- All flags that the command takes. -/
def flags (c : Command) : List Flag := c.helpFlag :: c.ownFlags ++ globalFlags

/-- The variables that flags set. They win over the settings file, also when it is loaded again. -/
def flagVariables : List (Text × Text) :=
  [("out", "JUDEGEN_OUTPUT_DIR"), ("format", "JUDEGEN_OUTPUT_FORMAT"),
    ("legacy", "JUDEGEN_NAMING_LEGACY"), ("pointer-size", "JUDEGEN_LAYOUT_POINTER_SIZE"),
    ("log-level", "JUDEGEN_LOG_LEVEL"), ("log-format", "JUDEGEN_LOG_FORMAT"),
    ("metrics", "JUDEGEN_METRICS_ENABLED"), ("addr", "JUDEGEN_SERVE_ADDR")]

/-! ## Choosing a command -/

/-- Whether an argument is a flag that takes the next argument as its value, as far as the command
can tell. A flag that is not known is taken for one. -/
def takesNext (known : List Flag) (s : Text) : Bool :=
  if s.contains 61 then false
  else
    match s with
    | 45 :: 45 :: name => !known.any fun f => f.name == name && f.kind == .switch
    | [45, b] => !known.any fun f => f.letter == some b && f.kind == .switch
    | _ => false

/-- The arguments that are neither flags nor their values. -/
def plainArguments (known : List Flag) : List Text → List Text
  | [] => []
  | s :: rest =>
    if s = "--" then []
    else if takesNext known s then
      match rest with
      | _ :: more => if more.isEmpty then [] else plainArguments known more
      | [] => []
    else if s.isEmpty ∨ s.head? = some 45 then plainArguments known rest
    else s :: plainArguments known rest

/-- The arguments without the first plain one that is `name`. -/
def withoutFirst (known : List Flag) (name : Text) : List Text → List Text
  | [] => []
  | s :: rest =>
    if s = "--" then s :: rest
    else if takesNext known s then
      match rest with
      | v :: more => s :: v :: withoutFirst known name more
      | [] => [s]
    else if s = name then rest
    else s :: withoutFirst known name rest

/-- The flags that are known while commands are chosen, which does not include help. -/
def knownFlags (c : Command) : List Flag := c.ownFlags ++ globalFlags

/-- The command below a command with a name. Requests for choices can be left out. -/
def child? (hidden : Bool) (c : Command) (name : Text) : Option Command :=
  let request? := if hidden ∧ c = program then requests.lookup name else none
  request? <|> c.children.find? fun child => child.name == name

/-- The deepest command that the arguments name, with the arguments left for it. -/
def descend (hidden : Bool) : (depth : Nat) → Command → List Text → Command × List Text
  | 0, c, args => (c, args)
  | depth + 1, c, args =>
    match plainArguments c.knownFlags args with
    | [] => (c, args)
    | next :: _ =>
      match c.child? hidden next with
      | some child => descend hidden depth child (withoutFirst c.knownFlags next args)
      | none => (c, args)

/-- The names of commands that a mistyped name may have meant: those it starts, and those at most
two edits away, without regard to case. -/
def suggestions (typed : Text) : List Text :=
  (program.children.map name).filter fun n =>
    n != help.name &&
    (decide (distance (toLower typed) (toLower n) ≤ 2) || hasPrefix (toLower typed) (toLower n))

/-- A name that is no command. -/
structure Unknown where
  typed : Text
  deriving DecidableEq, Repr

/-- The hint for a mistyped name, empty if there is nothing to suggest. -/
def hint (typed : Text) : Text :=
  match suggestions typed with
  | [] => []
  | names =>
    let lines : List Text := names.map fun n => [9] ++ n ++ [10]
    "\n\nDid you mean this?\n" ++ lines.flatten

def Unknown.message (u : Unknown) : Text :=
  "unknown command " ++ quoted u.typed ++ " for " ++ quoted programName ++ hint u.typed

/-- The command that the arguments name, with the arguments left for it. -/
def find (hidden : Bool) (args : List Text) : Except Unknown (Command × List Text) :=
  let (c, left) := descend hidden 3 program args
  match c, plainArguments c.knownFlags left with
  | program, typed :: _ => .error ⟨typed⟩
  | _, _ => .ok (c, left)

end Command

end RecordSchema
