import RecordSchema.App
import RecordSchema.Command.Completion.Bash
import RecordSchema.Command.Completion.Choices
import RecordSchema.Command.Completion.Fish
import RecordSchema.Command.Completion.Powershell
import RecordSchema.Command.Completion.Zsh
import RecordSchema.Command.Help

/-!
# Running commands

A run of the program on a disk, with its arguments and its environment. Flags become variables of
the environment before the settings are loaded.
-/

namespace RecordSchema

open Text

/-- Why a command fails. -/
inductive CommandError where
  | unknown (cause : Command.Unknown)
  | flag (cause : FlagError)
  | tooFew (given : Nat)
  /-- An argument where none is taken. -/
  | unexpected (argument : Text) (command : Command)
  | settings (cause : SettingsError)
  | session (cause : SessionError)
  | invalid (failed total : Nat)
  deriving Repr

namespace CommandError

def message : CommandError → Text
  | unknown cause => cause.message
  | flag cause => cause.message
  | tooFew given => "requires at least 1 arg(s), only received " ++ ofNat given
  | unexpected argument c => "unknown command " ++ quoted argument ++ " for " ++ quoted c.path
  | settings cause => "load config: " ++ cause.message
  | session cause => cause.message
  | invalid failed total => ofNat failed ++ " of " ++ ofNat total ++ " schemas invalid"

/-- What is printed about a failure. After an unknown command help is pointed to. -/
def report (e : CommandError) : Text :=
  let pointer : Text :=
    match e with
    | unknown _ => "Run '" ++ Command.programName ++ " --help' for usage.\n"
    | _ => []
  "Error: " ++ e.message ++ "\n" ++ pointer

end CommandError

/-- What a command leaves behind. -/
structure Ran where
  /-- What was printed. -/
  out : Text := []
  /-- What was printed beside that for the reader only. -/
  remark : Text := []
  failure : Option CommandError := none
  disk : Disk
  /-- The sessions that were run. -/
  sessions : List Session := []
  deriving Repr

namespace Command

/-- A mark before what went well. -/
def checkMark : Text := "\x1b[32m✓\x1b[0m"

/-- A mark before what failed. -/
def crossMark : Text := "\x1b[31m✗\x1b[0m"

def versionText : Text := ofLines ["judegen dev", "  commit:  none", "  built:   unknown", ""]

/-- The surroundings of the program: documents, output and settings on one disk. -/
def machine (identify : Nat → Text) (arrange : Nat → Arrangement := .alternating) :
    Machine Disk where
  storage := .disk
  identify := identify
  arrange := arrange
  disk d := d
  setDisk d _ := d

/-- The environment with the flags that were given put into variables. -/
def withFlags (a : Arguments) (env : Environment) : Environment :=
  flagVariables.foldl (fun env v =>
    match a.value? v.1 with
    | some value => Keyed.set v.2 value env
    | none => env) env

/-- Prints what is left of a session that wrote a file. -/
def writtenLine (s : Session) : Text :=
  let status : Text := if s.written then "written" else "unchanged"
  "  " ++ checkMark ++ " " ++ s.path ++ " (" ++ status ++ ")\n"

/-- Compiles documents in order up to the first failure, and writes or prints their descriptors. -/
def generateAll (m : Machine Disk) (print : Bool) :
    List Text → Text → List Session → App Disk → Ran
  | [], out, sessions, a => { out, sessions, disk := a.service.state }
  | root :: rest, out, sessions, a =>
    let (s, a) := a.run m (!print) false root
    let sessions := sessions ++ [s]
    match s.failure with
    | some e => { out, sessions, disk := a.service.state, failure := some (.session e) }
    | none =>
      generateAll m print rest (out ++ (if print then s.output else writtenLine s)) sessions a

/-- What is printed about a document that was checked. -/
def checkedLines (root : Text) (s : Session) : Text :=
  match s.failure, s.bundle with
  | none, some b =>
    "  " ++ checkMark ++ " " ++ root ++ ": " ++ ofNat b.objects.length ++ " objects, " ++
      ofNat b.enums.length ++ " enums, " ++ ofNat b.bitmasks.length ++ " bitmasks, " ++
      ofNat b.databases.length ++ " databases (" ++ ofNat s.documents ++ " documents)\n"
  | some e, _ => "  " ++ crossMark ++ " " ++ root ++ "\n      Error: " ++ e.message ++ "\n"
  | none, none => []

/-- Checks documents in order, all of them. -/
def validateAll (m : Machine Disk) :
    List Text → Text → List Session → App Disk → Text × List Session × App Disk
  | [], out, sessions, a => (out, sessions, a)
  | root :: rest, out, sessions, a =>
    let (s, a) := a.run m false false root
    validateAll m rest (out ++ checkedLines root s) (sessions ++ [s]) a

/-- The lines of the script for a shell. -/
def scriptLines : Shell → List String
  | .bash => Completion.Bash.lines
  | .zsh => Completion.Zsh.lines
  | .fish => Completion.Fish.lines
  | .powershell => Completion.Powershell.lines

/-- The script that makes a shell complete command lines of the program. -/
def script (shell : Shell) (described : Bool) : Text :=
  let request : Text := if described then "__complete" else "__completeNoDesc"
  Completion.fill (Completion.marks programName request "JUDEGEN_ACTIVE_HELP") (scriptLines shell)

/-- The variables that can turn descriptions off, the first one that is not empty counts. -/
def descriptionVariables : List Text :=
  ["JUDEGEN_COMPLETION_DESCRIPTIONS", "COBRA_COMPLETION_DESCRIPTIONS"]

/-- Whether choices are wanted with their descriptions. -/
def wantsDescriptions (env : Environment) : Bool :=
  let values := descriptionVariables.filterMap fun name => env.lookup name
  match values.find? fun v => !v.isEmpty with
  | some v => !FlagKind.falseWords.contains v
  | none => true

/-- The variable that names a file for what went wrong with a request. -/
def debugVariable : Text := "BASH_COMP_DEBUG_FILE"

/-- Answers a request for choices. A request within the request tells whether they are described. -/
def answer (described : Bool) (args : List Text) (env : Environment) (disk : Disk) : Ran :=
  let c := choices args
  let disk :=
    match c.error, env.lookup debugVariable with
    | some e, some path => disk.append path ("[Debug] [Error] " ++ e.message ++ "\n")
    | _, _ => disk
  { disk
    out := c.render (c.described.getD described && wantsDescriptions env)
    remark := "Completion ended with directive: " ++ c.directive.name ++ "\n" }

/-- Runs a command whose arguments have been read. Watching and serving go on outside. -/
def perform (c : Command) (a : Arguments) (m : Machine Disk) (env : Environment) (clock : Clock)
    (disk : Disk) : Ran :=
  let started : Except CommandError (App Disk) :=
    let path := (a.value? "config").getD settingsFile
    match App.start m (withFlags a env) path clock disk with
    | .ok app => .ok app
    | .error e => .error (.settings e)
  match c with
  | .generate =>
    match started with
    | .error e => { disk, failure := some e }
    | .ok app => generateAll m (a.isOn "stdout") a.rest [] [] app
  | .validate =>
    match started with
    | .error e => { disk, failure := some e }
    | .ok app =>
      let (out, sessions, app) := validateAll m a.rest [] [] app
      let failed := (sessions.filter fun s => s.failure.isSome).length
      { out, sessions, disk := app.service.state
        failure := if failed = 0 then none else some (.invalid failed a.rest.length) }
  | .watch =>
    match started with
    | .error e => { disk, failure := some e }
    | .ok _ => { disk }
  | .serve =>
    match started with
    | .error e => { disk, failure := some e }
    | .ok _ => { disk }
  | .version => { disk, out := versionText }
  | .help =>
    match find false a.rest with
    | .ok (topic, _) => { disk, out := topic.helpText }
    | .error _ => { disk, out := unknownTopic a.rest }
  | .completionFor shell => { disk, out := script shell (!a.isOn "no-descriptions") }
  | .program => { disk }
  | .completion => { disk }
  | .request _ => { disk }

/-- Why a command does not take its arguments. -/
def refused? (c : Command) (rest : List Text) : Option CommandError :=
  match c with
  | .generate | .validate | .watch | .serve => if rest.isEmpty then some (.tooFew 0) else none
  | .completionFor _ => rest.head?.map fun s => .unexpected s c
  | _ => none

/-- Runs the program. -/
def run (m : Machine Disk) (env : Environment) (clock : Clock) (args : List Text) (disk : Disk) :
    Ran :=
  match find true args with
  | .error e => { disk, failure := some (.unknown e) }
  | .ok (.request described, left) =>
    if left.isEmpty then { disk, failure := some (.tooFew 0) }
    else answer described left env disk
  | .ok (c, left) =>
    match Arguments.read c.flags left with
    | .error e => { disk, failure := some (.flag e) }
    | .ok a =>
      if a.isOn "help" ∨ !c.isRunnable then { disk, out := c.helpText }
      else
        match refused? c a.rest with
        | some e => { disk, failure := some e }
        | none => c.perform a m env clock disk

/-- The file that settings are taken from. -/
def settingsPath (args : List Text) : Text :=
  match find true args with
  | .error _ => settingsFile
  | .ok (c, left) =>
    match Arguments.read c.flags left with
    | .error _ => settingsFile
    | .ok a => (a.value? "config").getD settingsFile

/-- The paths whose content a run depends on, as far as it got. -/
def needed (args : List Text) (r : Ran) : List Text :=
  settingsPath args :: r.sessions.flatMap fun s =>
    if s.path.isEmpty then s.sources else s.sources ++ [s.path]

end Command

end RecordSchema
