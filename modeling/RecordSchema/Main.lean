import RecordSchema.Command.Run

/-!
# The program

Runs the command line on the files of the system. A run is tried on the files that are known so far;
the files that it asks for are fetched, until it asks for no more. What it has written is stored
then.
-/

namespace RecordSchema.Terminal

open Text

/-- What the system has at a path. -/
def fetch (path : Text) : IO (Option DiskItem) := do
  try
    let bytes ← IO.FS.readBinFile path.shown
    return some (.file bytes.data.toList)
  catch
    | .noFileOrDirectory _ _ _ => return none
    | _ => return some .directory

/-- A disk with what the system has at a path. -/
def learn (disk : Disk) (path : Text) : IO Disk := do
  match ← fetch path with
  | some (.file content) => return disk.put path content
  | some .directory => return (disk.makeDirs path).2
  | none => return disk

/-- The values of variables that are set. -/
def valuesOf (names : List Text) : IO Environment :=
  names.filterMapM fun name => do
    return (← IO.getEnv name.shown).map fun value => (name, Text.ofString value)

/-- The environment as far as settings depend on it. -/
def environment (disk : Disk) (args : List Text) : IO Environment := do
  let settings := (disk.read (Command.settingsPath args)).toOption.getD []
  valuesOf (Environment.overrides.map Prod.fst ++ Environment.mentioned settings ++
    Command.debugVariable :: Command.descriptionVariables)

def name (n : Nat) : Text := "session-" ++ ofNat n

/-- Runs the program on more and more files. -/
partial def settle (clock : Clock) (args : List Text) (known : List Text) (disk : Disk) :
    IO (Ran × Disk) := do
  let ran := Command.run (Command.machine name) (← environment disk args) clock args disk
  let missing := (Command.needed args ran).eraseDups.filter fun p => !known.contains p
  if missing.isEmpty then return (ran, disk)
  else settle clock args (known ++ missing) (← missing.foldlM learn disk)

/-- Stores a file together with the directories above it. -/
def store (file : Text × Text) : IO Unit := do
  IO.FS.createDirAll (Path.dir file.1).shown
  IO.FS.writeBinFile file.1.shown ⟨file.2.toArray⟩

def print (stream : IO.FS.Stream) (t : Text) : IO Unit := do
  stream.write ⟨t.toArray⟩
  stream.flush

/-- A run of the program. Answers the exit code. -/
def run (args : List Text) : IO UInt32 := do
  let clock : Clock := ⟨(← IO.monoNanosNow), 0⟩
  let (ran, before) ← settle clock args [] {}
  (ran.disk.filesBeside before).forM store
  print (← IO.getStdout) ran.out
  print (← IO.getStderr) ran.remark
  match ran.failure with
  | none => return 0
  | some e =>
    print (← IO.getStderr) (e.report ++ e.message ++ "\n")
    return 1

end RecordSchema.Terminal

def main (args : List String) : IO UInt32 :=
  RecordSchema.Terminal.run (args.map RecordSchema.Text.ofString)
