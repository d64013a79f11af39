import RecordSchema.Text.Path

/-!
# A disk

Files and directories by place. A path is followed part by part from the working directory, or from
the root if it starts with a slash. Every part but the last has to be a directory, and a trailing
slash asks for one as well. The working directory, the root and the directories above the working
directory always exist.
-/

namespace RecordSchema

open Text

/-- Why the system refuses. -/
inductive Refusal where
  | missing
  | isDirectory
  | notDirectory
  | taken
  | invalid
  | tooLong
  deriving DecidableEq, Repr

def Refusal.message : Refusal → Text
  | .missing => "no such file or directory"
  | .isDirectory => "is a directory"
  | .notDirectory => "not a directory"
  | .taken => "file exists"
  | .invalid => "invalid argument"
  | .tooLong => "file name too long"

/-- A refused action on a path. -/
structure DiskError where
  action : Text
  path : Text
  reason : Refusal
  deriving DecidableEq, Repr

def DiskError.message (e : DiskError) : Text :=
  e.action ++ " " ++ e.path ++ ": " ++ e.reason.message

/-- The names from the working directory to a file or directory. The root is `/`, and `..` leads up
from the working directory. -/
abbrev Place := List Text

namespace Place

def root : Place := [[Path.slash]]

/-- Places that are always directories. -/
def isGround (p : Place) : Bool := p == root || p.all (· == Path.dotdot)

def parent (p : Place) : Place :=
  if p = root then root
  else if p.all (· == Path.dotdot) then p ++ [Path.dotdot]
  else p.dropLast

/-- The path of a place from the working directory. -/
def path (p : Place) : Text :=
  match p with
  | first :: rest =>
    if first = [Path.slash] then first ++ join [Path.slash] rest else join [Path.slash] p
  | [] => Path.dot

/-- Whether a place lies below the working directory. -/
def isInside (p : Place) : Bool := p.head? != some Path.dotdot && p.head? != some [Path.slash]

/-- The place that a part of a path leads to. -/
def step (p : Place) (part : Text) : Place :=
  if part = Path.dot then p else if part = Path.dotdot then p.parent else p ++ [part]

end Place

inductive DiskItem where
  | file (content : Text)
  | directory
  deriving DecidableEq, Repr

structure Disk where
  items : List (Place × DiskItem) := []
  deriving DecidableEq, Repr

namespace Disk

def item? (d : Disk) (p : Place) : Option DiskItem :=
  if p.isGround then some .directory else d.items.lookup p

def isDirectory (d : Disk) (p : Place) : Bool := d.item? p == some .directory

/-- Puts an item at a place in place of what is there. -/
def set (d : Disk) (p : Place) (i : DiskItem) : Disk :=
  { items := (p, i) :: d.items.filter fun e => e.1 != p }

/-- The longest path and the longest part of one. -/
def pathLimit : Nat := 4095

def nameLimit : Nat := 255

/-- Follows parts through directories. -/
def descend (d : Disk) : Place → List Text → Except Refusal Place
  | p, [] => .ok p
  | p, part :: rest =>
    match d.item? p with
    | none => .error .missing
    | some (.file _) => .error .notDirectory
    | some .directory =>
      if nameLimit < part.length then .error .tooLong else d.descend (p.step part) rest

/-- The place where a path starts. -/
def origin (path : Text) : Place := if Path.isRooted path then Place.root else []

/-- The parts of a path that are not empty. -/
def parts (path : Text) : List Text := (splitOn Path.slash path).filter fun part => !part.isEmpty

/-- Refuses texts that are no path. -/
def checkPath (path : Text) : Except Refusal Unit :=
  if path.isEmpty then .error .missing
  else if path.contains 0 then .error .invalid
  else if pathLimit < path.length then .error .tooLong
  else .ok ()

/-- The place of a path. -/
def locate (d : Disk) (path : Text) : Except Refusal Place := do
  checkPath path
  let directory : List Text := if path.getLast? = some Path.slash then [Path.dot] else []
  d.descend (origin path) (parts path ++ directory)

/-- What is at a path. -/
def stat (d : Disk) (path : Text) : Except Refusal DiskItem := do
  match d.item? (← d.locate path) with
  | some i => return i
  | none => throw .missing

/-- The content of the file at a path. -/
def read (d : Disk) (path : Text) : Except DiskError Text :=
  match d.stat path with
  | .ok (.file content) => .ok content
  | .ok .directory => .error ⟨"read", path, .isDirectory⟩
  | .error reason => .error ⟨"open", path, reason⟩

/-- Makes one directory in an existing one. -/
def makeDir (d : Disk) (path : Text) : Except Refusal Disk := do
  checkPath path
  match (parts path).getLast? with
  | none => throw .taken
  | some name =>
    let p ← d.descend (origin path) ((parts path).dropLast ++ [Path.dot])
    if name = Path.dot ∨ name = Path.dotdot ∨ (d.item? (p ++ [name])).isSome then throw .taken
    else if nameLimit < name.length then throw .tooLong
    else return d.set (p ++ [name]) .directory

/-- A path up to the slash before its last part; empty if it has none. -/
def parentPath (path : Text) : Text :=
  (((path.reverse.dropWhile (· == Path.slash)).dropWhile (· != Path.slash)).drop 1).reverse

theorem length_parentPath_lt {path : Text} (h : parentPath path ≠ []) :
    (parentPath path).length < path.length := by
  have hw := (List.dropWhile_suffix (l := path.reverse) (· == Path.slash)).length_le
  have hv := (List.dropWhile_suffix
    (l := path.reverse.dropWhile (· == Path.slash)) (· != Path.slash)).length_le
  have hne : parentPath path ≠ [] := h
  simp only [parentPath, ne_eq, List.reverse_eq_nil_iff, List.drop_eq_nil_iff] at hne
  simp only [parentPath, List.length_reverse, List.length_drop] at hw hv ⊢
  omega

/-- Makes a directory and the directories above it. Directories that have been made stay when a
later one is refused. -/
def makeDirs (d : Disk) (path : Text) : Except DiskError Unit × Disk :=
  match d.stat path with
  | .ok .directory => (.ok (), d)
  | .ok (.file _) => (.error ⟨"mkdir", path, .notDirectory⟩, d)
  | .error _ =>
    if _h : parentPath path = [] then make d
    else
      match d.makeDirs (parentPath path) with
      | (.ok (), d) => make d
      | (.error e, d) => (.error e, d)
termination_by path.length
decreasing_by exact length_parentPath_lt _h
where
  make (d : Disk) : Except DiskError Unit × Disk :=
    match d.makeDir path with
    | .ok d => (.ok (), d)
    | .error reason =>
      match d.stat path with
      | .ok .directory => (.ok (), d)
      | _ => (.error ⟨"mkdir", path, reason⟩, d)

/-- The length of a name that is made up from a pattern: ten digits take the place of a star, or
stand at the end. -/
def madeUpLength (pattern : Text) : Nat :=
  (if pattern.contains 42 then pattern.length - 1 else pattern.length) + 10

/-- Puts a file at a path, in place of the one that is there. The new file is made beside it first,
under a name that is made up from a pattern. -/
def replace (d : Disk) (pattern path content : Text) : Except DiskError Disk :=
  let beside := Path.joined [Path.dir path, pattern]
  match d.stat (Path.dir path) with
  | .error reason => .error ⟨"open", beside, reason⟩
  | .ok (.file _) => .error ⟨"open", beside, .notDirectory⟩
  | .ok .directory =>
    if nameLimit < madeUpLength pattern ∨
        pathLimit < (Path.dir path).length + 1 + madeUpLength pattern then
      .error ⟨"open", beside, .tooLong⟩
    else match d.locate path with
    | .error reason => .error ⟨"rename", path, reason⟩
    | .ok p =>
      if d.isDirectory p then .error ⟨"rename", path, .taken⟩
      else .ok (d.set p (.file content))

/-- Puts a text at the end of the file at a path, which is made if it is missing. Nothing happens
if that is refused. -/
def append (d : Disk) (path text : Text) : Disk :=
  match d.locate path with
  | .error _ => d
  | .ok p =>
    match d.item? p with
    | some .directory => d
    | some (.file content) => d.set p (.file (content ++ text))
    | none => if d.isDirectory p.parent then d.set p (.file text) else d

/-- Removes the file at a path. -/
def remove (d : Disk) (path : Text) : Except DiskError Disk :=
  match d.locate path with
  | .error reason => .error ⟨"remove", path, reason⟩
  | .ok p =>
    match d.item? p with
    | none => .error ⟨"remove", path, .missing⟩
    | some .directory => .error ⟨"remove", path, .isDirectory⟩
    | some (.file _) => .ok { items := d.items.filter fun e => e.1 != p }

/-- Every file with its place. -/
def allFiles (d : Disk) : List (Place × Text) :=
  d.items.filterMap fun e =>
    match e with
    | (p, .file content) => some (p, content)
    | (_, .directory) => none

/-- The files below the working directory, by path and in order. -/
def files (d : Disk) : List (Text × Text) :=
  let inside := d.allFiles.filter fun f => f.1.isInside
  (inside.map fun f => (f.1.path, f.2)).mergeSort fun a b => le a.1 b.1

/-- The files of a disk that another one does not have, by path. -/
def filesBeside (d old : Disk) : List (Text × Text) :=
  (d.allFiles.filter fun f => !old.allFiles.contains f).map fun f => (f.1.path, f.2)

/-- Puts a file at a path together with the directories above it, if nothing is in the way. -/
def put (d : Disk) (path content : Text) : Disk :=
  let d := (d.makeDirs (Path.dir path)).2
  (d.replace [] path content).toOption.getD d

def ofFiles (files : List (Text × Text)) : Disk := files.foldl (fun d f => d.put f.1 f.2) {}

end Disk

end RecordSchema
