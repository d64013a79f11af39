import RecordSchema.Number.Integer
import RecordSchema.Text.Keyed
import RecordSchema.Text.Quoted

/-!
# Flags

Flags are given as `--name value`, `--name=value`, `-n value`, `-nvalue` or `-n=value`. Switches
need no value, and several letters can share one dash. Other arguments stand between flags in any
order; after `--` everything is an argument.
-/

namespace RecordSchema

open Text

inductive FlagKind where
  | text
  | number
  | switch
  deriving DecidableEq, Repr

structure Flag where
  name : Text
  letter : Option UInt8 := none
  kind : FlagKind := .text
  usage : Text
  default : Text := []
  deriving DecidableEq, Repr

/-- Why a value does not fit a flag. -/
inductive ValueError where
  | notBool (value : Text)
  | notNumber (value : Text)
  | outOfRange (value : Text)
  deriving DecidableEq, Repr

namespace ValueError

def message : ValueError → Text
  | notBool value => "strconv.ParseBool: parsing " ++ quoted value ++ ": invalid syntax"
  | notNumber value => "strconv.ParseInt: parsing " ++ quoted value ++ ": invalid syntax"
  | outOfRange value => "strconv.ParseInt: parsing " ++ quoted value ++ ": value out of range"

end ValueError

/-- Why arguments are refused. -/
inductive FlagError where
  | badForm (argument : Text)
  | unknown (name : Text)
  /-- A letter that stands for no flag, with the letters from it on. -/
  | unknownLetter (letter : UInt8) (letters : Text)
  | needsValue (name : Text)
  | letterNeedsValue (letter : UInt8) (letters : Text)
  | badValue (flag : Flag) (value : Text) (cause : ValueError)
  deriving DecidableEq, Repr

namespace FlagError

/-- A letter in a message. Of a byte beyond ASCII the start of its encoding is shown. -/
def letterText (b : UInt8) : Text :=
  quotedChar (Char.ofNat (if b < 0x80 then b.toNat else if b < 0xc0 then 0xc2 else 0xc3))

/-- A flag by the names it has. -/
def flagText (f : Flag) : Text :=
  match f.letter with
  | some b => "-" ++ [b] ++ ", --" ++ f.name
  | none => "--" ++ f.name

def message : FlagError → Text
  | badForm argument => "bad flag syntax: " ++ argument
  | unknown name => "unknown flag: --" ++ name
  | unknownLetter b letters => "unknown shorthand flag: " ++ letterText b ++ " in -" ++ letters
  | needsValue name => "flag needs an argument: --" ++ name
  | letterNeedsValue b letters => "flag needs an argument: " ++ letterText b ++ " in -" ++ letters
  | badValue f value cause =>
    "invalid argument " ++ quoted value ++ " for " ++ quoted (flagText f) ++ " flag: " ++
      cause.message

end FlagError

namespace FlagKind

def trueWords : List Text := ["1", "t", "T", "TRUE", "true", "True"]

def falseWords : List Text := ["0", "f", "F", "FALSE", "false", "False"]

/-- The value of a flag of a kind in its usual form. -/
def read (kind : FlagKind) (value : Text) : Except ValueError Text :=
  match kind with
  | .text => .ok value
  | .switch =>
    if trueWords.contains value then .ok "true"
    else if falseWords.contains value then .ok "false"
    else .error (.notBool value)
  | .number =>
    match Number.int? value with
    | none => .error (.notNumber value)
    | some n => if Number.fitsInt64 n then .ok (ofInt n) else .error (.outOfRange value)

end FlagKind

/-- What a command line gives: the values of flags by name, and the other arguments. -/
structure Arguments where
  values : Keyed Text := []
  rest : List Text := []
  deriving DecidableEq, Repr

namespace Arguments

/-- Sets a flag. -/
def set (f : Flag) (value : Text) (values : Keyed Text) : Except FlagError (Keyed Text) :=
  match f.kind.read value with
  | .ok v => .ok (Keyed.set f.name v values)
  | .error e => .error (.badValue f value e)

/-- Reads letters behind one dash. `next` are the arguments after it, of which a flag may take one.
Letters that start with `test.` are for somebody else. -/
def readLetters (flags : List Flag) (next : List Text) :
    Text → Keyed Text → Except FlagError (Keyed Text × List Text)
  | [], values => .ok (values, next)
  | b :: more, values =>
    if hasPrefix "test." (b :: more) then .ok (values, next)
    else match flags.find? fun f => f.letter == some b with
    | none => .error (.unknownLetter b (b :: more))
    | some f =>
      if more.head? = some 61 ∧ 1 < more.length then do return (← set f (more.drop 1) values, next)
      else if f.kind = .switch then do
        let values ← set f "true" values
        readLetters flags next more values
      else if !more.isEmpty then do return (← set f more values, next)
      else
        match next with
        | v :: next => do return (← set f v values, next)
        | [] => .error (.letterNeedsValue b [b])

/-- Reads a flag by name, `next` being the arguments after it. -/
def readNamed (flags : List Flag) (next : List Text) (argument : Text) (values : Keyed Text) :
    Except FlagError (Keyed Text × List Text) :=
  let body := argument.drop 2
  if body.isEmpty ∨ body.head? = some 45 ∨ body.head? = some 61 then .error (.badForm argument)
  else
    let (name, given) : Text × Option Text :=
      match cut? 61 body with
      | some (name, v) => (name, some v)
      | none => (body, none)
    match flags.find? fun f => f.name == name with
    | none => .error (.unknown name)
    | some f =>
      match given, next with
      | some v, next => do return (← set f v values, next)
      | none, next =>
        if f.kind = .switch then do return (← set f "true" values, next)
        else
          match next with
          | v :: next => do return (← set f v values, next)
          | [] => .error (.needsValue name)

/-- Reads arguments. At most `fuel` of them are taken. -/
def readAll (flags : List Flag) : (fuel : Nat) → List Text → Arguments → Except FlagError Arguments
  | 0, _, a => .ok a
  | _, [], a => .ok a
  | fuel + 1, s :: next, a =>
    match s with
    | 45 :: 45 :: name =>
      if name.isEmpty then .ok { a with rest := a.rest ++ next }
      else do
        let (values, next) ← readNamed flags next s a.values
        readAll flags fuel next { a with values }
    | 45 :: letters =>
      if letters.isEmpty then readAll flags fuel next { a with rest := a.rest ++ [s] }
      else do
        let (values, next) ← readLetters flags next letters a.values
        readAll flags fuel next { a with values }
    | _ => readAll flags fuel next { a with rest := a.rest ++ [s] }

/-- Reads a command line with the given flags. -/
def read (flags : List Flag) (args : List Text) : Except FlagError Arguments :=
  readAll flags args.length args {}

/-- The value of a flag, if it was given. -/
def value? (a : Arguments) (name : Text) : Option Text := a.values.lookup name

/-- Whether a switch is on. -/
def isOn (a : Arguments) (name : Text) : Bool := a.value? name == some (ofString "true")

end Arguments

end RecordSchema
