import RecordSchema.Text.Utf8
import RecordSchema.Yaml.Character
import RecordSchema.Yaml.Input
import RecordSchema.Yaml.Token

/-!
# Streams between two tokens

A stream is what is left of the characters, together with what the tokens cut so far leave behind:
the queue of tokens that have not been taken, the comments between them, the possible keys and the
stack of indentations. Characters are decoded when they are asked for, a window at a time, and those
that are left then become the front of what is kept.
-/

namespace RecordSchema.Yaml

open Character

/-- A token that may be the key of the mapping value that follows it. -/
structure PossibleKey where
  possible : Bool := false
  /-- In a block mapping a line at the column of the mapping has to be a key. -/
  required : Bool := false
  /-- The number of the token among all tokens of the stream. -/
  number : Nat := 0
  mark : Mark := {}
  deriving Inhabited

/-- What a comment is attached to. -/
inductive Comment.Kind where
  /-- The token after it. -/
  | head
  /-- The token in front of it on its line. -/
  | line
  /-- What ends in front of it. -/
  | foot
  deriving DecidableEq

/-- A comment, or several of them in a row. -/
structure Comment where
  kind : Comment.Kind
  /-- The place from which on a token takes it. -/
  owner : Nat
  /-- The place where the blanks in front of it start. -/
  since : Nat := 0
  /-- The column of a comment on a line of its own is counted from one. -/
  start : Mark
  /-- The place where it ends. -/
  stop : Nat := 0

/-- A stream between two tokens. -/
structure TokenStream where
  /-- The characters that have been decoded; the end of the stream is a NUL. -/
  ahead : List Char := []
  later : List (List Char)
  fault : Option Problem
  /-- The characters in front of the fault in its own window. -/
  spoiled : List Char
  /-- The fault, if it was met by looking for a comment. -/
  glimpsed : Option Problem := none
  /-- Whether the characters kept since the last decoding start with a byte order mark. -/
  frontMarked : Bool := false
  /-- The number of characters of the whole stream, which bounds every walk through it. -/
  size : Nat
  mark : Mark := {}
  /-- Line breaks since the last character that is not blank. -/
  newlines : Nat := 0
  started : Bool := false
  /-- Tokens that have been cut and not yet taken. -/
  queue : List Token := []
  /-- The number of tokens taken. -/
  taken : Nat := 0
  /-- The comments that no token has taken, in order. -/
  comments : List Comment := []
  /-- The number of open brackets and braces. -/
  flowLevel : Nat := 0
  /-- The column of the innermost block collection, or -1. -/
  indent : Int := -1
  indents : List Int := []
  keyAllowed : Bool := true
  /-- The possible key at each level of brackets, the innermost first. -/
  keys : List PossibleKey := [{}]
  /-- The numbers of tokens that wait for their colon, each with the level of its key. -/
  waiting : List (Nat × Nat) := []

namespace TokenStream

/-- Steps through the characters that may be refused. -/
abbrev Scan := StateT TokenStream (Except SyntaxError)

def ofInput (input : Input) : TokenStream :=
  { later := input.windows
    fault := input.fault
    spoiled := input.spoiled
    size := input.windows.foldl (fun n w => n + w.length) input.spoiled.length }

/-! ## Characters -/

/-- Whether a list has `n` elements. -/
def hasAtLeast (n : Nat) (cs : List Char) : Bool := n == 0 || !(cs.drop (n - 1)).isEmpty

/-- Takes windows until `n` characters are ahead; the flag tells whether there were enough. -/
def refill (n : Nat) (ahead : List Char) : List (List Char) → List Char × List (List Char) × Bool
  | [] => (ahead, [], hasAtLeast n ahead)
  | w :: later =>
    let ahead := ahead ++ w
    if hasAtLeast n ahead then (ahead, later, true) else refill n ahead later

/-- Decodes until `n` characters are ahead, or one more NUL stands at the end. Returns the fault
that is met. -/
def reach (n : Nat) : Scan (Option Problem) := do
  let s ← get
  if hasAtLeast n s.ahead then return none
  else
    let (ahead, later, enough) := refill n s.ahead s.later
    let s := { s with later, frontMarked := ahead.head? == some '\ufeff' }
    match enough, s.fault with
    | true, _ =>
      set { s with ahead }
      return none
    | false, none =>
      set { s with ahead := ahead ++ ['\x00'] }
      return none
    | false, some problem =>
      set { s with ahead := ahead ++ s.spoiled, spoiled := [] }
      return some problem

/-- Makes `n` characters available, and refuses the stream at a fault. -/
def need (n : Nat) : Scan Unit := do
  match ← reach n with
  | some problem => throw (.plain problem)
  | none => return

/-- Makes `n` characters available to look at. A fault is noted and can be overtaken by another
one. -/
def glimpse (n : Nat) : Scan Bool := do
  match ← reach n with
  | some problem =>
    modify fun s => { s with glimpsed := some problem }
    return false
  | none => return true

/-- The character `k` places ahead. -/
def peekAt (k : Nat) : Scan Char := return (← get).ahead.getD k '\x00'

def peek : Scan Char := peekAt 0

/-- The current place. -/
def here : Scan Mark := return (← get).mark

/-- Refuses the stream at the current place. -/
def refuse {α : Type} (context : Mark) (problem : Problem) : Scan α := do
  throw (.scanning context (← here) problem)

/-- Moves past one character that is not a line break. -/
def skip : Scan Unit := modify fun s =>
  { s with
    newlines := if isBlank (s.ahead.headD '\x00') then s.newlines else 0
    ahead := s.ahead.tail
    mark := { s.mark with index := s.mark.index + 1, column := s.mark.column + 1 } }

/-- The number of characters of the line break at the front, zero if there is none. -/
def breakLength : List Char → Nat
  | '\r' :: '\n' :: _ => 2
  | c :: _ => if isBreak c then 1 else 0
  | [] => 0

/-- Moves past a line break. -/
def skipLine : Scan Unit := modify fun s =>
  match breakLength s.ahead with
  | 0 => s
  | n =>
    { s with
      newlines := s.newlines + 1
      ahead := s.ahead.drop n
      mark := ⟨s.mark.index + n, s.mark.line + 1, 0⟩ }

/-- Moves past a line break and returns what it stands for: the separators of lines and paragraphs
are kept, every other break is a line feed. -/
def nextLine : Scan (List Char) := do
  let c ← peek
  skipLine
  return if c == '\u2028' || c == '\u2029' then [c] else if isBreak c then ['\n'] else []

/-- Moves past at most `fuel` characters of a class and returns them, the last one first. -/
def spanRev (p : Char → Bool) : (fuel : Nat) → List Char → Scan (List Char)
  | 0, acc => return acc
  | fuel + 1, acc => do
    need 1
    let c ← peek
    if p c && !isEnd c then
      skip
      spanRev p fuel (c :: acc)
    else return acc

/-- The characters of a class at the front, taken. -/
def span (p : Char → Bool) : Scan (List Char) := do
  return (← spanRev p ((← get).size + 1) []).reverse

def skipBlanks : Scan Unit := do let _ ← span isBlank

/-- Moves to the end of the line. -/
def skipToBreak : Scan Unit := do let _ ← span fun c => !isBreak c

end TokenStream

end RecordSchema.Yaml
