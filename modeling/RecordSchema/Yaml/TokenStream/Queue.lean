import RecordSchema.Yaml.TokenStream.Basic

/-!
# The queue, possible keys and indentation

A token that may be a key is remembered by its number, so that a key mark and the start of a mapping
can be put in front of it when its colon is met. If the token has been taken by then they come too
late, at the end of the queue.
-/

namespace RecordSchema.Yaml

open Character

namespace TokenStream

/-- Puts a token at the end of the queue. -/
def push (kind : Token.Kind) (start stop : Mark) : Scan Unit :=
  modify fun s => { s with queue := s.queue ++ [⟨kind, start, stop⟩] }

/-- Puts a token in front of the token with the given number, or at the end if that one has been
taken. -/
def insert (number : Nat) (kind : Token.Kind) (place : Mark) : Scan Unit :=
  modify fun s =>
    let t : Token := ⟨kind, place, place⟩
    { s with
      queue := if number < s.taken then s.queue ++ [t] else s.queue.insertIdx (number - s.taken) t }

/-- The number that the next token will have. -/
def nextNumber (s : TokenStream) : Nat := s.taken + s.queue.length

/-! ## Possible keys -/

/-- A key has to be followed by its colon on the same line, within 1024 characters. -/
def PossibleKey.reaches (k : PossibleKey) (m : Mark) : Bool :=
  decide (m.line ≤ k.mark.line) && decide (m.index ≤ k.mark.index + 1024)

/-- The possible key of the innermost brackets. -/
def innerKey (s : TokenStream) : PossibleKey := s.keys.headD {}

/-- The stream with the key of a level replaced; levels are counted from the outermost. -/
def setKey (level : Nat) (k : PossibleKey) (s : TokenStream) : TokenStream :=
  { s with keys := s.keys.set (s.flowLevel - level) k }

/-- Stops the token with a number from waiting. -/
def release (number : Nat) (waiting : List (Nat × Nat)) : List (Nat × Nat) :=
  waiting.filter fun w => w.1 != number

/-- Gives up the possible key of the innermost brackets. -/
def dropKey : Scan Unit := do
  let s ← get
  let k := innerKey s
  if k.possible then
    if k.required then refuse k.mark .expectedColon
    set { setKey s.flowLevel { k with possible := false } s with
      waiting := release k.number s.waiting }

/-- Notes that the next token may be a key. -/
def saveKey : Scan Unit := do
  let s ← get
  if s.keyAllowed then
    let required := s.flowLevel == 0 && s.indent == (s.mark.column : Int)
    let number := nextNumber s
    dropKey
    modify fun t =>
      { setKey t.flowLevel ⟨true, required, number, s.mark⟩ t with
        waiting := (number, t.flowLevel) :: release number t.waiting }

/-- Whether the possible key of a level is still one; a required key that is out of reach is
refused. -/
def stillKey (level : Nat) : Scan Bool := do
  let s ← get
  let k := s.keys.getD (s.flowLevel - level) {}
  if !k.possible then return false
  else if PossibleKey.reaches k s.mark then return true
  else if k.required then refuse k.mark .expectedColon
  else
    set (setKey level { k with possible := false } s)
    return false

/-- Enters brackets, whose key is none yet. -/
def enterFlow : Scan Unit := modify fun s =>
  { s with
    keys := { number := nextNumber s, mark := s.mark } :: s.keys
    flowLevel := s.flowLevel + 1 }

/-- Leaves brackets; the token that was noted last for their key waits no longer. -/
def leaveFlow : Scan Unit := modify fun s =>
  if s.flowLevel = 0 then s
  else
    { s with
      keys := s.keys.tail
      waiting := release (innerKey s).number s.waiting
      flowLevel := s.flowLevel - 1 }

/-! ## Indentation -/

/-- The deepest nesting of brackets and of indentation. -/
def depthLimit : Nat := 10000

/-- Opens a block collection at a column to the right of the innermost one; its token goes in front
of the token `number` if one is given. -/
def rollIndent (column : Nat) (number : Option Nat) (kind : Token.Kind) (place : Mark) :
    Scan Unit := do
  let s ← get
  if s.flowLevel = 0 && s.indent < (column : Int) then
    set { s with indents := s.indent :: s.indents, indent := column }
    if depthLimit < s.indents.length + 1 then refuse (innerKey s).mark .depthExceeded
    match number with
    | some n => insert n kind place
    | none => push kind place place

/-- Where a block at a column ends, by the comments after it, the last one first: in front of the
earliest comment at its column, as far as nothing but comments lies between. -/
def blockEnd (column : Int) : List Comment → (stop : Nat) → Mark → Mark
  | [], _, place => place
  | c :: earlier, stop, place =>
    if c.stop < stop then place
    else
      blockEnd column earlier c.since
        (if (c.start.column : Int) = column + 1 then c.start else place)

/-- The ends of the blocks to the right of a column. -/
def blockEnds (comments : List Comment) (column : Int) : List Int → Mark → List Token
  | [], _ => []
  | indent :: rest, place =>
    if indent ≤ column then []
    else
      let place := blockEnd indent comments place.index place
      ⟨.blockEnd, place, place⟩ :: blockEnds comments column rest place

/-- Closes the block collections to the right of a column after blanks that start at a place. -/
def unrollIndent (column : Int) (place : Mark) : Scan Unit :=
  modify fun s =>
    if s.flowLevel > 0 then s
    else
      let before := { place with index := place.index - 1 }
      let ends := blockEnds s.comments.reverse column (s.indent :: s.indents) before
      let left := (s.indent :: s.indents).drop ends.length
      { s with
        indent := left.headD (-1)
        indents := left.tail
        queue := s.queue ++ ends }

def allowKey (allowed : Bool) : Scan Unit := modify fun s => { s with keyAllowed := allowed }

/-- Cuts a token of `n` characters. -/
def cut (n : Nat) (kind : Token.Kind) : Scan Unit := do
  let start ← here
  for _ in [0:n] do skip
  push kind start (← here)

end TokenStream

end RecordSchema.Yaml
