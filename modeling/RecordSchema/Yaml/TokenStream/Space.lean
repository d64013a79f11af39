import RecordSchema.Yaml.TokenStream.Basic

/-!
# Blanks, breaks and comments

What stands between tokens. Comments on lines of their own belong to the token after them, unless
they stand right below the token before them or to the left of it and a blank line follows: then
they are the foot of what they follow. A comment is looked for no farther than 512 bytes ahead.
-/

namespace RecordSchema.Yaml

open Character

namespace TokenStream

/-- The farthest that a comment is looked for. -/
def commentReach : Nat := 512

/-- The character at a distance in bytes; a place inside of a character reads as one of no class. -/
def octetAt : Nat → List Char → Char
  | _, [] => '\x00'
  | 0, c :: _ => c
  | k + 1, c :: rest => if c.utf8Size ≤ k + 1 then octetAt (k + 1 - c.utf8Size) rest else '\x01'

/-- Moves past blanks and breaks to the comment at the place `index`, and to the end of its line. -/
def passComment (index : Nat) : (fuel : Nat) → Scan Unit
  | 0 => return
  | fuel + 1 => do
    need 1
    if isBreakOrEnd (← peek) then
      if index ≤ (← here).index then return
      need 2
      skipLine
    else skip
    passComment index fuel

def note (c : Comment) : Scan Unit := modify fun s => { s with comments := s.comments ++ [c] }

/-- The number of blanks in front of a comment on the same line, if there is one in reach. -/
def commentAhead? : (fuel k : Nat) → Scan (Option Nat)
  | 0, _ => return none
  | fuel + 1, k => do
    if !(← glimpse (k + 1)) then return none
    let c ← peekAt k
    if isBlank c then commentAhead? fuel (k + 1) else return if c == '#' then some k else none

/-- Moves past a comment on the line of the token before it, which starts at `owner`. -/
def lineComment (owner : Nat) : Scan Unit := do
  if (← get).newlines = 0 then
    match ← commentAhead? commentReach 0 with
    | some k =>
      let m ← here
      passComment (m.index + k) ((← get).size + 2)
      note { kind := .line, owner, start := ⟨m.index + k, m.line, m.column + k⟩ }
    | none => return

/-- A walk over comments. -/
structure CommentWalk where
  /-- The start of the comment that has not been attached. -/
  pending : Option Mark := none
  /-- The token that a foot goes with. -/
  owner : Nat
  since : Nat
  /-- Whether the last line was empty. -/
  recentEmpty : Bool := false
  /-- Whether the first empty line is still to come. -/
  firstEmpty : Bool
  line : Nat
  column : Nat

/-- Makes the pending comment the foot of what is in front of it. -/
def CommentWalk.endFoot (w : CommentWalk) (owner place : Nat) : Scan CommentWalk := do
  match w.pending with
  | some start =>
    note { kind := .foot, owner, since := w.since, start, stop := place }
    return { w with pending := none, owner := place, since := place }
  | none => return w

/-- Makes the pending comment the head of what is after it. -/
def CommentWalk.endHead (w : CommentWalk) (place : Nat) : Scan Unit := do
  match w.pending with
  | some start =>
    note { kind := .head, owner := start.index, since := w.since, start, stop := place }
  | none => return

/-- Walks over the lines from `ahead` bytes ahead on as long as they are empty or hold comments. A
comment that starts on the line `footLine`, or to the left of `margin`, is a foot when the first
empty line comes after it. -/
def walkComments (footLine : Option Nat) (margin : Nat) :
    (fuel : Nat) → (ahead : Nat) → CommentWalk → Scan Unit
  | 0, ahead, w => do w.endHead ((← here).index + ahead - 1)
  | fuel + 1, ahead, w => do
    let stop := (← here).index + ahead
    if commentReach ≤ ahead then w.endHead (stop - 1)
    else if !(← glimpse (ahead + 1)) then w.endHead (stop - 1)
    else
      let s ← get
      let c := octetAt ahead s.ahead
      let column := w.column + 1
      let left := w.pending.any fun m => m.column ≤ margin
      if isBlank c then walkComments footLine margin fuel (ahead + 1) { w with column }
      else
        let closing := decide (0 < s.flowLevel) && (c == ']' || c == '\x7d')
        if closing || isBreakOrEnd c then
          let below := w.pending.any fun m => some m.line == footLine
          let w ←
            if closing || (!w.recentEmpty && w.firstEmpty && (below || left)) then
              w.endFoot (match w.pending, left with
                | some m, true => m.index
                | _, _ => w.owner) stop
            else pure w
          if isBreak c then
            walkComments footLine margin fuel (ahead + 1)
              { w with firstEmpty := false, recentEmpty := true, column := 0, line := w.line + 1 }
          else w.endHead (stop - 1)
        else
          let w ←
            if column ≤ margin && w.pending.any (fun m => m.column != column) then
              w.endFoot w.owner stop
            else pure w
          if c == '#' then
            passComment stop (s.size + 2)
            walkComments footLine margin fuel 1
              { w with
                pending := some (w.pending.getD ⟨stop, w.line, column⟩)
                recentEmpty := false
                line := (← here).line
                column := 0 }
          else w.endHead (stop - 1)

/-- The token that comments after the last one are attached to: a comma gives way to what is in
front of it. -/
def lastOwner (queue : List Token) : Option Token :=
  match queue.reverse with
  | t :: before :: _ => some (if t.kind = .flowEntry then before else t)
  | [t] => some t
  | [] => none

/-- Moves past the comments at the current place; the blanks in front of them start at `since`. -/
def skipComments (since : Mark) : Scan Unit := do
  let s ← get
  let last := lastOwner s.queue
  let m := s.mark
  let isValue := last.any fun t => decide (t.kind = .value)
  let footLine :=
    if since.column = 0 || isValue then none
    else
      let below := m.line + 1 - s.newlines
      some (if s.newlines = 0 && 1 < m.column then below + 1 else below)
  walkComments footLine s.indent.toNat (s.size * (commentReach + 1) + commentReach) 0
    { owner := (last.map fun t => t.start.index).getD 0
      since := since.index
      firstEmpty := s.newlines ≤ 1
      line := m.line
      column := m.column }

/-- Makes a comment after the first dash of a sequence the head of what follows it. -/
def retagComment : Scan Unit := do
  let s ← get
  match s.comments.reverse, s.queue.reverse with
  | c :: earlier, ⟨.blockEntry, _, _⟩ :: ⟨.blockSequenceStart, _, _⟩ :: _ =>
    if c.kind = .line && !isBreak (s.ahead.headD '\x00') then
      let owner := if c.start.line + 1 = s.mark.line then s.mark.index else c.owner
      set { s with comments := (({ c with kind := .head, owner } : Comment) :: earlier).reverse }
  | _, _ => return

/-- Moves to the first character of the next token; the blanks in front of it start at `since`.
Tabs may come before it unless a key could start there. While what is kept starts with a byte order
mark, every line loses its first character. -/
def skipToToken (since : Mark) : (fuel : Nat) → Scan Unit
  | 0 => return
  | fuel + 1 => do
    need 1
    let s ← get
    if s.mark.column = 0 && s.frontMarked then skip
    let tabs := s.flowLevel > 0 || !s.keyAllowed
    let _ ← span fun c => c == ' ' || (tabs && c == '\t')
    retagComment
    if (← peek) == '#' then skipComments since
    if isBreak (← peek) then
      need 2
      skipLine
      modify fun s => if s.flowLevel = 0 then { s with keyAllowed := true } else s
      skipToToken since fuel

/-- Moves past blanks and a comment to the end of the line, and past its break. -/
def skipLineEnd (start : Mark) : Scan Unit := do
  skipBlanks
  if (← peek) == '#' then skipToBreak
  if !isBreakOrEnd (← peek) then refuse start .expectedLineEnd
  if isBreak (← peek) then
    need 2
    skipLine

end TokenStream

end RecordSchema.Yaml
