import RecordSchema.Yaml.TokenStream.BlockScalar
import RecordSchema.Yaml.TokenStream.FlowScalar
import RecordSchema.Yaml.TokenStream.Property

/-!
# The tokens of a stream

Tokens are cut from the characters on demand, with two tokens of look-ahead. A token that may turn
out to be a key is kept until the colon after it is met or ruled out; the key mark is then put in
front of it. Indentation is kept as a stack of columns.
-/

namespace RecordSchema.Yaml

open Character

namespace TokenStream

def fetchStreamEnd : Scan Unit := do
  modify fun s =>
    if s.mark.column = 0 then s
    else { s with mark := { s.mark with line := s.mark.line + 1, column := 0 } }
  unrollIndent (-1) (← here)
  dropKey
  allowKey false
  push .streamEnd (← here) (← here)

/-- Closes every block collection before something that stands at the left margin. -/
def closeBlocks : Scan Unit := do
  unrollIndent (-1) (← here)
  dropKey
  allowKey false

def fetchFlowStart (kind : Token.Kind) : Scan Unit := do
  saveKey
  enterFlow
  let s ← get
  if depthLimit < s.flowLevel then refuse s.mark .depthExceeded
  allowKey true
  cut 1 kind

def fetchFlowEnd (kind : Token.Kind) : Scan Unit := do
  dropKey
  leaveFlow
  allowKey false
  cut 1 kind

def fetchFlowEntry : Scan Unit := do
  dropKey
  allowKey true
  cut 1 .flowEntry

def fetchBlockEntry : Scan Unit := do
  let s ← get
  if s.flowLevel = 0 then
    if !s.keyAllowed then refuse s.mark .entryNotAllowed
    rollIndent s.mark.column none .blockSequenceStart s.mark
  dropKey
  allowKey true
  cut 1 .blockEntry

def fetchKey : Scan Unit := do
  let s ← get
  if s.flowLevel = 0 then
    if !s.keyAllowed then refuse s.mark .keyNotAllowed
    rollIndent s.mark.column none .blockMappingStart s.mark
  dropKey
  allowKey (s.flowLevel == 0)
  cut 1 .key

/-- A colon: the value of the possible key before it, or of a key that is marked or missing. -/
def fetchValue : Scan Unit := do
  let s ← get
  if ← stillKey s.flowLevel then
    let k := innerKey s
    insert k.number .key k.mark
    rollIndent k.mark.column (some k.number) .blockMappingStart k.mark
    modify fun s =>
      { setKey s.flowLevel { k with possible := false } s with
        waiting := release k.number s.waiting
        keyAllowed := false }
  else
    if s.flowLevel = 0 then
      if !s.keyAllowed then refuse s.mark .valueNotAllowed
      rollIndent s.mark.column none .blockMappingStart s.mark
    allowKey (s.flowLevel == 0)
  cut 1 .value

/-- Cuts a token that may be a key. -/
def fetchKeyed (scan : Scan Unit) : Scan Unit := do
  saveKey
  allowKey false
  scan

def fetchBlock (literal : Bool) : Scan Unit := do
  dropKey
  allowKey true
  scanBlock literal

/-- Whether a plain scalar starts with the characters `c` and `d`. -/
def startsPlain (inFlow : Bool) (c d : Char) : Bool :=
  !(isBlankOrEnd c || isIndicator c) || (c == '-' && !isBlank d) ||
    (!inFlow && (c == '?' || c == ':') && !isBlankOrEnd d)

/-- Cuts the token that starts with `c`, which is not at the left margin or no directive and no
document indicator. -/
def fetchToken (c d : Char) : Scan Unit := do
  let s ← get
  let inFlow := decide (0 < s.flowLevel)
  let owner :=
    match s.queue.getLast?, c == (if inFlow then ',' else ':') with
    | some t, true => t.start.index
    | _, _ => s.mark.index
  if c == '[' then fetchFlowStart .flowSequenceStart
  else if c == '\x7b' then fetchFlowStart .flowMappingStart
  else if c == ']' then fetchFlowEnd .flowSequenceEnd
  else if c == '\x7d' then fetchFlowEnd .flowMappingEnd
  else if c == ',' then fetchFlowEntry
  else if c == '-' && isBlankOrEnd d then fetchBlockEntry
  else if c == '?' && (inFlow || isBlankOrEnd d) then fetchKey
  else if c == ':' && (inFlow || isBlankOrEnd d) then fetchValue
  else if c == '*' then fetchKeyed (scanAnchor .reference)
  else if c == '&' then fetchKeyed (scanAnchor .anchor)
  else if c == '!' then fetchKeyed scanTag
  else if c == '|' && !inFlow then fetchBlock true
  else if c == '>' && !inFlow then fetchBlock false
  else if c == '\'' then fetchKeyed (scanQuoted true)
  else if c == '"' then fetchKeyed (scanQuoted false)
  else if startsPlain inFlow c d then fetchKeyed scanPlain
  else
    let place ← here
    refuse place .noToken
  if !(c == '-' && isBlankOrEnd d) then lineComment owner

/-- Cuts one more token from the characters. -/
def fetch : Scan Unit := do
  need 1
  let s ← get
  if !s.started then
    set { s with started := true }
    push .streamStart s.mark s.mark
  else
    skipToToken s.mark (s.size + 2)
    unrollIndent ((← here).column : Int) s.mark
    need 4
    let c ← peek
    let column := (← here).column
    if isEnd c then fetchStreamEnd
    else if column = 0 && c == '%' then
      closeBlocks
      scanDirective
    else if ← atDocumentIndicator then
      closeBlocks
      cut 3 (if c == '-' then .documentStart else .documentEnd)
    else fetchToken c (← peekAt 1)

/-- Whether the first token of the queue may still turn out to be a key. -/
def headMayBeKey : Scan Bool := do
  let s ← get
  match s.waiting.lookup s.taken with
  | some level => stillKey level
  | none => return false

/-- Cuts tokens until two follow the first and it is known not to be a key. -/
def fill : Nat → Scan Unit
  | 0 => return
  | fuel + 1 => do
    if 2 < (← get).queue.length then
      if !(← headMayBeKey) then return
    fetch
    fill fuel

/-- The comments that are left when a token has taken those up to its place. The end of a block
takes no head. -/
def untaken (t : Token) : List Comment → List Comment
  | [] => []
  | c :: rest =>
    if c.owner ≤ t.start.index ∧ ¬(c.kind = .head ∧ t.kind = .blockEnd) then untaken t rest
    else c :: rest

/-- The first token that has not been taken. -/
def head : Scan Token := do
  let s ← get
  fill (s.size + 4)
  let s' ← get
  let t := s'.queue.headD ⟨.streamEnd, s.mark, s.mark⟩
  set { s' with comments := untaken t s'.comments }
  return t

/-- Takes the first token. -/
def drop : Scan Unit := modify fun s =>
  { s with
    queue := s.queue.tail
    taken := s.taken + 1
    waiting := s.waiting.filter fun w => s.taken < w.1 }

end TokenStream

end RecordSchema.Yaml
