import RecordSchema.Yaml.Node
import RecordSchema.Yaml.TokenStream

/-!
# The first document of a stream

Tokens are put together into nodes by descent through the collections. Only the first document of a
stream is read; what follows it is looked at no further than the two tokens of look-ahead.
-/

namespace RecordSchema.Yaml

namespace Document

/-- The tokens still to come, the tag prefixes in force, and the anchors met so far. -/
structure Reader where
  stream : TokenStream
  prefixes : List (Text × Text) := []
  names : List (Text × Nat) := []
  nodes : Array Node := #[]
  count : Nat := 0

abbrev Read := StateT Reader (Except SyntaxError)

/-- The first token that has not been taken. -/
def head : Read Token := do
  let r ← get
  match TokenStream.head.run r.stream with
  | .ok (t, stream) =>
    set { r with stream }
    return t
  | .error e => throw e

def drop : Read Unit := modify fun r =>
  match TokenStream.drop.run r.stream with
  | .ok (_, stream) => { r with stream }
  | .error _ => r

/-- Takes the first token and returns the one after it. -/
def advance : Read Token := do
  drop
  head

def refuse {α : Type} (context place : Mark) (problem : Problem) : Read α :=
  throw (.parsing context place problem)

/-- Refuses the stream for a fault that was met by looking for a comment. That is put off to the
end of each step, so that what is wrong in front of the fault comes first. -/
def settle : Read Unit := do
  match (← get).stream.glimpsed with
  | some problem => throw (.plain problem)
  | none => return

/-- An empty plain scalar at a place. -/
def emptyScalar (place : Mark) : Read Node := do
  settle
  return .scalar (place.line + 1) Tag.null .plain []

/-- The number of a new anchor. -/
def openAnchor (name : Option Text) : Read (Option Nat) := do
  match name with
  | none => return none
  | some name =>
    let r ← get
    set { r with names := (name, r.nodes.size) :: r.names, nodes := r.nodes.push default }
    return some r.nodes.size

/-- Gives the node of an anchor, and counts it. -/
def closeAnchor (anchor : Option Nat) (node : Node) : Read Node := do
  modify fun r =>
    { r with
      nodes := match anchor with
        | some n => r.nodes.setIfInBounds n node
        | none => r.nodes
      count := r.count + 1 }
  return node

/-- The anchor and the tag in front of a node, each at most once and in either order. -/
structure Properties where
  start : Mark
  anchor : Option Text := none
  tag : Option (Text × Text × Mark) := none

def properties (t : Token) : Read Properties := do
  match t.kind with
  | .anchor name =>
    let next ← advance
    match next.kind with
    | .tag handle suffix =>
      drop
      return ⟨t.start, some name, some (handle, suffix, next.start)⟩
    | _ => return ⟨t.start, some name, none⟩
  | .tag handle suffix =>
    let next ← advance
    match next.kind with
    | .anchor name =>
      drop
      return ⟨t.start, some name, some (handle, suffix, t.start)⟩
    | _ => return ⟨t.start, none, some (handle, suffix, t.start)⟩
  | _ => return ⟨t.start, none, none⟩

/-- The tag that the properties give, nothing if they give none. -/
def tagOf (p : Properties) : Read Text := do
  match p.tag with
  | none => return []
  | some (handle, suffix, place) =>
    if handle.isEmpty then return suffix
    else
      match (← get).prefixes.lookup handle with
      | some address =>
        if (address ++ suffix).isEmpty then refuse p.start place .undefinedTagHandle
        else return address ++ suffix
      | none => refuse p.start place .undefinedTagHandle

/-- The tag of a node: the given one, or the one that the node has by default. -/
def tagOr (tag byDefault : Text) : Text :=
  if tag = [] ∨ tag = [33] then byDefault else Tag.shorten tag

def scalarNode (place : Mark) (tag value : Text) (style : ScalarStyle) : Node :=
  let byDefault :=
    if style = .plain then if value = "<<" then Tag.merge else Scalar.tagOf value else Tag.str
  .scalar (place.line + 1) (tagOr tag byDefault) style value

/-- Whether no node can start with the token inside a block mapping. -/
def endsBlockPart : Token.Kind → Bool
  | .key => true
  | .value => true
  | .blockEnd => true
  | _ => false

mutual

/-- A node. `block` allows block collections, and `indentless` a sequence at the column of the
mapping around it. -/
def node : Nat → (block indentless : Bool) → Read Node
  | 0, _, _ => throw (.plain .depthExceeded)
  | fuel + 1, block, indentless => do
    let t ← head
    match t.kind with
    | .reference name =>
      drop
      settle
      match (← get).names.lookup name with
      | some anchor => closeAnchor none (.reference (t.start.line + 1) t.start.index name anchor)
      | none => throw (.plain (.unknownAnchor name))
    | _ =>
      let p ← properties t
      let t ← head
      let tag ← tagOf p
      let line := p.start.line + 1
      let seqTag := tagOr tag Tag.seq
      let mapTag := tagOr tag Tag.map
      let opening : Read (Option Nat) := do
        settle
        openAnchor p.anchor
      match t.kind, indentless, block with
      | .blockEntry, true, _ =>
        let anchor ← opening
        let items ← indentlessItems fuel []
        closeAnchor anchor (.sequence line seqTag items)
      | .scalar value style, _, _ =>
        drop
        let anchor ← opening
        closeAnchor anchor (scalarNode p.start tag value style)
      | .flowSequenceStart, _, _ =>
        let anchor ← opening
        drop
        let items ← flowItems fuel t.start true []
        closeAnchor anchor (.sequence line seqTag items)
      | .flowMappingStart, _, _ =>
        let anchor ← opening
        drop
        let pairs ← flowPairs fuel t.start true []
        closeAnchor anchor (.mapping line mapTag pairs)
      | .blockSequenceStart, _, true =>
        let anchor ← opening
        drop
        let items ← blockItems fuel t.start []
        closeAnchor anchor (.sequence line seqTag items)
      | .blockMappingStart, _, true =>
        let anchor ← opening
        drop
        let pairs ← blockPairs fuel t.start []
        closeAnchor anchor (.mapping line mapTag pairs)
      | _, _, _ =>
        if p.anchor.isSome || !tag.isEmpty then
          let anchor ← opening
          closeAnchor anchor (scalarNode p.start tag [] .plain)
        else refuse p.start t.start .expectedContent

/-- The entries of a block sequence. -/
def blockItems : Nat → Mark → List Node → Read (List Node)
  | 0, _, acc => return acc.reverse
  | fuel + 1, context, acc => do
    let t ← head
    match t.kind with
    | .blockEntry =>
      let next ← advance
      match next.kind with
      | .blockEntry => blockItems fuel context ((← emptyScalar t.stop) :: acc)
      | .blockEnd => blockItems fuel context ((← emptyScalar t.stop) :: acc)
      | _ =>
        let item ← node fuel true false
        blockItems fuel context (item :: acc)
    | .blockEnd =>
      drop
      settle
      return acc.reverse
    | _ => refuse context t.start .expectedEntry

/-- The entries of a sequence at the column of the mapping around it. -/
def indentlessItems : Nat → List Node → Read (List Node)
  | 0, acc => return acc.reverse
  | fuel + 1, acc => do
    let t ← head
    match t.kind with
    | .blockEntry =>
      let next ← advance
      if next.kind = .blockEntry ∨ endsBlockPart next.kind then
        indentlessItems fuel ((← emptyScalar t.stop) :: acc)
      else
        let item ← node fuel true false
        indentlessItems fuel (item :: acc)
    | _ =>
      settle
      return acc.reverse

/-- The pairs of a block mapping. -/
def blockPairs : Nat → Mark → List (Node × Node) → Read (List (Node × Node))
  | 0, _, acc => return acc.reverse
  | fuel + 1, context, acc => do
    let t ← head
    match t.kind with
    | .key =>
      let next ← advance
      let k ← if endsBlockPart next.kind then emptyScalar t.stop else node fuel true true
      let v ← blockValue fuel
      blockPairs fuel context ((k, v) :: acc)
    | .blockEnd =>
      drop
      settle
      return acc.reverse
    | _ => refuse context t.start .expectedKey

/-- The value of a block mapping after its key. -/
def blockValue : Nat → Read Node
  | 0 => throw (.plain .depthExceeded)
  | fuel + 1 => do
    let t ← head
    match t.kind with
    | .value =>
      let next ← advance
      if endsBlockPart next.kind then emptyScalar t.stop
      else node fuel true true
    | _ => emptyScalar t.start

/-- The entries of a sequence in brackets. An entry with a key mark is a mapping of one pair. -/
def flowItems : Nat → Mark → (first : Bool) → List Node → Read (List Node)
  | 0, _, _, acc => return acc.reverse
  | fuel + 1, context, first, acc => do
    let t ← head
    if t.kind = .flowSequenceEnd then
      drop
      settle
      return acc.reverse
    else
      let t ←
        if first then pure t
        else if t.kind = .flowEntry then advance
        else refuse context t.start .expectedSequenceEnd
      match t.kind with
      | .key =>
        drop
        settle
        let pair ← flowPair fuel
        let item ← closeAnchor none (.mapping (t.start.line + 1) Tag.map [pair])
        flowItems fuel context false (item :: acc)
      | .flowSequenceEnd =>
        drop
        settle
        return acc.reverse
      | _ =>
        let item ← node fuel false false
        flowItems fuel context false (item :: acc)

/-- The only pair of a mapping that is an entry of a sequence in brackets. A missing key takes the
token after it away. -/
def flowPair : Nat → Read (Node × Node)
  | 0 => throw (.plain .depthExceeded)
  | fuel + 1 => do
    let t ← head
    let ends (k : Token.Kind) : Bool := k = .flowEntry || k = .flowSequenceEnd
    let k ←
      if t.kind = .value || ends t.kind then do
        drop
        emptyScalar t.stop
      else node fuel false false
    let t ← head
    match t.kind with
    | .value =>
      let next ← advance
      let v ← if ends next.kind then emptyScalar t.start else node fuel false false
      let _ ← head
      settle
      return (k, v)
    | _ => return (k, ← emptyScalar t.start)

/-- The pairs of a mapping in braces. -/
def flowPairs : Nat → Mark → (first : Bool) → List (Node × Node) → Read (List (Node × Node))
  | 0, _, _, acc => return acc.reverse
  | fuel + 1, context, first, acc => do
    let t ← head
    if t.kind = .flowMappingEnd then
      drop
      settle
      return acc.reverse
    else
      let t ←
        if first then pure t
        else if t.kind = .flowEntry then advance
        else refuse context t.start .expectedMappingEnd
      match t.kind with
      | .key =>
        let next ← advance
        let ends := next.kind = .value || next.kind = .flowEntry || next.kind = .flowMappingEnd
        let k ← if ends then emptyScalar next.start else node fuel false false
        let v ← flowValue fuel
        flowPairs fuel context false ((k, v) :: acc)
      | .flowMappingEnd =>
        drop
        settle
        return acc.reverse
      | _ =>
        let k ← node fuel false false
        let t ← head
        flowPairs fuel context false ((k, ← emptyScalar t.start) :: acc)

/-- The value of a mapping in braces after its key. -/
def flowValue : Nat → Read Node
  | 0 => throw (.plain .depthExceeded)
  | fuel + 1 => do
    let t ← head
    match t.kind with
    | .value =>
      let next ← advance
      if next.kind = .flowEntry || next.kind = .flowMappingEnd then emptyScalar next.start
      else node fuel false false
    | _ => emptyScalar t.start

end

/-- The prefixes that hold unless a directive gives others. -/
def defaultPrefixes : List (Text × Text) := [([33], [33]), ([33, 33], Tag.corePrefix)]

/-- The directives in front of a document. -/
def directives : Nat → (version : Bool) → Read Unit
  | 0, _ => return
  | fuel + 1, version => do
    let t ← head
    match t.kind with
    | .version major minor =>
      if version then refuse {} t.start .duplicateVersion
      if major ≠ 1 ∨ minor ≠ 1 then refuse {} t.start .incompatibleVersion
      drop
      directives fuel true
    | .tagPrefix handle address =>
      let r ← get
      if (r.prefixes.lookup handle).isSome then refuse {} t.start .duplicateTagDirective
      set { r with prefixes := r.prefixes ++ [(handle, address)] }
      drop
      directives fuel version
    | _ =>
      modify fun r =>
        { r with
          prefixes := r.prefixes ++
            defaultPrefixes.filter fun d => (r.prefixes.lookup d.1).isNone }

/-- Whether a document after its start mark has no content. -/
def endsDocument : Token.Kind → Bool
  | .version _ _ => true
  | .tagPrefix _ _ => true
  | .documentStart => true
  | .documentEnd => true
  | .streamEnd => true
  | _ => false

/-- Whether a document starts with directives or a start mark. -/
def startsExplicitly : Token.Kind → Bool
  | .version _ _ => true
  | .tagPrefix _ _ => true
  | .documentStart => true
  | _ => false

/-- The end of a document, explicit or not. -/
def documentEnd : Read Unit := do
  let t ← head
  if t.kind = .documentEnd then drop
  settle

/-- The root of the first document, if the stream has one. -/
def root (fuel : Nat) : Read (Option Node) := do
  let _ ← head
  drop
  settle
  let t ← head
  if t.kind = .streamEnd then
    settle
    return none
  else
    directives fuel false
    let content ←
      if startsExplicitly t.kind then do
        let start ← head
        if start.kind ≠ .documentStart then refuse {} start.start .expectedDocumentStart
        drop
        settle
        let first ← head
        if endsDocument first.kind then emptyScalar first.start else node fuel true false
      else do
        settle
        node fuel true false
    documentEnd
    return some content

/-- The first document of a text: its root with its anchors, or nothing when the stream is empty. -/
def parse (t : Text) : Except SyntaxError (Option Tree) := do
  let stream := TokenStream.ofInput (Input.ofText t)
  let fuel := 4 * stream.size + 16
  let (content, r) ← (root fuel).run { stream }
  return content.map fun node =>
    ⟨node, { nodes := r.nodes, depth := (r.count + 2) * (r.count + 2) }⟩

end Document

end RecordSchema.Yaml
