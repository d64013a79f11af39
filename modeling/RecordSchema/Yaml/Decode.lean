import RecordSchema.Text.Base64
import RecordSchema.Time.Duration
import RecordSchema.Value.Literal
import RecordSchema.Yaml.Node

/-!
# Nodes as values and records

A node is read as a value by itself, or slot by slot as a record. Scalars that do not fit their slot
and keys that are given twice are faults: they are collected in document order and refused together.
A few causes refuse the document at once: a scalar against its tag, an alias inside the node it
stands for, a merge of something that is no mapping.

A merge key adds the pairs of another mapping, or of several, for the keys that the mapping does not
give itself; of several mappings the first one with a key counts.
-/

namespace RecordSchema.Yaml

open Text

/-- A part of a document that does not fit. -/
inductive Fault where
  | misfit (line : Nat) (tag value type : Text)
  | duplicateKey (line : Nat) (key : Text) (first : Nat)
  | alreadySet (line : Nat) (key type : Text)
  deriving DecidableEq, Repr

namespace Fault

/-- A scalar in a message: at most ten bytes, a longer one cut to seven. -/
def excerpt (value : Text) : Text :=
  if 10 < value.length then value.take 7 ++ "..." else value

def message : Fault → Text
  | misfit line tag value type =>
    let shown : Text :=
      if tag = Tag.seq ∨ tag = Tag.map then value else " \x60" ++ excerpt value ++ "\x60"
    "line " ++ ofNat line ++ ": cannot unmarshal " ++ tag ++ shown ++ " into " ++ type
  | duplicateKey line key first =>
    "line " ++ ofNat line ++ ": mapping key " ++ quoted key ++ " already defined at line " ++
      ofNat first
  | alreadySet line key type =>
    "line " ++ ofNat line ++ ": field " ++ key ++ " already set in type " ++ type

end Fault

/-- Why a node cannot be read. -/
inductive DecodeError where
  /-- Everything that does not fit, in document order. -/
  | faults (all : List Fault)
  | misfit (cause : Scalar.Misfit)
  | invalidBase64
  | excessiveAliasing
  | containsItself (anchor : Text)
  /-- A key that maps do not admit, and what it is shown as. -/
  | invalidKey (key : Value) (shown : Text)
  | mergeOfNoMapping
  /-- A part with reading rules of its own that refuses for another cause. -/
  | within (part : Text) (cause : DecodeError)
  /-- One of the names that are not known, which come in no order. -/
  | unknown (what name : Text) (all : List Text)
  | refused (reason : Text)
  deriving Repr

namespace DecodeError

def message : DecodeError → Text
  | faults all => "yaml: unmarshal errors:\n  " ++ join "\n  " (all.map Fault.message)
  | misfit m =>
    "yaml: cannot decode " ++ m.found ++ " \x60" ++ m.value ++ "\x60 as a " ++ m.wanted
  | invalidBase64 => "yaml: !!binary value contains invalid base64 data"
  | excessiveAliasing => "yaml: document contains excessive aliasing"
  | containsItself anchor => "yaml: anchor '" ++ anchor ++ "' value contains itself"
  | invalidKey _ shown => "yaml: invalid map key: " ++ shown
  | mergeOfNoMapping => "yaml: map merge requires map or sequence of maps as the value"
  | within part cause => part ++ ": " ++ cause.message
  | unknown what name _ => "unknown " ++ what ++ " " ++ quoted name
  | refused reason => reason

/-- Whether the cause, or one inside it, is a collection of faults. -/
def isFaults : DecodeError → Bool
  | faults _ => true
  | within _ cause => cause.isFaults
  | _ => false

/-- What else a refusal may be told as: another of the names that are not known, or a key shown in
another order. -/
inductive Retold : DecodeError → DecodeError → Prop where
  | same (e : DecodeError) : Retold e e
  | unknown {what name name' : Text} {all : List Text} (h : name' ∈ all) :
      Retold (unknown what name all) (unknown what name' all)
  | invalidKey {key : Value} {shown shown' : Text} (h : key.Tells shown') :
      Retold (invalidKey key shown) (invalidKey key shown')
  | within {part : Text} {cause cause' : DecodeError} (h : Retold cause cause') :
      Retold (within part cause) (within part cause')

/-- The refusal with the last of the names. -/
def ofLast : DecodeError → DecodeError
  | unknown what name all => unknown what (all.getLast?.getD name) all
  | within part cause => within part cause.ofLast
  | e => e

theorem retold_ofLast : ∀ e : DecodeError, e.Retold e.ofLast
  | unknown what name all => by
      rw [ofLast]
      cases hlast : all.getLast? with
      | none => exact .same _
      | some last => exact .unknown (List.mem_of_getLast? hlast)
  | within _ cause => .within cause.retold_ofLast
  | faults _ => .same _
  | misfit _ => .same _
  | invalidBase64 => .same _
  | excessiveAliasing => .same _
  | containsItself _ => .same _
  | invalidKey _ _ => .same _
  | mergeOfNoMapping => .same _
  | refused _ => .same _

end DecodeError

/-- What has been read so far. -/
structure Progress where
  /-- The latest fault first. -/
  faults : List Fault := []
  decodes : Nat := 0
  /-- The nodes read through an alias. -/
  aliasDecodes : Nat := 0
  /-- The places of the aliases that are being followed. -/
  active : List Nat := []
  /-- During a merge, the keys that have a value already. -/
  taken : Option (List Value) := none

abbrev Decode := ReaderT Anchors (StateT Progress (Except DecodeError))

namespace Decode

def fault (f : Fault) : Decode Unit := modify fun p => { p with faults := f :: p.faults }

/-- Whether too many of the nodes read come from aliases: nearly all up to 400 000 nodes, and down
to a tenth at 4 000 000. -/
def isExcessive (aliasDecodes decodes : Nat) : Bool :=
  if aliasDecodes ≤ 100 ∨ decodes ≤ 1000 then false
  else if decodes ≤ 400000 then decide (99 * decodes < 100 * aliasDecodes)
  else if 4000000 ≤ decodes then decide (decodes < 10 * aliasDecodes)
  else
    decide ((99 * 3600000 - 89 * (decodes - 400000)) * decodes < 100 * 3600000 * aliasDecodes)

/-- Counts one node. -/
def visit : Decode Unit := do
  modify fun p =>
    { p with
      decodes := p.decodes + 1
      aliasDecodes := if p.active.isEmpty then p.aliasDecodes else p.aliasDecodes + 1 }
  let p ← get
  if isExcessive p.aliasDecodes p.decodes then throw .excessiveAliasing

/-- Reads a node, or the node that an alias stands for. -/
def following {α : Type} (n : Node) (read : Node → Decode α) : Decode α := do
  visit
  match n with
  | .reference _ place name anchor =>
    let before := (← get).active
    if before.contains place then throw (.containsItself name)
    modify fun p => { p with active := place :: before }
    visit
    let a ← read ((← MonadReader.read).nodes.getD anchor default)
    modify fun p => { p with active := before }
    return a
  | n => read n

/-- What a scalar stands for under its tag. -/
def scalar (tag value : Text) : Decode Value :=
  match Scalar.resolve tag value with
  | .error m => throw (.misfit m)
  | .ok (found, v) =>
    if found = Tag.binary then
      match ofBase64? value with
      | some bytes => return .text bytes
      | none => throw .invalidBase64
    else return v

/-- The keys of a mapping that are given twice, each as a fault. -/
def duplicates : List (Node × Node) → List Fault
  | [] => []
  | (k, _) :: rest =>
    (rest.filter fun p => k.sameShape p.1).map
      (fun p => Fault.duplicateKey p.1.line p.1.value k.line) ++ duplicates rest

/-- Whether a key is the merge key. -/
def isMerge : Node → Bool
  | .scalar _ tag _ value => value == ofString "<<" && tag == Tag.merge
  | _ => false

def isTaken (key : Value) (taken : Option (List Value)) : Bool :=
  match taken with
  | some keys => keys.any (Value.sameKey key)
  | none => false

/-- The mappings to merge, or a refusal at the first node that is none. -/
def mergeSources (n : Node) : Decode (List (Node × Bool)) := do
  let nodes := (← MonadReader.read).nodes
  let isMapping : Node → Bool
    | .mapping _ _ _ => true
    | .reference _ _ _ anchor => match nodes.getD anchor default with
      | .mapping _ _ _ => true
      | _ => false
    | _ => false
  match n with
  | .sequence _ _ items => return items.map fun i => (i, isMapping i)
  | n => return [(n, isMapping n)]

section Mapping

variable {β : Type} (readKey anyKey : Node → Decode (Option Value))
  (put : Node → Value → (again merged : Bool) → Node → β → Decode β)
  (instead? : Node → Option (Decode β))

/-- The own pairs of a mapping in order, with its merge node. -/
def ownPairs : List (Node × Node) → (done : List Value) → Option (List Value) → Option Node → β →
    Decode (β × Option (List Value) × Option Node)
  | [], _, taken, merge, b => return (b, taken, merge)
  | (k, v) :: rest, done, taken, merge, b =>
    if isMerge k then ownPairs rest done taken (some v) b
    else do
      match ← readKey k with
      | none => ownPairs rest done taken merge b
      | some key =>
        if isTaken key taken then ownPairs rest done taken merge b
        else
          let b ← put k key (done.any (Value.sameKey key)) taken.isSome v b
          ownPairs rest (key :: done) (taken.map (key :: ·)) merge b

/-- The pairs of a mapping: its own in order, and then those that it merges. A mapping to merge for
which there is another way to read it takes the place of everything read before. -/
def pairs : Nat → List (Node × Node) → β → Decode β
  | 0, _, b => return b
  | fuel + 1, ps, b => do
    let twice := duplicates ps
    if !twice.isEmpty then
      modify fun p => { p with faults := twice.reverse ++ p.faults }
      return b
    else
      let before := (← get).taken
      modify fun p => { p with taken := none }
      let (b, taken, merge) ← ownPairs readKey put ps [] before none b
      modify fun p => { p with taken }
      match merge with
      | none => return b
      | some m =>
        if taken.isNone then
          let keys ← ps.filterMapM fun p => anyKey p.1
          modify fun p => { p with taken := some keys }
        let b ← (← mergeSources m).foldlM (fun b source => do
          if !source.2 then throw .mergeOfNoMapping
          following source.1 fun n => match n with
            | .mapping _ _ more => (instead? n).getD (pairs fuel more b)
            | _ => return b) b
        if taken.isNone then modify fun p => { p with taken := none }
        return b

end Mapping

/-- A type that scalars are read as. -/
structure Reading (α : Type) where
  type : Text
  /-- The value that a scalar with the given source text stands for. -/
  ofScalar : Text → Value → Option α
  /-- The type under which a collection that is tagged as nothing is refused. -/
  emptyType : Text := type

/-- A fault for a node in the place of a `type`. -/
def misfit (n : Node) (type : Text) : Decode Unit :=
  match n with
  | .scalar line tag _ value => fault (.misfit line tag value type)
  | .sequence line tag _ => fault (.misfit line tag [] type)
  | .mapping line tag ps =>
    let twice := duplicates ps
    if twice.isEmpty then fault (.misfit line tag [] type)
    else modify fun p => { p with faults := twice.reverse ++ p.faults }
  | .reference _ _ _ _ => return

/-- A scalar of a type, nothing when it stands for nothing or does not fit. -/
def single {α : Type} (r : Reading α) (n : Node) : Decode (Option α) :=
  following n fun n => do
    match n with
    | .scalar _ tag _ value =>
      match ← scalar tag value with
      | .null => return none
      | v =>
        match r.ofScalar value v with
        | some a => return some a
        | none =>
          misfit n r.type
          return none
    | n =>
      let tag := (Tree.mk n (← MonadReader.read)).tag
      misfit n (if tag = Tag.null then r.emptyType else r.type)
      return none

namespace Reading

/-- The same type in a slot that may be left out. -/
def optional {α : Type} (r : Reading α) : Reading α := { r with emptyType := "*" ++ r.type }

/-- A text takes any scalar by its source text. -/
def text : Reading Text where
  type := "string"
  ofScalar source
    | .text t => some t
    | _ => some source

/-- The words for truth values in a slot that holds one. -/
def truthWords : List (Text × Bool) :=
  [("y", true), ("Y", true), ("yes", true), ("Yes", true), ("YES", true), ("on", true),
    ("On", true), ("ON", true), ("n", false), ("N", false), ("no", false), ("No", false),
    ("NO", false), ("off", false), ("Off", false), ("OFF", false)]

def bool : Reading Bool where
  type := "bool"
  ofScalar _
    | .bool b => some b
    | .text t => truthWords.lookup t
    | _ => none

/-- A double as a word of 64 bits: the integer part, the least word when that lies outside, and
nothing above the range. -/
def wordOf? (d : Double) : Option Int :=
  let top := Double.ofInt (Nat.pow 2 63)
  if d.isNaN ∨ top.lt d then none
  else if d.isInfinite then some (-(Nat.pow 2 63))
  else if Number.fitsInt64 d.truncate then some d.truncate
  else some (-(Nat.pow 2 63))

/-- A word of 64 bits under the name of its type. -/
def word (type : Text) : Reading Int where
  type := type
  ofScalar _
    | .int n => if Number.fitsInt64 n then some n else none
    | .float d => wordOf? d
    | _ => none

def int : Reading Int := word "int"

def int64 : Reading Int := word "int64"

def float : Reading Double where
  type := "float64"
  ofScalar _
    | .int n => some (.ofInt n)
    | .float d => some d
    | _ => none

/-- A span of time is given as a text with units. -/
def duration : Reading Int where
  type := "time.Duration"
  ofScalar _
    | .text t => Duration.parse? t
    | _ => none

end Reading

/-- A text as a key. -/
def textKey (n : Node) : Decode (Option Value) := do
  return (← single Reading.text n).map Value.text

/-- No mapping to merge is read in another way. -/
def never {β : Type} (_ : Node) : Option (Decode β) := none

/-- Whether a mapping becomes a map of texts: all its keys are strings or the merge key. -/
def hasTextKeys (anchors : Anchors) (ps : List (Node × Node)) : Bool :=
  ps.all fun p =>
    let tag := (Tree.mk p.1 anchors).tag
    tag == Tag.str || tag == Tag.merge

/-- Adds an entry to a map, which admits no list and no map as a key. A merged entry that stands for
nothing replaces no other. -/
def putEntry (item : Node → Decode (Option Value)) (blank : Value) (_ : Node) (key : Value)
    (_ merged : Bool) (n : Node) (entries : List (Value × Value)) :
    Decode (List (Value × Value)) := do
  match key with
  | .list _ => throw (.invalidKey key key.literal)
  | .map _ _ => throw (.invalidKey key key.literal)
  | _ =>
    match ← item n with
    | some v => return Value.setEntry key v entries
    | none =>
      let isNull := (Tree.mk n (← MonadReader.read)).tag == Tag.null
      let kept := merged && entries.any fun e => Value.sameKey e.1 key
      return if isNull && !kept then Value.setEntry key blank entries else entries

/-- The value of a node by itself, nothing when it holds a fault. -/
def any : Nat → Node → Decode (Option Value)
  | 0, _ => return none
  | fuel + 1, n => following n fun n => do
    match n with
    | .scalar _ tag _ value => return some (← scalar tag value)
    | .sequence _ _ items =>
      let vs ← items.filterMapM (any fuel)
      return some (.list vs)
    | .mapping _ _ ps =>
      if (duplicates ps).isEmpty then
        let textual := hasTextKeys (← MonadReader.read) ps
        let key := if textual then textKey else any fuel
        let entries ← pairs key (any fuel) (putEntry (any fuel) .null) never fuel ps []
        return some (.map (!textual) entries)
      else
        misfit n []
        return none
    | .reference _ _ _ _ => return none

/-- The entries of a map from texts to texts. -/
def textEntries (entries : List (Value × Value)) : List (Text × Text) :=
  entries.filterMap fun e => match e with
    | (.text k, .text v) => some (k, v)
    | _ => none

/-- A map from texts to texts; what stands for nothing is the empty text. -/
def texts (fuel : Nat) (ps : List (Node × Node)) : Decode (List (Text × Text)) := do
  return textEntries (← pairs textKey (any fuel) (putEntry textKey (.text [])) never fuel ps [])

/-- A map from texts of the type `type` to texts. Its keys are no plain texts, so a merge replaces
the entries of the map itself; and a mapping to merge that `instead?` reads replaces the whole
map. -/
def typedTexts (type : Text) (instead? : Node → Option (Decode (List (Text × Text)))) (fuel : Nat)
    (ps : List (Node × Node)) : Decode (List (Text × Text)) := do
  let key (n : Node) : Decode (Option Value) := do
    return (← single { Reading.text with type, emptyType := type } n).map Value.text
  let foreign (n : Node) : Decode (Option Value) := do
    let _ ← any fuel n
    return none
  let whole (n : Node) : Option (Decode (List (Value × Value))) :=
    (instead? n).map fun read => do return (← read).map fun e => (.text e.1, .text e.2)
  return textEntries (← pairs key foreign (putEntry textKey (.text [])) whole fuel ps [])

/-- How the value of one key goes into a record. -/
structure Slot (β : Type) where
  key : Text
  put : (fuel : Nat) → Node → β → Decode β

namespace Slot

/-- A slot for a scalar; it is left empty by a scalar that stands for nothing. -/
def scalar {α β : Type} (key : Text) (r : Reading α) (set : Option α → β → β) : Slot β where
  key := key
  put _ n b := do return set (← single r n) b

/-- A slot for any value. -/
def value {β : Type} (key : Text) (set : Value → β → β) : Slot β where
  key := key
  put fuel n b := do return set ((← any fuel n).getD .null) b

end Slot

/-- Adds the value of a key to a record. Keys without a slot are ignored. -/
def putSlot {β : Type} (type : Text) (slots : List (Slot β)) (fuel : Nat) (k : Node) (key : Value)
    (again _ : Bool) (n : Node) (b : β) : Decode β := do
  match key with
  | .text name =>
    match slots.find? fun s => s.key == name with
    | some slot =>
      if again then
        fault (.alreadySet k.line name type)
        return b
      else slot.put fuel n b
    | none => return b
  | _ => return b

/-- A record read slot by slot from a mapping, starting from `b`. -/
def record {β : Type} (type : Text) (slots : List (Slot β)) (fuel : Nat) (n : Node) (b : β) :
    Decode β :=
  following n fun n => do
    match n with
    | .mapping _ _ ps => pairs textKey (any fuel) (putSlot type slots fuel) never fuel ps b
    | .scalar _ tag _ value =>
      match ← Decode.scalar tag value with
      | .null => return b
      | _ =>
        misfit n type
        return b
    | n =>
      misfit n type
      return b

/-- A slot for a record inside a record. -/
def Slot.record {α β : Type} (key type : Text) (slots : List (Slot α)) (get : β → α)
    (set : α → β → β) : Slot β where
  key := key
  put fuel n b := do return set (← Decode.record type slots fuel n (get b)) b

/-- Reads a tree; every fault is refused. -/
def run {α : Type} (t : Tree) (read : (fuel : Nat) → Node → Decode α) : Except DecodeError α :=
  match StateT.run (ReaderT.run (read t.anchors.depth t.node) t.anchors) {} with
  | .error e => .error e
  | .ok (a, p) => if p.faults.isEmpty then .ok a else .error (.faults p.faults.reverse)

end Decode

end RecordSchema.Yaml
