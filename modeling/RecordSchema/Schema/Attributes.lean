import RecordSchema.Schema.Level
import RecordSchema.Yaml.Decode

/-!
# Attributes

What a field, a database entry or a class declares about itself. Every attribute may be left out,
and what a body leaves out comes from its class.
-/

namespace RecordSchema

open Text Yaml

/-- Level names by the names of verbs. They are checked where they are used. -/
abbrev Auth := List (Text × Text)

namespace Auth

/-- The same level name for every verb. -/
def uniform (level : Text) : Auth := Verb.all.map fun v => (v.name, level)

/-- The names in an auth that are no verbs. -/
def unknown (a : Auth) : List Text :=
  (a.filter fun e => (Verb.ofText? e.1).isNone).map Prod.fst

/-- Reads a mapping from verbs to levels. What does not fit in it refuses the document at once. -/
def readMapping (n : Node) (ps : List (Node × Node)) : Decode Auth := do
  let whole (fuel : Nat) (n : Node) : Decode Auth :=
    Decode.following n fun _ => Decode.texts fuel ps
  match Decode.run ⟨n, ← MonadReader.read⟩ whole with
  | .error e => throw (.within "auth" e)
  | .ok auth =>
    match unknown auth with
    | verb :: rest => throw (.within "auth" (.unknown "verb" verb (verb :: rest)))
    | [] => return auth

/-- How a mapping that is merged into one that is tagged as nothing is read: by itself, unless it is
tagged so too. -/
def readMerged? : Node → Option (Decode Auth)
  | n@(.mapping _ tag ps) => if tag = Tag.null then none else some (readMapping n ps)
  | _ => none

/-- Reads a single level for every verb, or a mapping from verbs to levels. In a mapping that is
tagged as nothing any name may stand for a verb. -/
def read (fuel : Nat) (n : Node) : Decode (Option Auth) :=
  Decode.following n fun n => do
    match n with
    | .scalar _ tag _ value =>
      if tag = Tag.null then
        let _ ← Decode.scalar tag value
        return none
      else return some (uniform value)
    | .mapping _ tag ps =>
      if tag = Tag.null then return some (← Decode.typedTexts "schema.Verb" readMerged? fuel ps)
      else return some (← readMapping n ps)
    | .sequence _ tag _ =>
      if tag = Tag.null then
        Decode.misfit n "schema.Auth"
        return none
      else throw (.refused "auth must be a level or a mapping of verbs to levels")
    | .reference _ _ _ _ => return none

end Auth

/-- The attributes of a body. -/
structure Attributes where
  /-- The declared type, such as `u8` or `string:32`. -/
  type : Option Text := none
  /-- The class to take undeclared attributes from. -/
  className : Option Text := none
  /-- An explicit wire tag. -/
  tag : Option Int := none
  auth : Option Auth := none
  persist : Option Bool := none
  alwaysNotify : Option Bool := none
  min : Option Double := none
  max : Option Double := none
  description : Option Text := none
  aliasName : Option Text := none
  default : Option Value := none
  deriving Repr, Inhabited

namespace Attributes

/-- The attributes of a body with those it leaves out taken from its class. A tag is never
inherited, and a declared auth replaces that of the class as a whole. -/
def inherit (a base : Attributes) : Attributes :=
  { type := a.type <|> base.type
    className := a.className
    tag := a.tag
    auth := a.auth <|> base.auth
    persist := a.persist <|> base.persist
    alwaysNotify := a.alwaysNotify <|> base.alwaysNotify
    min := a.min <|> base.min
    max := a.max <|> base.max
    description := a.description <|> base.description
    aliasName := a.aliasName <|> base.aliasName
    default := a.default <|> base.default }

/-- A value as a default; nothing is no default. -/
def defaultOf : Value → Option Value
  | .null => none
  | v => some v

open Decode in
/-- How each attribute is read. -/
def slots : List (Slot Attributes) :=
  [.scalar "type" Reading.text.optional fun v a => { a with type := v },
    .scalar "class" Reading.text.optional fun v a => { a with className := v },
    .scalar "tag" Reading.int.optional fun v a => { a with tag := v },
    ⟨"auth", fun fuel n a => do return { a with auth := ← Auth.read fuel n }⟩,
    .scalar "persist" Reading.bool.optional fun v a => { a with persist := v },
    .scalar "alwaysNotify" Reading.bool.optional fun v a => { a with alwaysNotify := v },
    .scalar "min" Reading.float.optional fun v a => { a with min := v },
    .scalar "max" Reading.float.optional fun v a => { a with max := v },
    .scalar "description" Reading.text.optional fun v a => { a with description := v },
    .scalar "alias" Reading.text.optional fun v a => { a with aliasName := v },
    .value "default" fun v a => { a with default := defaultOf v }]

/-- Reads a mapping of attributes. -/
def read (t : Tree) : Except DecodeError Attributes :=
  Decode.run t fun fuel n => Decode.record "schema.Attrs" slots fuel n {}

end Attributes

/-- Why a body gives no attributes. -/
inductive BodyError where
  | missingType
  | notTypeNorMapping
  | classNotMapping
  | attributes (cause : DecodeError)
  deriving Repr

namespace BodyError

def message : BodyError → Text
  | missingType => "missing type"
  | notTypeNorMapping => "body should be a type name or a mapping of attributes"
  | classNotMapping => "class definition should be a mapping"
  | attributes cause => cause.message

end BodyError

/-- The body of a field or of a database entry: a type name by itself, or attributes. -/
inductive Body where
  | type (name : Text)
  | detailed (attributes : Attributes)
  deriving Repr

namespace Body

def attributes : Body → Attributes
  | type name => { type := some name }
  | detailed a => a

/-- Reads the body at a node, if there is one. -/
def read (t : Option Tree) : Except BodyError Body :=
  match t.map Tree.target with
  | none => .error .missingType
  | some t =>
    if t.isNull then .error .missingType
    else
      match t.node with
      | .scalar _ _ _ value => .ok (.type value)
      | .mapping _ _ _ =>
        match Attributes.read t with
        | .ok a => .ok (.detailed a)
        | .error e => .error (.attributes e)
      | _ => .error .notTypeNorMapping

end Body

/-- Reads the body of a class. An empty one has no attributes. -/
def Attributes.ofClass (t : Option Tree) : Except BodyError Attributes :=
  match t.map Tree.target with
  | none => .ok {}
  | some t =>
    if t.isNull then .ok {}
    else
      match t.node with
      | .mapping _ _ _ =>
        match Attributes.read t with
        | .ok a => .ok a
        | .error e => .error (.attributes e)
      | _ => .error .classNotMapping

end RecordSchema
