import RecordSchema.Model.Basic
import RecordSchema.Program.Load

/-!
# Declarations in a namespace

What field and entry declarations refer to is found in the namespace of their document: classes,
constants and types.
-/

namespace RecordSchema

open Text Yaml

/-- The class of bodies that name none. -/
def defaultClass : Text := "default"

/-- The key of a definition as models hold it. -/
theorem Definition.key_eq (d : Definition) : d.key = qualified d.origin d.name := rfl

namespace Namespace

/-- The attributes of the class that a body names. The default class need not exist. -/
def classOf (n : Namespace) (place : Location) (own : Attributes) : Except SchemaError Attributes :=
  let name := own.className.getD defaultClass
  match n.lookup? .attributeClass name with
  | none =>
    if own.className.isSome then .error (.malformed place (.unknownClass name)) else .ok {}
  | some d =>
    match Attributes.ofClass (some d.body) with
    | .ok a => .ok a
    | .error e => .error (.malformed d.place (.body e))

/-- The greatest number that a count may be. -/
def countLimit : Int := 2147483647

/-- The text of a count: that of a constant if it is the name of one. -/
def countText? (n : Namespace) (text : Text) : Option Text :=
  if isIdentifier text then
    (n.lookup? .constant text).map fun d => d.body.node.value
  else some text

/-- A positive number, given literally or by the name of a constant. `what` names it in messages. -/
def positive (n : Namespace) (place : Location) (text what : Text) : Except SchemaError Nat :=
  let text := trim text
  match n.countText? text with
  | none => .error (.malformed place (.unknownConstant what text))
  | some literal =>
    match Number.int? literal with
    | some i =>
      if 0 < i ∧ i ≤ countLimit then .ok i.toNat
      else .error (.malformed place (.notPositive what text))
    | none => .error (.malformed place (.notPositive what text))

end Namespace

/-- A type with what its name stands for. -/
structure TypeReference where
  category : Category
  base : Text
  key : Text := []
  maxSize : Nat := 0
  deriving DecidableEq, Repr

namespace TypeReference

/-- The definitions that a type name may stand for, the first kind with one counts. -/
def definition? (n : Namespace) (base : Text) : Option TypeReference :=
  match n.lookup? .enum base with
  | some d => some { category := .enum, base, key := d.key }
  | none =>
    match n.lookup? .bitmask base with
    | some d => some { category := .bitmask, base, key := d.key }
    | none => (n.lookup? .object base).map fun d => { category := .object, base, key := d.key }

/-- The two types that take a size. -/
def sizedCategory? (base : Text) : Option Category :=
  if base = "string" then some .string else if base = "bytes" then some .bytes else none

/-- A type without a size. -/
def plain (n : Namespace) (place : Location) (base : Text) : Except SchemaError TypeReference :=
  match Atomic.ofText? base with
  | some a => .ok { category := a.category, base }
  | none =>
    match definition? n base with
    | some r => .ok r
    | none => .error (.unresolvedType place base)

/-- Resolves a declared type: a sized one, a built-in one, an enum, a bitmask or an object. -/
def resolve (n : Namespace) (place : Location) (declared : Text) :
    Except SchemaError TypeReference :=
  let declared := trim declared
  if declared = [] then .error (.malformed place .missingType)
  else
    let (base, size) : Text × Option Text := match cut? 58 declared with
      | some (base, size) => (trim base, some size)
      | none => (declared, none)
    match sizedCategory? base, size with
    | some category, some size => do
      let maxSize ← n.positive place size (base ++ " size")
      return { category, base, maxSize }
    | some _, none => .error (.malformed place (.unsized declared base))
    | none, some _ => .error (.malformed place (.sizeNotTaken declared))
    | none, none => plain n place base

end TypeReference

namespace Auth

/-- The level name for a verb. -/
def get? (a : Option Auth) (v : Verb) : Option Text := (a.getD []).lookup v.name

/-- The first verb with something other than a level, and what it is. -/
def firstInvalid? (a : Option Auth) : Option (Verb × Text) :=
  Verb.all.findSome? fun v =>
    match get? a v with
    | some t => if (Level.ofText? t).isSome then none else some (v, t)
    | none => none

def check (place : Location) (a : Option Auth) : Except SchemaError Unit :=
  match firstInvalid? a with
  | some (v, t) => .error (.permission place v.name t)
  | none => .ok ()

/-- The level for a verb, or `fallback` where none is given. -/
def level (a : Option Auth) (v : Verb) (fallback : Level) : Level :=
  match get? a v with
  | some t => (Level.ofText? t).getD .everyone
  | none => fallback

end Auth

/-- A field or an entry with its attributes. -/
structure Declared where
  declarator : Declarator
  /-- The attributes together with those of the class. -/
  attributes : Attributes
  place : Location
  deriving Repr

namespace Declared

/-- Where a pair of a definition's body stands; the member is named as written. -/
def placeOf (entity : Location) (pair : Tree × Tree) : Location :=
  { entity with line := pair.1.line, member := pair.1.node.value }

/-- Reads the name of a declaration. -/
def readName (entity : Location) (pair : Tree × Tree) : Except SchemaError Declarator :=
  match Declarator.parse pair.1.node.value with
  | .ok d => .ok d
  | .error e => .error (.malformed (placeOf entity pair) (.declarator e))

/-- Reads the body of a declaration and takes what it leaves out from its class. -/
def readBody (n : Namespace) (place : Location) (body : Tree) : Except SchemaError Attributes :=
  match Body.read (some body) with
  | .error e => .error (.malformed place (.body e))
  | .ok b => do
    let base ← n.classOf place b.attributes
    return b.attributes.inherit base

end Declared

end RecordSchema
