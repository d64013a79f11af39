import RecordSchema.Catalog

/-!
# Descriptor variants

The accessors of a field are made from a template for its category, for a single field or a repeated
one.
-/

namespace RecordSchema

open Text

inductive Plurality where
  | single
  | repeated
  deriving DecidableEq, Repr

namespace Plurality

def name : Plurality → Text
  | .single => "single"
  | .repeated => "repeated"

def ofCode? (n : Int) : Option Plurality :=
  if n = 0 then some .single else if n = 1 then some .repeated else none

end Plurality

/-- The family of accessors of a field. -/
inductive Template where
  | atomic
  | string
  | bytes
  | bitmask
  | subobject
  deriving DecidableEq, Repr

namespace Template

def all : List Template := [.atomic, .string, .bytes, .bitmask, .subobject]

def name : Template → Text
  | .atomic => "atomic"
  | .string => "string"
  | .bytes => "bytes"
  | .bitmask => "bitmask"
  | .subobject => "subobject"

/-- The name of the template with a number, counted from one, also where there is none. -/
def nameOfCode (n : Int) : Text :=
  match if n < 1 then none else all[n.toNat - 1]? with
  | some t => t.name
  | none => "Template(" ++ ofInt n ++ ")"

/-- Enums and the numeric categories share the atomic accessors. -/
def ofCategory : Category → Template
  | .string => .string
  | .bytes => .bytes
  | .bitmask => .bitmask
  | .object => .subobject
  | _ => .atomic

end Template

structure Variant where
  template : Template
  plurality : Plurality
  deriving DecidableEq, Repr

/-- Why there is no variant for two numbers. -/
inductive VariantError where
  | category (code : Int)
  | plurality (code : Int)
  deriving DecidableEq, Repr

def VariantError.message : VariantError → Text
  | .category code => "no descriptor variant for category " ++ Category.nameOfCode code
  | .plurality code => "no descriptor variant for plurality " ++ ofInt code

namespace Variant

def name (v : Variant) : Text := v.template.name ++ "/" ++ v.plurality.name

/-- The name of a variant given by the numbers of its parts. -/
def nameOfCodes (template plurality : Int) : Text :=
  Template.nameOfCode template ++ "/" ++
    (if plurality = 1 then Plurality.repeated else Plurality.single).name

/-- The variant for the numbers of a category and a plurality. -/
def ofCodes (category plurality : Int) : Except VariantError Variant :=
  match Category.ofCode? category, Plurality.ofCode? plurality with
  | none, _ => .error (.category category)
  | some _, none => .error (.plurality plurality)
  | some c, some p => .ok ⟨.ofCategory c, p⟩

end Variant

end RecordSchema
