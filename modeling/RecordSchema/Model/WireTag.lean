import RecordSchema.Model.Declaration

/-!
# Wire tags

The identifier has a tag of its own. Other fields may claim tags; those that do not take the
smallest tags from two upwards that no field claims, in declaration order.
-/

namespace RecordSchema

open Text

namespace WireTag

/-- The tag that is never given. -/
def reserved : Int := 1

/-- The claim of a field that is not the identifier, given the earlier claims. -/
def claim (claimed : List (Int × Text)) (d : Declared) (tag : Int) :
    Except SchemaError (List (Int × Text)) :=
  let name := d.declarator.name
  if tag ≤ 0 then .error (.malformed d.place (.tagNotPositive tag))
  else if tag = reserved then .error (.tagConflict d.place tag [name] "is reserved")
  else if tag = Field.identifierTag then
    .error (.tagConflict d.place tag [name] "is reserved for the identifier field")
  else
    match claimed.lookup tag with
    | some other => .error (.tagConflict d.place tag [other, name] [])
    | none => .ok ((tag, name) :: claimed)

/-- Whether a declaration is that of the identifier. -/
def isIdentifier (d : Declared) : Bool := d.declarator.name == Field.identifierName

/-- The claims of all fields in declaration order, the latest first. -/
def claims : List (Int × Text) → List Declared → Except SchemaError (List (Int × Text))
  | claimed, [] => .ok claimed
  | claimed, d :: rest =>
    match isIdentifier d, d.attributes.tag with
    | true, some tag =>
      if tag = Field.identifierTag then claims claimed rest
      else
        .error (.tagConflict d.place tag [d.declarator.name]
          "cannot be used by the identifier field: it always has tag 1000")
    | false, some tag => do
      let claimed ← claim claimed d tag
      claims claimed rest
    | _, none => claims claimed rest

/-- The first tag from `next` on that is not claimed; `fuel` is no less than the number of
claims. -/
def firstFree (claimed : List Int) : (fuel : Nat) → (next : Int) → Int
  | 0, next => next
  | fuel + 1, next => if claimed.contains next then firstFree claimed fuel (next + 1) else next

/-- The tags of the fields in declaration order; `highest` is the greatest tag to give. -/
def assign (claimed : List Int) (highest : Int) : (next : Int) → List Declared →
    Except SchemaError (List Int)
  | _, [] => .ok []
  | next, d :: rest =>
    if isIdentifier d then do return Field.identifierTag :: (← assign claimed highest next rest)
    else
      match d.attributes.tag with
      | some tag => do return tag :: (← assign claimed highest next rest)
      | none =>
        let tag := firstFree claimed claimed.length next
        if highest < tag then .error (.malformed d.place .noTagLeft)
        else do return tag :: (← assign claimed highest (tag + 1) rest)

/-- The tags of the fields of an object, in declaration order. -/
def allocate (ds : List Declared) : Except SchemaError (List Int) := do
  let claimed ← claims [] ds
  let count := (ds.filter fun d => !isIdentifier d).length
  assign (claimed.map Prod.fst) (count + 1) (reserved + 1) ds

end WireTag

end RecordSchema
