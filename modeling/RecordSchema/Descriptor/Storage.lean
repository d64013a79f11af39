import RecordSchema.Model.Basic

/-!
# Storage layout

An object is a struct with a header, a presence mask and one member for each field in the order of
tags, every member at a multiple of its alignment. All offsets and sizes are words of 64 bits.
Objects that are held by value are laid out first; a layout that has been computed is kept under the
key of its object.
-/

namespace RecordSchema

/-- Where the parts of the header stand. -/
structure Header where
  /-- The type pointer. -/
  typeOffset : Int64 := 0
  /-- The offset to the parent, two bytes. -/
  parentOffset : Int64
  /-- The index among the parent's children, one byte. -/
  childIndexOffset : Int64
  identifierOffset : Int64
  /-- The presence mask, two bits for each field. -/
  maskOffset : Int64
  maskSize : Int64
  deriving DecidableEq, Repr

/-- The storage of a field. -/
structure Member where
  offset : Int64
  /-- All elements together. -/
  size : Int64
  /-- The counter of a repeated field. -/
  countOffset : Int64 := 0
  elementSize : Int64
  deriving DecidableEq, Repr, Inhabited

/-- The layout of an object. -/
structure Layout where
  header : Header
  /-- The members by field name. -/
  members : List (Text × Member)
  size : Int64
  align : Int64
  deriving Repr

namespace Layout

/-- The first multiple of `align` that is not below `n`. -/
def alignUp (n align : Int64) : Int64 :=
  if align ≤ 1 then n else (n + align - 1) / align * align

def word (n : Nat) : Int64 := Int64.ofNat n

/-- The size of the mask for a number of fields. -/
def maskSize (fields : Nat) : Int64 := word ((fields * 2 + 7) / 8)

/-- The member of a field. -/
def member (l : Layout) (name : Text) : Member := (l.members.lookup name).getD default

/-- The pointer size that is used when none is given. -/
def defaultPointerSize : Int := 8

def identifierSize : Int64 := word Atomic.identifier.size

def counterSize : Int64 := word countSize

/-- The header of an object with a number of fields. -/
def headerOf (pointerSize : Int64) (fields : Nat) : Header :=
  let child := pointerSize + counterSize
  let identifier := alignUp (child + 1) identifierSize
  { parentOffset := pointerSize
    childIndexOffset := child
    identifierOffset := identifier
    maskOffset := identifier + identifierSize
    maskSize := maskSize fields }

/-- The member of a field whose elements have the given size and alignment, after the members that
end at `stop`. -/
def place (f : Field) (size align stop : Int64) : Member :=
  if f.isRepeated then
    let count := alignUp stop counterSize
    { offset := alignUp (count + counterSize) align
      size := size * word f.bound
      countOffset := count
      elementSize := size }
  else { offset := alignUp stop align, size, elementSize := size }

/-- Layouts by object key. -/
abbrev Table := List (Text × Layout)

/-- The size and the alignment of an element that is not an object. -/
def flatElement (m : Model) (f : Field) : Int64 × Int64 :=
  match f.category with
  | .string => (word f.maxSize, 1)
  | .bytes => (alignUp (counterSize + word f.maxSize) counterSize, counterSize)
  | .enum => (word enumSize, word enumSize)
  | .bitmask =>
    let n := match m.bitmask? f.typeKey with
      | some b => word b.storageSize
      | none => 1
    (n, n)
  | _ =>
    match Atomic.ofText? f.typeName with
    | some a => (word a.size, word a.align)
    | none => (0, 0)

/-- The members of fields in order, after those that end at `stop`, with the end of the last one
and the greatest alignment. -/
def placeAll {σ : Type} (element : Field → StateM σ (Int64 × Int64)) : List Field →
    (stop align : Int64) → StateM σ (List (Text × Member) × Int64 × Int64)
  | [], stop, align => return ([], stop, align)
  | f :: rest, stop, align => do
    let (size, natural) ← element f
    let m := place f size natural stop
    let (more, stop, align) ←
      placeAll element rest (m.offset + m.size) (if align < natural then natural else align)
    return ((f.name, m) :: more, stop, align)

/-- The layout of an object, given how its elements are laid out. -/
def build {σ : Type} (pointerSize : Int64) (element : Field → StateM σ (Int64 × Int64))
    (o : Object) : StateM σ Layout := do
  let header := headerOf pointerSize o.fields.length
  let identifier : Member :=
    { offset := header.identifierOffset, size := identifierSize, elementSize := identifierSize }
  let align := if pointerSize < identifierSize then identifierSize else pointerSize
  let (members, stop, align) ←
    placeAll element o.ordered (header.maskOffset + header.maskSize) align
  return { header, members := (o.identifier.name, identifier) :: members,
           size := alignUp stop align, align }

/-- The layout of an object. The layouts of objects in it are taken from the table, or computed and
put there; `fuel` is no less than the depth of the objects inside each other. -/
def ofObject (m : Model) (pointerSize : Int64) : (fuel : Nat) → Object → StateM Table Layout
  | 0, o => build pointerSize (fun f => pure (flatElement m f)) o
  | fuel + 1, o => do
    match (← get).lookup o.key with
    | some l => return l
    | none =>
      let element (f : Field) : StateM Table (Int64 × Int64) := do
        if f.category = .object then
          match m.object? f.typeKey with
          | some sub =>
            let l ← ofObject m pointerSize fuel sub
            return (l.size, l.align)
          | none => return (0, 0)
        else return flatElement m f
      let l ← build pointerSize element o
      modify fun table => (o.key, l) :: table
      return l

/-- The pointer size to lay out with. -/
def effectivePointerSize (n : Int) : Int64 :=
  Int64.ofInt (if n ≤ 0 then defaultPointerSize else n)

/-- The layouts of objects, one after the other. -/
def ofObjects (m : Model) (pointerSize : Int) (os : List Object) : List (Object × Layout) :=
  let one (o : Object) : StateM Table (Object × Layout) := do
    let l ← ofObject m (effectivePointerSize pointerSize) m.allObjects.length o
    return (o, l)
  ((os.mapM one).run []).1

end Layout

end RecordSchema
