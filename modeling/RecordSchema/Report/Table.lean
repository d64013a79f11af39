import RecordSchema.Descriptor.Bundle
import RecordSchema.Report.Columns

/-!
# Bundles as text tables

A summary for reading: one table for each enum, bitmask, object and database.
-/

namespace RecordSchema

open Text

namespace Table

/-- A row of cells. -/
def row (cells : List Text) : Text := join [9] cells ++ [10]

/-- A title and a table under it, with or without a row of headings. -/
def titled (title : Text) (noHeader : Bool) (headings : List Text) (rows : List (List Text)) :
    Text :=
  let head : Text := if noHeader then [] else row headings
  "\n" ++ title ++ "\n" ++ Columns.format (head ++ rows.flatMap row)

def word (n : Int64) : Text := ofInt n.toInt

def valueHeadings : List Text := ["SYMBOL", "VALUE", "DESCRIPTION"]

def values (noHeader : Bool) (kind : Text) (e : EnumDescriptor) : Text :=
  titled (kind ++ " " ++ e.name) noHeader valueHeadings
    (e.values.map fun v => [v.symbol, ofInt v.value, v.description])

/-- The declared type with its size. -/
def typeLabel (f : FieldDescriptor) : Text :=
  if f.maxSize = 0 then f.typeName else f.typeName ++ ":" ++ ofNat f.maxSize

def flags (f : FieldDescriptor) : Text :=
  let on : List (Bool × Text) :=
    [(f.persist, "persist"), (f.alwaysNotify, "notify"), (f.isAction, "action")]
  match (on.filter Prod.fst).map Prod.snd with
  | [] => "-"
  | names => join "," names

def fieldHeadings : List Text :=
  ["INDEX", "TAG", "NAME", "TYPE", "VARIANT", "OFFSET", "DATA_OFFSET", "SIZE", "BOUND", "READ",
    "WRITE", "FLAGS"]

def fieldRow (f : FieldDescriptor) : List Text :=
  [ofNat f.index, ofInt f.tag, f.name, typeLabel f, f.variant.name, word f.offset,
    word f.dataOffset, word f.dataSize, ofNat f.bound, f.read.name, f.write.name, flags f]

def object (noHeader : Bool) (o : ObjectDescriptor) : Text :=
  titled
    ("Object " ++ o.name ++ " (" ++ o.structName ++ ", " ++ word o.storageSize ++ " bytes, " ++
      ofNat o.fields.length ++ " fields)")
    noHeader fieldHeadings (o.fields.map fieldRow)

def entryHeadings : List Text :=
  ["NAME", "KIND", "TYPE", "BOUND", "CREATE", "READ", "UPDATE", "DELETE"]

def entryRow (e : DatabaseEntry) : List Text :=
  [e.name, e.kind.name, e.backingType, ofNat e.bound, e.create.name, e.read.name, e.update.name,
    e.delete.name]

def database (noHeader : Bool) (d : DatabaseDescriptor) : Text :=
  titled ("Database " ++ d.name) noHeader entryHeadings (d.entries.map entryRow)

def constant (c : Text × Text) : Text := "Constant " ++ c.1 ++ " = " ++ c.2 ++ "\n"

/-- A bundle as tables. -/
def bundle (noHeader : Bool) (b : Bundle) : Text :=
  let imports : Text :=
    if b.imports.isEmpty then [] else "Imports: " ++ join ", " b.imports ++ "\n"
  "Schema " ++ b.schema ++ "\n" ++ imports ++
    b.constants.flatMap constant ++
    b.enums.flatMap (values noHeader "Enum") ++ b.bitmasks.flatMap (values noHeader "Bitmask") ++
    b.objects.flatMap (object noHeader) ++ b.databases.flatMap (database noHeader)

end Table

end RecordSchema
