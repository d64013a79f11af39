import RecordSchema.Descriptor.Bundle

/-!
# Descriptors as records

The fields of descriptors as they are written, in order. Fields that hold nothing are left out where
readers take that for the default.
-/

namespace RecordSchema

open Text

namespace Record

/-- A record of the fields that are there. -/
def of (fields : List (Option (Text × Value))) : Value := .record (fields.filterMap id)

def field (name : Text) (value : Value) : Option (Text × Value) := some (name, value)

/-- A text that is left out when it is empty. -/
def text? (name value : Text) : Option (Text × Value) :=
  if value.isEmpty then none else some (name, .text value)

/-- A number that is left out when it is zero. -/
def nat? (name : Text) (value : Nat) : Option (Text × Value) :=
  if value = 0 then none else some (name, .int value)

/-- A value that may be left out. -/
def value? (name : Text) (value : Option Value) : Option (Text × Value) :=
  value.map fun v => (name, v)

def word (n : Int64) : Value := .int n.toInt

end Record

open Record

def Detail.value (d : Detail) : Value :=
  .record [("kind", .text d.kind), ("key", .text d.key), ("name", .text d.name)]

def Header.value (h : Header) : Value :=
  .record
    [("rtti_offset", word h.typeOffset), ("parent_offset", word h.parentOffset),
      ("child_index_offset", word h.childIndexOffset), ("id_offset", word h.identifierOffset),
      ("mask_offset", word h.maskOffset), ("mask_size", word h.maskSize)]

def FieldDescriptor.value (f : FieldDescriptor) : Value :=
  Record.of
    [field "name" (.text f.name),
      field "title" (.text f.title),
      field "plural" (.text f.plural),
      field "member" (.text f.member),
      text? "description" f.description,
      text? "alias" f.aliasName,
      field "tag" (.int f.tag),
      field "index" (.int f.index),
      field "category" (.text f.category.name),
      field "variant" (.text f.variant.name),
      field "type_name" (.text f.typeName),
      field "offset" (word f.offset),
      field "data_offset" (word f.dataOffset),
      field "anchor" (.text (if f.previous.isSome then "previous" else "first")),
      text? "previous" (f.previous.getD []),
      field "count_offset" (word f.countOffset),
      field "data_size" (word f.dataSize),
      field "array_bound" (.int f.bound),
      nat? "max_size" f.maxSize,
      field "persist" (.bool f.persist),
      field "always_notify" (.bool f.alwaysNotify),
      field "is_action" (.bool f.isAction),
      value? "min" (f.min.map Value.float),
      value? "max" (f.max.map Value.float),
      field "read_level" (.text f.read.name),
      field "write_level" (.text f.write.name),
      value? "default" f.default,
      value? "detail" (f.detail.map Detail.value)]

/-- An object with `none` for an empty list of dependencies. -/
def ObjectDescriptor.value (none : Value) (o : ObjectDescriptor) : Value :=
  .record
    [("name", .text o.name), ("struct_name", .text o.structName),
      ("class_name", .text o.className), ("origin", .text o.origin),
      ("fields", .list (o.fields.map FieldDescriptor.value)),
      ("total_field_count", .int o.fields.length), ("header", o.header.value),
      ("storage_size", word o.storageSize),
      ("dependencies", if o.dependencies.isEmpty then none
        else .list (o.dependencies.map Value.text))]

def DatabaseEntry.value (e : DatabaseEntry) : Value :=
  Record.of
    [field "name" (.text e.name),
      field "kind" (.text e.kind.name),
      field "backing_type" (.text e.backingType),
      field "backing_key" (.text e.backingKey),
      nat? "bound" e.bound,
      field "create" (.text e.create.name),
      field "read" (.text e.read.name),
      field "update" (.text e.update.name),
      field "delete" (.text e.delete.name),
      text? "description" e.description]

def DatabaseDescriptor.value (d : DatabaseDescriptor) : Value :=
  .record
    [("name", .text d.name), ("origin", .text d.origin),
      ("entries", .list (d.entries.map DatabaseEntry.value))]

def LabelledValue.record (v : LabelledValue) : Value :=
  Record.of
    [field "symbol" (.text v.symbol), field "label" (.text v.label), field "value" (.int v.value),
      text? "description" v.description]

def EnumDescriptor.value (e : EnumDescriptor) : Value :=
  Record.of
    [field "name" (.text e.name), field "origin" (.text e.origin),
      nat? "storage_size" e.storageSize,
      field "values" (.list (e.values.map LabelledValue.record))]

/-- A bundle with `none` for an empty list of dependencies. -/
def Bundle.value (none : Value) (b : Bundle) : Value :=
  .record
    [("schema", .text b.schema), ("imports", .list (b.imports.map Value.text)),
      ("constants", .list (b.constants.map fun c =>
        .record [("name", .text c.1), ("value", .text c.2)])),
      ("enums", .list (b.enums.map EnumDescriptor.value)),
      ("bitmasks", .list (b.bitmasks.map EnumDescriptor.value)),
      ("objects", .list (b.objects.map (ObjectDescriptor.value none))),
      ("databases", .list (b.databases.map DatabaseDescriptor.value))]

end RecordSchema
