import Mathlib.Data.List.Basic
import RecordSchema.Descriptor.Record

/-!
# What descriptors hold

The records of descriptors are made of texts, whole numbers and truth values, apart from the bounds
and defaults of fields. A property that passes from what a collection holds to the collection is
therefore settled by these.
-/

namespace RecordSchema

/-- Whether a property of values at a depth passes from what a list or a record holds to the
whole. -/
structure Value.Passes (P : Nat → Value → Prop) : Prop where
  list_iff : ∀ {n items}, P n (.list items) ↔ ∀ v ∈ items, P (n + 2) v
  record_iff : ∀ {n fields}, P n (.record fields) ↔ ∀ f ∈ fields, P (n + 2) f.2
  text : ∀ {n} t, P n (.text t)
  int : ∀ {n} i, P n (.int i)
  bool : ∀ {n} b, P n (.bool b)

namespace Record

/-- Whether a field of a record is left out or has a property. -/
def All (P : Value → Prop) (entry : Option (Text × Value)) : Prop := ∀ f ∈ entry, P f.2

variable {P : Value → Prop}

theorem all_field {name : Text} {v : Value} : All P (field name v) ↔ P v := by
  simp [All, field]

theorem all_value? {name : Text} {v : Option Value} : All P (value? name v) ↔ ∀ w ∈ v, P w := by
  cases v <;> simp [All, value?]

theorem all_text? (h : ∀ t, P (.text t)) (name t : Text) : All P (text? name t) := by
  unfold text?
  split <;> simp [All, h]

theorem all_nat? (h : ∀ i, P (.int i)) (name : Text) (n : Nat) : All P (nat? name n) := by
  unfold nat?
  split <;> simp [All, h]

end Record

section Passes

variable {P : Nat → Value → Prop} (h : Value.Passes P) {n : Nat}

include h

theorem Record.passes_of {entries : List (Option (Text × Value))} :
    P n (Record.of entries) ↔ ∀ entry ∈ entries, All (P (n + 2)) entry := by
  simp only [Record.of, h.record_iff, List.mem_filterMap, id_eq, All, Option.mem_def]
  constructor
  · intro hall entry hentry f hf
    exact hall f ⟨entry, hentry, hf⟩
  · rintro hall f ⟨entry, hentry, hf⟩
    exact hall entry hentry f hf

theorem Detail.passes_value (d : Detail) : P n d.value := by
  simp [Detail.value, h.record_iff, h.text]

theorem Header.passes_value (header : Header) : P n header.value := by
  simp [Header.value, h.record_iff, Record.word, h.int]

/-- The record of a field has the property exactly if its bounds and its default have it. -/
theorem FieldDescriptor.passes_value_iff {f : FieldDescriptor} :
    P n f.value ↔ (∀ d ∈ f.min, P (n + 2) (.float d)) ∧ (∀ d ∈ f.max, P (n + 2) (.float d)) ∧
      ∀ v ∈ f.default, P (n + 2) v := by
  have hbound : ∀ bound : Option Double,
      (∀ w ∈ bound.map Value.float, P (n + 2) w) ↔ ∀ d ∈ bound, P (n + 2) (.float d) := by
    intro bound
    cases bound <;> simp
  have hdetail : ∀ v ∈ f.detail.map Detail.value, P (n + 2) v := by
    intro v hv
    obtain ⟨d, _, rfl⟩ := Option.map_eq_some_iff.mp hv
    exact d.passes_value h
  simp only [FieldDescriptor.value, Record.passes_of h, List.forall_mem_cons, Record.all_field,
    Record.all_text? h.text, Record.all_nat? h.int, Record.all_value?, Record.word, h.text, h.int,
    h.bool, hbound, true_and]
  constructor
  · rintro ⟨hmin, hmax, hdefault, _⟩
    exact ⟨hmin, hmax, hdefault⟩
  · rintro ⟨hmin, hmax, hdefault⟩
    exact ⟨hmin, hmax, hdefault, hdetail, List.forall_mem_nil _⟩

theorem ObjectDescriptor.passes_value_iff {none : Value} (hnone : P (n + 2) none)
    {o : ObjectDescriptor} : P n (o.value none) ↔ ∀ f ∈ o.fields, P (n + 4) f.value := by
  have hdependencies : P (n + 2) (if o.dependencies = [] then none
      else .list (o.dependencies.map Value.text)) := by
    split
    · exact hnone
    · simp [h.list_iff, h.text]
  simp [ObjectDescriptor.value, h.record_iff, h.list_iff, h.text, h.int, Record.word,
    o.header.passes_value h, hdependencies]

theorem DatabaseDescriptor.passes_value (d : DatabaseDescriptor) : P n d.value := by
  simp [DatabaseDescriptor.value, DatabaseEntry.value, Record.passes_of h, h.record_iff, h.list_iff,
    h.text, Record.all_field, Record.all_text? h.text, Record.all_nat? h.int]

theorem EnumDescriptor.passes_value (e : EnumDescriptor) : P n e.value := by
  simp [EnumDescriptor.value, LabelledValue.record, Record.passes_of h, h.list_iff, h.text, h.int,
    Record.all_field, Record.all_text? h.text, Record.all_nat? h.int]

/-- The record of a bundle has the property exactly if the records of its objects have it. -/
theorem Bundle.passes_value_iff {none : Value} {b : Bundle} :
    P n (b.value none) ↔ ∀ o ∈ b.objects, P (n + 4) (o.value none) := by
  simp only [Bundle.value, h.record_iff, h.list_iff, List.forall_mem_cons, List.forall_mem_map,
    h.text, EnumDescriptor.passes_value h, DatabaseDescriptor.passes_value h, implies_true,
    true_and, List.not_mem_nil, false_implies, and_true]

end Passes

end RecordSchema
