import RecordSchema.Proofs.Descriptor.Order
import RecordSchema.Proofs.Model.Entry
import RecordSchema.Proofs.Model.Field
import RecordSchema.Store.Library

/-!
# Referential integrity

Whatever a field or a database entry of a resolved model refers to is in the model, under the key it
is referred to by. Emitting a model therefore never comes to a definition that is missing: it fails
only at a cycle, and every layout is put together from definitions and built-in types that exist.
-/

namespace RecordSchema

open Text

/-- Whether the type of a field is in the model, under its key and by its name. The other types are
built in and have no key. -/
def Model.Knows (m : Model) (f : Field) : Prop :=
  match f.category with
  | .enum => ∃ e, m.enum? f.typeKey = some e ∧ e.name = f.typeName
  | .bitmask => ∃ b, m.bitmask? f.typeKey = some b ∧ b.name = f.typeName
  | .object => ∃ o, m.object? f.typeKey = some o ∧ o.name = f.typeName
  | .string => f.typeKey = [] ∧ f.typeName = "string"
  | .bytes => f.typeKey = [] ∧ f.typeName = "bytes"
  | _ => f.typeKey = [] ∧ ∃ a, Atomic.ofText? f.typeName = some a ∧ a.category = f.category

/-- Whether all that the fields and entries of a model refer to is in the model. -/
structure Model.IsClosed (m : Model) : Prop where
  knows : ∀ o ∈ m.allObjects, ∀ f ∈ o.fields, m.Knows f
  backing : ∀ d ∈ m.databases, ∀ e ∈ d.entries, e.kind ≠ .subdatabase →
    ∃ o, m.object? e.backingKey = some o ∧ o.name = e.backingType

theorem Atomic.category_not_sized :
    ∀ a ∈ Atomic.all, a.category ≠ .string ∧ a.category ≠ .bytes := by
  decide

namespace TypeReference

/-- A type without a size is neither of the two that take one. -/
theorem not_sized_of_plain {n : Namespace} {place : Location} {base : Text} {type : TypeReference}
    (h : plain n place base = .ok type) : type.category ≠ .string ∧ type.category ≠ .bytes := by
  unfold plain at h
  split at h
  · next a ha =>
      cases h
      exact Atomic.category_not_sized a (List.mem_of_find?_eq_some ha)
  · split at h
    · next r hr =>
        cases h
        obtain ⟨target, hnames, _⟩ := definition?_eq_some hr
        have hcategory := hnames.category_eq
        constructor
        · intro hc
          rw [hc] at hcategory
          cases hk : target.keyword <;> rw [hk] at hcategory <;> cases hcategory
        · intro hc
          rw [hc] at hcategory
          cases hk : target.keyword <;> rw [hk] at hcategory <;> cases hcategory
    · cases h

theorem sizedCategory?_of_resolve {n : Namespace} {place : Location} {declared : Text}
    {type : TypeReference} (h : resolve n place declared = .ok type)
    (hc : type.category = .string ∨ type.category = .bytes) :
    sizedCategory? type.base = some type.category := by
  unfold resolve at h
  simp only at h
  split at h
  · cases h
  · split at h
    · next hsized _ =>
        obtain ⟨maxSize, _, h⟩ := bind_eq_ok_iff.mp h
        cases h
        exact hsized
    · cases h
    · cases h
    · obtain ⟨hstring, hbytes⟩ := not_sized_of_plain h
      rcases hc with hc | hc
      · exact absurd hc hstring
      · exact absurd hc hbytes

theorem base_of_sizedCategory? {base : Text} {c : Category} (h : sizedCategory? base = some c) :
    (c = .string ∧ base = "string") ∨ (c = .bytes ∧ base = "bytes") := by
  unfold sizedCategory? at h
  split at h
  · next hbase =>
      cases h
      exact Or.inl ⟨rfl, hbase⟩
  · split at h
    · next hbase =>
        cases h
        exact Or.inr ⟨rfl, hbase⟩
    · cases h

end TypeReference

theorem Object.exists_declared_of_mem_fields {n : Namespace} {d : Definition} {o : Object}
    (h : Object.resolve n d = .ok o) {f : Field} (hf : f ∈ o.fields) :
    f = Field.implicitIdentifier ∨ ∃ declared tag, Declared.resolve n declared tag = .ok f := by
  rcases List.mem_cons.mp hf with rfl | hf
  · obtain ⟨ds, tags, fields, _, _, hfields, rfl⟩ := resolve_eq_ok_iff.mp h
    cases hfind : fields.find? Field.isIdentifier with
    | none => exact Or.inl (by simp [ofFields, hfind])
    | some f =>
        obtain ⟨x, _, hx⟩ :=
          (mem_of_resolveFields_eq_ok hfields).mp (List.mem_of_find?_eq_some hfind)
        exact Or.inr ⟨x.1, x.2, by simpa [ofFields, hfind] using hx⟩
  · obtain ⟨_, declared, tag, _, _, hf⟩ := exists_declared_of_mem_ordered h hf
    exact Or.inr ⟨declared, tag, hf⟩

namespace Model

section Closed

variable {source : Source} {root : Text} {p : Program} {m : Model} {n : Namespace}
variable (hloaded : Loaded source p.namespaces) (h : resolve p = .ok m)

include hloaded h

theorem knows_of_resolves (hn : n ∈ p.namespaces) {d : Declared} {tag : Int} {type : TypeReference}
    {f : Field} (hr : Declared.Resolves n d tag type f) : m.Knows f := by
  unfold Knows
  rw [hr.category_eq, hr.typeName_eq, hr.typeKey_eq]
  rcases TypeReference.resolve_eq_ok hr.type_eq with hbuilt | ⟨target, hnames, hkey⟩
  · rcases hbuilt.kind with ⟨hc, _⟩ | hc | ⟨a, ha, hc⟩
    · have hsized := TypeReference.sizedCategory?_of_resolve hr.type_eq (Or.inl hc)
      rw [hc] at hsized ⊢
      rcases TypeReference.base_of_sizedCategory? hsized with ⟨_, hbase⟩ | ⟨hne, _⟩
      · exact ⟨hbuilt.key_eq, hbase⟩
      · cases hne
    · have hsized := TypeReference.sizedCategory?_of_resolve hr.type_eq (Or.inr hc)
      rw [hc] at hsized ⊢
      rcases TypeReference.base_of_sizedCategory? hsized with ⟨hne, _⟩ | ⟨_, hbase⟩
      · cases hne
      · exact ⟨hbuilt.key_eq, hbase⟩
    · have hmem := List.mem_of_find?_eq_some ha
      have hsized := Atomic.category_not_sized a hmem
      have hkinds : ∀ k : Keyword, k.category? ≠ some a.category :=
        fun k => Keyword.category?_ne_atomic a hmem k k.mem_all
      rw [← hc]
      cases hcategory : a.category with
      | string => exact absurd hcategory hsized.1
      | bytes => exact absurd hcategory hsized.2
      | enum => exact absurd (congrArg some hcategory).symm (hkinds .enum)
      | bitmask => exact absurd (congrArg some hcategory).symm (hkinds .bitmask)
      | object => exact absurd (congrArg some hcategory).symm (hkinds .object)
      | _ => exact ⟨hbuilt.key_eq, a, ha, hcategory⟩
  · obtain ⟨n', hs⟩ := Program.exists_step_of_names hloaded hn hnames
    have hname := (Namespace.mem_of_lookup?_eq_some hnames.lookup_eq).2.2
    have hcategory := hnames.category_eq
    rw [hkey]
    cases hk : target.keyword with
    | enum =>
        obtain ⟨e, hfound, he⟩ := enum?_of_step hloaded h hs hk
        rw [hk] at hcategory
        rw [← Option.some.inj hcategory]
        exact ⟨e, hfound, (Enumeration.resolve_eq_ok he).2.trans hname⟩
    | bitmask =>
        obtain ⟨b, hfound, hb⟩ := bitmask?_of_step hloaded h hs hk
        rw [hk] at hcategory
        rw [← Option.some.inj hcategory]
        exact ⟨b, hfound, (Bitmask.name_of_resolve hb).trans hname⟩
    | object =>
        obtain ⟨o, hfound, ho⟩ := object?_of_step hloaded h hs hk
        rw [hk] at hcategory
        rw [← Option.some.inj hcategory]
        exact ⟨o, hfound, (Object.name_of_resolve ho).trans hname⟩
    | _ =>
        rw [hk] at hcategory
        cases hcategory

theorem knows_of_mem {o : Object} (ho : o ∈ m.allObjects) {f : Field} (hf : f ∈ o.fields) :
    m.Knows f := by
  obtain ⟨n, d, hs, _, ho⟩ := (mem_allObjects h).mp ho
  rcases Object.exists_declared_of_mem_fields ho hf with rfl | ⟨declared, tag, hr⟩
  · exact ⟨rfl, Atomic.identifier, rfl, rfl⟩
  · obtain ⟨type, hr⟩ := Declared.resolves_of_resolve_eq_ok hr
    exact knows_of_resolves hloaded h (Program.mem_steps.mp hs).1 hr

/-- The object that a name leads to is found under its key. -/
theorem object?_of_lookup? (hn : n ∈ p.namespaces) {name : Text} {d : Definition}
    (hd : n.lookup? .object name = some d) : ∃ o, m.object? d.key = some o ∧ o.name = name := by
  obtain ⟨n', hn', hown, hk, hname⟩ := hloaded.mem_own_of_lookup? hn hd
  obtain ⟨o, hfound, ho⟩ :=
    object?_of_step hloaded h (Program.mem_steps_of_object hn' hown hk) hk
  exact ⟨o, hfound, (Object.name_of_resolve ho).trans hname⟩

theorem exists_object_of_backed (hn : n ∈ p.namespaces) {d : Declared} {type : Text}
    {e : DatabaseEntry} (hb : DatabaseEntry.Backed n d (DatabaseEntry.outline d type) e)
    (hkind : e.kind ≠ .subdatabase) :
    ∃ o, m.object? e.backingKey = some o ∧ o.name = e.backingType := by
  cases hb with
  | subdatabase _ => exact absurd rfl hkind
  | collection hobject _ => exact object?_of_lookup? hloaded h hn hobject
  | resource hobject _ => exact object?_of_lookup? hloaded h hn hobject

end Closed

/-- All that a resolved model refers to is in the model. -/
theorem isClosed_of_resolve {source : Source} {root : Text} {p : Program} {m : Model}
    (hfrom : Program.LoadedFrom source root p) (h : resolve p = .ok m) : m.IsClosed := by
  constructor
  · intro o ho f hf
    exact knows_of_mem hfrom.loaded h ho hf
  · intro d hd e he hkind
    rw [databases_eq hfrom.loaded.isLocated hfrom.root_mem h] at hd
    obtain ⟨⟨n, owner⟩, hs, hd⟩ := List.mem_filterMap.mp hd
    obtain ⟨_, hd⟩ := databaseOf?_eq_some_iff.mp hd
    rw [← Program.filter_steps hfrom.loaded.isLocated hfrom.root_mem] at hs
    have hn := (Program.mem_steps.mp (List.mem_filter.mp hs).1).1
    obtain ⟨pair, hpair⟩ := Database.exists_pair_of_mem hd he
    obtain ⟨x, type, _, _, hback⟩ := DatabaseEntry.resolve_eq_ok_iff.mp hpair
    exact exists_object_of_backed hfrom.loaded h hn (DatabaseEntry.backed_of_back hback) hkind

end Model

namespace Layout

mutual

/-- The layouts of an object that are put together from what the model has. -/
inductive LaidOut (m : Model) (pointerSize : Int64) : Object → Layout → Prop where
  | build {o : Object} {e : Field → Int64 × Int64}
      (h : ∀ f ∈ o.ordered, Measured m pointerSize f (e f)) :
      LaidOut m pointerSize o (ofElements pointerSize e o)

/-- The size and the alignment of the elements of a field. There is no rule for a definition that
the model does not have, nor for a type that is not built in. -/
inductive Measured (m : Model) (pointerSize : Int64) : Field → Int64 × Int64 → Prop where
  | string {f : Field} (hc : f.category = .string) : Measured m pointerSize f (word f.maxSize, 1)
  | bytes {f : Field} (hc : f.category = .bytes) :
      Measured m pointerSize f (alignUp (counterSize + word f.maxSize) counterSize, counterSize)
  | enum {f : Field} (hc : f.category = .enum) :
      Measured m pointerSize f (word enumSize, word enumSize)
  | bitmask {f : Field} {b : Bitmask} (hc : f.category = .bitmask)
      (hb : m.bitmask? f.typeKey = some b) :
      Measured m pointerSize f (word b.storageSize, word b.storageSize)
  | object {f : Field} {o : Object} {l : Layout} (hc : f.category = .object)
      (ho : m.object? f.typeKey = some o) (hl : LaidOut m pointerSize o l) :
      Measured m pointerSize f (l.size, l.align)
  | atomic {f : Field} {a : Atomic} (ha : Atomic.ofText? f.typeName = some a)
      (hc : a.category = f.category) : Measured m pointerSize f (word a.size, word a.align)

end

variable {m : Model} {pointerSize : Int64}

theorem measured_flatElement {f : Field} (hknown : m.Knows f) (hc : f.category ≠ .object) :
    Measured m pointerSize f (flatElement m f) := by
  unfold Model.Knows at hknown
  unfold flatElement
  cases hcategory : f.category with
  | string => exact .string hcategory
  | bytes => exact .bytes hcategory
  | enum => exact .enum hcategory
  | bitmask =>
      simp only [hcategory] at hknown
      obtain ⟨b, hb, _⟩ := hknown
      simp only [hb]
      exact .bitmask hcategory hb
  | object => exact absurd hcategory hc
  | _ =>
      simp only [hcategory] at hknown
      obtain ⟨_, a, ha, hac⟩ := hknown
      simp only [ha]
      exact .atomic ha (hac.trans hcategory.symm)

/-- Where every field has a type that the model knows, plain recursion meets nothing else. -/
theorem laidOut_plain {rank : Object → Nat} (hrank : Ranked m rank)
    (hknown : ∀ o ∈ m.allObjects, ∀ f ∈ o.fields, m.Knows f) {fuel : Nat} {o : Object}
    (ho : o ∈ m.allObjects) (hf : rank o < fuel) :
    LaidOut m pointerSize o (plain m pointerSize fuel o) := by
  induction fuel generalizing o with
  | zero => omega
  | succ fuel ih =>
      refine .build fun f hmem => ?_
      have hfield := hknown o ho f (List.mem_cons_of_mem _ hmem)
      by_cases hc : f.category = .object
      · have hsub := hfield
        simp only [Model.Knows, hc] at hsub
        obtain ⟨sub, hsub, _⟩ := hsub
        have hlt := hrank o ho f hmem hc sub hsub
        rw [elementOf_object _ hc hsub]
        exact .object hc hsub (ih (mem_of_object?_eq_some hsub).1 (by omega))
      · rw [elementOf_flat _ hc]
        exact measured_flatElement hfield hc

end Layout

namespace FieldDescriptor

/-- The number of a plurality. -/
def pluralityCode (d : FieldDescriptor) : Int := if 0 < d.bound then 1 else 0

/-- Whether a field has the accessors of its category and plurality, and shows the definition that
its type names if it names one. -/
structure IsComplete (d : FieldDescriptor) : Prop where
  variant_eq : Variant.ofCodes d.category.code d.pluralityCode = .ok d.variant
  detail_eq : d.category ∈ [Category.enum, .bitmask, .object] →
    ∃ t, d.detail = some t ∧ t.name = d.typeName

theorem ofCodes_code (c : Category) {n : Int} {q : Plurality} (h : Plurality.ofCode? n = some q) :
    Variant.ofCodes c.code n = .ok ⟨.ofCategory c, q⟩ := by
  unfold Variant.ofCodes
  rw [h]
  cases c <;> rfl

theorem isComplete_ofField {m : Model} {naming : Naming} {l : Layout} {index : Nat}
    {previous : Option Field} {f : Field} (h : m.Knows f) :
    (ofField m naming l index previous f).IsComplete := by
  constructor
  · refine ofCodes_code f.category ?_
    change Plurality.ofCode? (if 0 < f.bound then 1 else 0) =
      some (if f.isRepeated then .repeated else .single)
    by_cases hb : 0 < f.bound
    · simp [Field.isRepeated, hb, Plurality.ofCode?]
    · simp [Field.isRepeated, hb, Plurality.ofCode?]
  · intro hc
    change f.category ∈ _ at hc
    change ∃ t, detailOf m f = some t ∧ t.name = f.typeName
    unfold Model.Knows at h
    unfold detailOf
    simp only [List.mem_cons, List.not_mem_nil, or_false] at hc
    rcases hc with hc | hc | hc
    · simp only [hc] at h ⊢
      obtain ⟨e, he, hname⟩ := h
      exact ⟨_, by rw [he]; rfl, hname⟩
    · simp only [hc] at h ⊢
      obtain ⟨b, hb, hname⟩ := h
      exact ⟨_, by rw [hb]; rfl, hname⟩
    · simp only [hc] at h ⊢
      obtain ⟨o, ho, hname⟩ := h
      exact ⟨_, by rw [ho]; rfl, hname⟩

end FieldDescriptor

/-- A resolved model is closed under its references. Emitting it gives a bundle or names a cycle,
whatever the options; the fields of the bundle are complete, and the layouts are put together from
what the model has. -/
theorem Model.isClosed_and_emit {source : Source} {root : Text} {p : Program} {m : Model}
    (hload : (Program.load source root).1 = .ok p) (h : resolve p = .ok m) :
    m.IsClosed ∧ ∀ options : EmitOptions,
      ((∃ b, Bundle.emit options m = .ok b) ∨
        ∃ names, Bundle.emit options m = .error (.cyclic names)) ∧
      (∀ b, Bundle.emit options m = .ok b → ∀ d ∈ b.objects, ∀ f ∈ d.fields, f.IsComplete) ∧
      ∀ sorted, Object.order m.allObjects = .ok sorted →
        ∀ x ∈ Layout.ofObjects m options.pointerSize sorted,
          Layout.LaidOut m (Layout.effectivePointerSize options.pointerSize) x.1 x.2 := by
  have hfrom := Program.loadedFrom_of_load hload
  have hclosed := isClosed_of_resolve hfrom h
  refine ⟨hclosed, fun options => ⟨?_, ?_, ?_⟩⟩
  · cases hemit : Bundle.emit options m with
    | ok b => exact Or.inl ⟨b, rfl⟩
    | error e =>
        obtain ⟨vs, _, rfl⟩ := Object.order_eq_error_iff.mp (Bundle.emit_eq_error_iff.mp hemit)
        exact Or.inr ⟨_, rfl⟩
  · intro b hemit d hd f hf
    obtain ⟨o, ho, rfl⟩ := (Bundle.mem_objects hfrom h hemit).mp hd
    obtain ⟨g, hg, i, before, rfl⟩ := FieldDescriptor.exists_ofField_of_mem hf
    exact FieldDescriptor.isComplete_ofField (hclosed.knows o (objects_subset hfrom h ho) g hg)
  · intro sorted hsorted x hx
    obtain ⟨rank, hrank, hbound⟩ := exists_rank hfrom.loaded h hsorted
    obtain ⟨hperm, _⟩ := Object.order_eq_ok (nodup_key_allObjects hfrom.loaded h) hsorted
    rw [ofObjects_eq_plain hfrom.loaded h hsorted] at hx
    obtain ⟨o, ho, rfl⟩ := List.mem_map.mp hx
    have hin := hperm.mem_iff.mp ho
    exact Layout.laidOut_plain hrank hclosed.knows hin (hbound o hin)

/-- An object that holds an imported one, which has a bitmask of its own document, and a database
of both. -/
def referringDocuments : Library :=
  .ofList [("a.yaml", "Import: b.yaml\nObject A:\n o[2]: O\nDatabase D:\n c[5]: A\n r: O\n"),
    ("b.yaml", "Bitmask M: {Y: 2}\nObject O:\n m: M\n")]

theorem Model.isClosed_and_emit_imported :
    ∃ p m b, (Program.load referringDocuments.source "a.yaml").1 = .ok p ∧ resolve p = .ok m ∧
      Bundle.emit {} m = .ok b ∧
      b.objects.flatMap (fun d => d.fields.map fun f => (f.category, f.detail.map Detail.key)) =
        [(.unsigned, none), (.object, some ("b.O" : Text))] ∧
      m.databases.flatMap (fun d => d.entries.map DatabaseEntry.backingKey) =
        [("a.A" : Text), ("b.O" : Text)] ∧
      m.IsClosed ∧ ∀ d ∈ b.objects, ∀ f ∈ d.fields, f.IsComplete := by
  have hok : (do
      let p ← (Program.load referringDocuments.source "a.yaml").1.toOption
      let m ← (resolve p).toOption
      let b ← (Bundle.emit {} m).toOption
      return (b.objects.flatMap fun d => d.fields.map fun f =>
        (f.category, f.detail.map Detail.key),
        m.databases.flatMap fun d => d.entries.map DatabaseEntry.backingKey)) =
      some ([(Category.unsigned, none), (.object, some ("b.O" : Text))],
        [("a.A" : Text), ("b.O" : Text)]) := by decide +kernel
  obtain ⟨p, hp, hok⟩ := Option.bind_eq_some_iff.mp hok
  obtain ⟨m, hm, hok⟩ := Option.bind_eq_some_iff.mp hok
  obtain ⟨b, hb, hok⟩ := Option.bind_eq_some_iff.mp hok
  obtain ⟨hobjects, hdatabases⟩ := Prod.mk.inj (Option.some.inj hok)
  have hload := eq_ok_of_toOption_eq_some hp
  have hm := eq_ok_of_toOption_eq_some hm
  have hb := eq_ok_of_toOption_eq_some hb
  obtain ⟨hclosed, hemit⟩ := isClosed_and_emit hload hm
  exact ⟨p, m, b, hload, hm, hb, hobjects, hdatabases, hclosed, (hemit {}).2.1 b hb⟩

end RecordSchema
