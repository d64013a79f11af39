import RecordSchema.Proofs.Descriptor.Integrity
import RecordSchema.Proofs.Model.Labelled
import RecordSchema.Store.Library

/-!
# Numbers and the storage for them

The length of a repeated field and that of a bytes value stand in counters of two bytes, an enum
value in four bytes, and the bits of a bitmask in as many bytes as the highest one needs. A model
has the counts and the enum values that its program declares. Counts are limited to 31 bits and enum
values to 64, which is more than their storage holds: they fit only if they are declared so. Bits
always fit.
-/

namespace RecordSchema

open Text

/-- Whether a number fits a counter. -/
def FitsCounter (i : Int) : Prop := i < 2 ^ (8 * countSize)
  deriving Decidable

/-- Whether a number fits the storage of an enum, with a sign or without one. -/
def FitsEnum (i : Int) : Prop := -2 ^ (8 * enumSize - 1) ≤ i ∧ i < 2 ^ (8 * enumSize)
  deriving Decidable

namespace Namespace

/-- The number that a text stands for as a count. -/
def number? (n : Namespace) (text : Text) : Option Int :=
  (n.countText? (trim text)).bind Number.int?

theorem number?_of_positive {n : Namespace} {place : Location} {text what : Text} {k : Nat}
    (h : n.positive place text what = .ok k) :
    n.number? text = some (k : Int) ∧ 0 < (k : Int) ∧ (k : Int) ≤ countLimit := by
  unfold positive at h
  simp only at h
  split at h
  · cases h
  · next literal hliteral =>
      split at h
      · next i hi =>
          split at h
          · next hrange =>
              cases h
              rw [number?, hliteral, Option.bind_some, hi, Int.toNat_of_nonneg hrange.1.le]
              exact ⟨rfl, hrange⟩
          · cases h
      · cases h

end Namespace

namespace TypeReference

/-- The size that a declared type gives for bytes. -/
def bytesSize? (declared : Text) : Option Text :=
  (cut? 58 (trim declared)).bind fun x => if trim x.1 = "bytes" then some x.2 else none

/-- A declared type is one of bytes if it gives a size for bytes, which is then the greatest. -/
theorem bytesSize?_of_resolve {n : Namespace} {place : Location} {declared : Text}
    {type : TypeReference} (h : resolve n place declared = .ok type) :
    if type.category = .bytes then
      (bytesSize? declared).bind n.number? = some (type.maxSize : Int) ∧
        0 < (type.maxSize : Int) ∧ (type.maxSize : Int) ≤ Namespace.countLimit
    else bytesSize? declared = none := by
  unfold resolve at h
  unfold bytesSize?
  simp only at h
  split at h
  · cases h
  · cases hcut : cut? 58 (trim declared) with
    | none =>
        rw [hcut] at h
        simp only at h
        split at h
        · next hsome => cases hsome
        · cases h
        · next hsome => cases hsome
        · rw [if_neg (not_sized_of_plain h).2]
          rfl
    | some x =>
        rw [hcut] at h
        simp only at h
        rw [Option.bind_some]
        split at h
        · next category size hsized hsize =>
            cases hsize
            obtain ⟨maxSize, hmax, h⟩ := bind_eq_ok_iff.mp h
            cases h
            rcases base_of_sizedCategory? hsized with ⟨rfl, hbase⟩ | ⟨rfl, hbase⟩
            · rw [hbase]
              exact if_neg (by decide)
            · rw [if_pos rfl, if_pos hbase]
              exact Namespace.number?_of_positive hmax
        · next hnone => cases hnone
        · cases h
        · next hnone => cases hnone

end TypeReference

namespace Field

/-- The length of a repeated field. -/
def length? (f : Field) : Option Int := if f.isRepeated then some f.bound else none

/-- The greatest length of bytes. -/
def size? (f : Field) : Option Int := if f.category = .bytes then some f.maxSize else none

/-- The numbers of a field for which the layout has counters. -/
def counts (f : Field) : List Int := f.length?.toList ++ f.size?.toList

end Field

namespace Declared

variable {n : Namespace} {d : Declared} {tag : Int} {type : TypeReference} {f : Field}

/-- The length that a declaration gives. -/
def length? (n : Namespace) (d : Declared) : Option Int :=
  if d.declarator.isRepeated then n.number? d.declarator.bound else none

/-- The size that a declaration gives for bytes. -/
def size? (n : Namespace) (d : Declared) : Option Int :=
  (TypeReference.bytesSize? (d.attributes.type.getD [])).bind n.number?

def counts (n : Namespace) (d : Declared) : List Int := (d.length? n).toList ++ (d.size? n).toList

theorem length?_of_resolves (h : Resolves n d tag type f) :
    d.length? n = f.length? ∧ ∀ i, f.length? = some i → 0 < i ∧ i ≤ Namespace.countLimit := by
  have hlength := h.length_eq
  rw [Declared.length] at hlength
  rw [Declared.length?, Field.length?]
  split at hlength
  · next hrepeated =>
      obtain ⟨hnumber, hpos, hle⟩ := Namespace.number?_of_positive hlength
      have hbound : f.isRepeated = true := decide_eq_true (Int.natCast_pos.mp hpos)
      rw [if_pos hrepeated, if_pos hbound, hnumber]
      refine ⟨rfl, fun i hi => ?_⟩
      cases hi
      exact ⟨hpos, hle⟩
  · next hsingle =>
      have hbound : f.bound = 0 := (Except.ok.inj hlength).symm
      rw [if_neg hsingle, Field.isRepeated, hbound]
      refine ⟨rfl, fun i hi => ?_⟩
      cases hi

theorem size?_of_resolves (h : Resolves n d tag type f) :
    d.size? n = f.size? ∧ ∀ i, f.size? = some i → 0 < i ∧ i ≤ Namespace.countLimit := by
  have hsize := TypeReference.bytesSize?_of_resolve h.type_eq
  rw [← h.category_eq, ← h.maxSize_eq] at hsize
  rw [Declared.size?, Field.size?]
  split at hsize
  · next hbytes =>
      rw [if_pos hbytes, hsize.1]
      refine ⟨rfl, fun i hi => ?_⟩
      cases hi
      exact hsize.2
  · next hother =>
      rw [if_neg hother, hsize]
      refine ⟨rfl, fun i hi => ?_⟩
      cases hi

/-- A field has the counts of its declaration, which are numbers of 31 bits. -/
theorem counts_of_resolve (h : d.resolve n tag = .ok f) :
    d.counts n = f.counts ∧ ∀ i ∈ f.counts, 0 < i ∧ i ≤ Namespace.countLimit := by
  obtain ⟨type, hr⟩ := resolves_of_resolve_eq_ok h
  obtain ⟨hlength, hlengths⟩ := length?_of_resolves hr
  obtain ⟨hsize, hsizes⟩ := size?_of_resolves hr
  rw [counts, Field.counts, hlength, hsize]
  refine ⟨rfl, List.forall_mem_append.mpr ⟨?_, ?_⟩⟩
  · exact fun i hi => hlengths i (Option.mem_toList.mp hi)
  · exact fun i hi => hsizes i (Option.mem_toList.mp hi)

end Declared

namespace Object

variable {n : Namespace} {d : Definition} {o : Object}

/-- The numbers of an object for which the layout has counters. -/
def counts (o : Object) : List Int := o.fields.flatMap Field.counts

/-- The lengths that the definition of an object gives. -/
def declaredCounts (n : Namespace) (d : Definition) : List Int :=
  ((declared n d).toOption.getD []).flatMap (Declared.counts n)

theorem counts_identifier (h : resolve n d = .ok o) : o.identifier.counts = [] := by
  rw [Field.counts, Field.length?, Field.isRepeated, bound_identifier h, Field.size?,
    category_identifier h]
  rfl

/-- Each count comes from a declaration. -/
theorem exists_declared_of_mem_counts (h : resolve n d = .ok o) {i : Int} (hi : i ∈ o.counts) :
    ∃ ds x tag f, declared n d = .ok ds ∧ x ∈ ds ∧ Declared.resolve n x tag = .ok f ∧
      i ∈ f.counts := by
  obtain ⟨f, hf, hi⟩ := List.mem_flatMap.mp hi
  rcases List.mem_cons.mp hf with rfl | hf
  · rw [counts_identifier h] at hi
    cases hi
  · obtain ⟨ds, x, tag, hds, hx, hresolve⟩ := exists_declared_of_mem_ordered h hf
    exact ⟨ds, x, tag, f, hds, hx, hresolve, hi⟩

theorem mem_counts_iff (h : resolve n d = .ok o) {i : Int} :
    i ∈ o.counts ↔ i ∈ declaredCounts n d := by
  constructor
  · intro hi
    obtain ⟨ds, x, tag, f, hds, hx, hresolve, hi⟩ := exists_declared_of_mem_counts h hi
    rw [declaredCounts, hds]
    exact List.mem_flatMap.mpr ⟨x, hx, (Declared.counts_of_resolve hresolve).1 ▸ hi⟩
  · intro hi
    obtain ⟨ds, tags, fields, hds, htags, hfields, rfl⟩ := resolve_eq_ok_iff.mp h
    rw [declaredCounts, hds] at hi
    obtain ⟨x, hx, hi⟩ := List.mem_flatMap.mp hi
    -- the declarations and their tags are equally many, so that each has a field
    change x ∈ ds at hx
    rw [← List.map_fst_zip (WireTag.allocate_eq_ok htags).1.ge] at hx
    obtain ⟨y, hy, rfl⟩ := List.mem_map.mp hx
    obtain ⟨f, hf, _⟩ := exists_field_of_resolveFields hfields y hy
    have hmem := (mem_of_resolveFields_eq_ok hfields).mpr ⟨y, hy, hf⟩
    refine List.mem_flatMap.mpr ⟨f, mem_fields_of_mem hds htags hfields hmem, ?_⟩
    exact (Declared.counts_of_resolve hf).1 ▸ hi

theorem counts_le (h : resolve n d = .ok o) :
    ∀ i ∈ o.counts, 0 < i ∧ i ≤ Namespace.countLimit := by
  intro i hi
  obtain ⟨_, _, _, _, _, _, hresolve, hi⟩ := exists_declared_of_mem_counts h hi
  exact (Declared.counts_of_resolve hresolve).2 i hi

end Object

namespace Enumeration

/-- The numbers that the definition of an enum declares. -/
def declaredNumbers (d : Definition) : List Int :=
  (d.body.pairs?.getD []).filterMap fun pair => LabelledValue.number? ["value"] pair.2

theorem map_value_of_resolve {d : Definition} {e : Enumeration} (h : resolve d = .ok e) :
    e.values.map LabelledValue.value = declaredNumbers d := by
  obtain ⟨pairs, hpairs, hvalues⟩ := forall₂_of_resolve h
  rw [declaredNumbers, hpairs, Option.getD_some, LabelledValue.filterMap_number? hvalues]

end Enumeration

/-- The lengths that the objects of a program declare. -/
def Program.counts (p : Program) : List Int :=
  (p.steps.filter fun s => s.2.keyword == .object).flatMap fun s => Object.declaredCounts s.1 s.2

/-- The numbers that the enums of a program declare. -/
def Program.enumNumbers (p : Program) : List Int :=
  (p.steps.filter fun s => s.2.keyword == .enum).flatMap fun s => Enumeration.declaredNumbers s.2

/-- The category and the lengths of each field of an object. -/
def Object.dimensions (o : Object) : Text × List (Category × Nat × Nat) :=
  (o.name, o.fields.map fun f => (f.category, f.bound, f.maxSize))

/-- The category and the lengths of each field as they are described. -/
def ObjectDescriptor.dimensions (o : ObjectDescriptor) : Text × List (Category × Nat × Nat) :=
  (o.name, o.fields.map fun f => (f.category, f.bound, f.maxSize))

/-- Whether a bundle describes the objects, enums and bitmasks of the root document of a model with
their numbers. -/
structure Bundle.Carries (b : Bundle) (m : Model) : Prop where
  objects_iff : ∀ x, x ∈ b.objects.map ObjectDescriptor.dimensions ↔
    x ∈ m.objects.map Object.dimensions
  enums_eq : (b.enums.map fun e => (e.name, e.values)) = m.enums.map fun e => (e.name, e.values)
  bitmasks_eq : (b.bitmasks.map fun x => (x.name, x.storageSize, x.values)) =
    m.bitmasks.map fun x => (x.name, x.storageSize, x.values)

theorem FieldDescriptor.map_ofFields {m : Model} {naming : Naming} {l : Layout} {index : Nat}
    {previous : Option Field} {fs : List Field} :
    ((ofFields m naming l index previous fs).map fun f => (f.category, f.bound, f.maxSize)) =
      fs.map fun f => (f.category, f.bound, f.maxSize) := by
  induction fs generalizing index previous with
  | nil => rfl
  | cons f rest ih =>
      rw [ofFields, List.map_cons, List.map_cons, ih]
      rfl

theorem ObjectDescriptor.dimensions_ofObject {m : Model} {naming : Naming} {o : Object}
    {l : Layout} :
    (ofObject m naming o l).dimensions = o.dimensions :=
  congrArg (Prod.mk o.name) FieldDescriptor.map_ofFields

namespace Model

variable {source : Source} {root : Text} {p : Program} {m : Model}

/-- The numbers of a model for which the layout has counters. -/
def counts (m : Model) : List Int := m.allObjects.flatMap Object.counts

def enumNumbers (m : Model) : List Int :=
  m.allEnums.flatMap fun e => e.values.map LabelledValue.value

/-- Whether the numbers of a model fit the storage that the layout has for them. -/
structure FitsStorage (m : Model) : Prop where
  counts_fit : ∀ i ∈ m.counts, FitsCounter i
  enumNumbers_fit : ∀ i ∈ m.enumNumbers, FitsEnum i
  bits_fit : ∀ b ∈ m.allBitmasks, ∀ v ∈ b.values, 0 ≤ v.value ∧ v.value < 8 * b.storageSize

theorem mem_counts_iff (h : resolve p = .ok m) {i : Int} : i ∈ m.counts ↔ i ∈ p.counts := by
  simp only [counts, Program.counts, List.mem_flatMap, List.mem_filter, beq_iff_eq]
  constructor
  · rintro ⟨o, ho, hi⟩
    obtain ⟨n, d, hs, hk, hresolve⟩ := (mem_allObjects h).mp ho
    exact ⟨(n, d), ⟨hs, hk⟩, (Object.mem_counts_iff hresolve).mp hi⟩
  · rintro ⟨s, ⟨hs, hk⟩, hi⟩
    obtain ⟨o, ho, hresolve⟩ := exists_object_of_step h hs hk
    exact ⟨o, ho, (Object.mem_counts_iff hresolve).mpr hi⟩

theorem mem_enumNumbers_iff (hloaded : Loaded source p.namespaces) (h : resolve p = .ok m)
    {i : Int} :
    i ∈ m.enumNumbers ↔ i ∈ p.enumNumbers := by
  simp only [enumNumbers, Program.enumNumbers, List.mem_flatMap, List.mem_filter, beq_iff_eq]
  constructor
  · rintro ⟨e, he, hi⟩
    obtain ⟨n, d, hs, hk, hresolve⟩ := (mem_allEnums h).mp he
    exact ⟨(n, d), ⟨hs, hk⟩, Enumeration.map_value_of_resolve hresolve ▸ hi⟩
  · rintro ⟨s, ⟨hs, hk⟩, hi⟩
    obtain ⟨e, _, hresolve⟩ := enum?_of_step hloaded h hs hk
    refine ⟨e, (mem_allEnums h).mpr ⟨s.1, s.2, hs, hk, hresolve⟩, ?_⟩
    rwa [Enumeration.map_value_of_resolve hresolve]

theorem counts_le (h : resolve p = .ok m) : ∀ i ∈ m.counts, 0 < i ∧ i ≤ Namespace.countLimit := by
  intro i hi
  obtain ⟨o, ho, hi⟩ := List.mem_flatMap.mp hi
  obtain ⟨_, _, _, _, hresolve⟩ := (mem_allObjects h).mp ho
  exact Object.counts_le hresolve i hi

theorem fitsInt64_of_mem_enumNumbers {i : Int} (hi : i ∈ p.enumNumbers) :
    Number.fitsInt64 i = true := by
  obtain ⟨s, _, hi⟩ := List.mem_flatMap.mp hi
  obtain ⟨pair, _, hnumber⟩ := List.mem_filterMap.mp hi
  exact LabelledValue.fitsInt64_of_number? hnumber

theorem carries_of_emit (hfrom : Program.LoadedFrom source root p) (h : resolve p = .ok m)
    {options : EmitOptions} {b : Bundle} (hemit : Bundle.emit options m = .ok b) : b.Carries m := by
  have hobjects : ∀ d, d ∈ b.objects ↔ ∃ o ∈ m.objects,
      d = ObjectDescriptor.ofObject m options.naming o (Bundle.layoutOf options m o) :=
    fun d => Bundle.mem_objects hfrom h hemit
  obtain ⟨sorted, _, hemit⟩ := bind_eq_ok_iff.mp hemit
  cases hemit
  refine ⟨fun x => ?_, ?_, ?_⟩
  · simp only [List.mem_map]
    constructor
    · rintro ⟨d, hd, rfl⟩
      obtain ⟨o, ho, rfl⟩ := (hobjects d).mp (List.mem_map.mpr hd)
      exact ⟨o, ho, ObjectDescriptor.dimensions_ofObject.symm⟩
    · rintro ⟨o, ho, rfl⟩
      have hd := (hobjects _).mpr ⟨o, ho, rfl⟩
      exact ⟨_, List.mem_map.mp hd, ObjectDescriptor.dimensions_ofObject⟩
  · rw [List.map_map]
    rfl
  · rw [List.map_map]
    rfl

/-- The numbers of a program that is emitted fit their storage if and only if those that it
declares as lengths and enum values do. They need not: a length is any positive number of 31 bits
and an enum value any number of 64 bits, and the bundle has the same numbers. Bits always lie in
the storage of the bitmask. -/
theorem fitsStorage_iff_of_emit (hload : (Program.load source root).1 = .ok p)
    (h : resolve p = .ok m)
    {options : EmitOptions} {b : Bundle} (hemit : Bundle.emit options m = .ok b) :
    (m.FitsStorage ↔ (∀ i ∈ p.counts, FitsCounter i) ∧ ∀ i ∈ p.enumNumbers, FitsEnum i) ∧
      (∀ i ∈ p.counts, 0 < i ∧ i ≤ Namespace.countLimit) ∧
      (∀ i ∈ p.enumNumbers, Number.fitsInt64 i = true) ∧
      (∀ x ∈ m.allBitmasks, ∀ v ∈ x.values, 0 ≤ v.value ∧ v.value < 8 * x.storageSize) ∧
      b.Carries m := by
  have hfrom := Program.loadedFrom_of_load hload
  have hbits : ∀ x ∈ m.allBitmasks, ∀ v ∈ x.values, 0 ≤ v.value ∧ v.value < 8 * x.storageSize := by
    intro x hx
    obtain ⟨_, _, _, _, hresolve⟩ := (mem_allBitmasks h).mp hx
    exact Bitmask.lt_of_resolve hresolve
  refine ⟨⟨?_, ?_⟩, ?_, fun i => fitsInt64_of_mem_enumNumbers, hbits, carries_of_emit hfrom h hemit⟩
  · intro hfits
    constructor
    · exact fun i hi => hfits.counts_fit i ((mem_counts_iff h).mpr hi)
    · exact fun i hi => hfits.enumNumbers_fit i ((mem_enumNumbers_iff hfrom.loaded h).mpr hi)
  · rintro ⟨hcounts, hnumbers⟩
    constructor
    · exact fun i hi => hcounts i ((mem_counts_iff h).mp hi)
    · exact fun i hi => hnumbers i ((mem_enumNumbers_iff hfrom.loaded h).mp hi)
    · exact hbits
  · exact fun i hi => counts_le h i ((mem_counts_iff h).mpr hi)

/-- Lengths and enum values that their storage cannot hold, up to the greatest ones. -/
def greatNumbers : Library :=
  .ofList [("a.yaml", "Enum E: {X: 4294967296, Y: 9223372036854775807}\nBitmask M: {T: 63}\n" ++
    "Object A:\n a[2147483647]: u8\n b: bytes:65536\n c[2]: bytes:65535\n")]

theorem fitsStorage_iff_of_emit_great :
    ∃ p m b, (Program.load greatNumbers.source "a.yaml").1 = .ok p ∧ resolve p = .ok m ∧
      Bundle.emit {} m = .ok b ∧ p.counts = [2147483647, 65536, 2, 65535] ∧
      p.enumNumbers = [4294967296, 9223372036854775807] ∧ ¬ m.FitsStorage ∧
      (m.FitsStorage ↔ (∀ i ∈ p.counts, FitsCounter i) ∧ ∀ i ∈ p.enumNumbers, FitsEnum i) ∧
      (∀ i ∈ p.counts, 0 < i ∧ i ≤ Namespace.countLimit) ∧
      (∀ i ∈ p.enumNumbers, Number.fitsInt64 i = true) ∧
      (∀ x ∈ m.allBitmasks, ∀ v ∈ x.values, 0 ≤ v.value ∧ v.value < 8 * x.storageSize) ∧
      b.Carries m := by
  have hok : (do
      let p ← (Program.load greatNumbers.source "a.yaml").1.toOption
      let m ← (resolve p).toOption
      let _ ← (Bundle.emit {} m).toOption
      return (p.counts, p.enumNumbers)) =
        some ([2147483647, 65536, 2, 65535], [4294967296, 9223372036854775807]) := by
    decide +kernel
  obtain ⟨p, hp, hok⟩ := Option.bind_eq_some_iff.mp hok
  obtain ⟨m, hm, hok⟩ := Option.bind_eq_some_iff.mp hok
  obtain ⟨b, hb, hok⟩ := Option.bind_eq_some_iff.mp hok
  obtain ⟨hcounts, hnumbers⟩ := Prod.mk.inj (Option.some.inj hok)
  have hload := eq_ok_of_toOption_eq_some hp
  have hresolve := eq_ok_of_toOption_eq_some hm
  have hemit := eq_ok_of_toOption_eq_some hb
  have hall := fitsStorage_iff_of_emit hload hresolve hemit
  refine ⟨p, m, b, hload, hresolve, hemit, hcounts, hnumbers, ?_, hall⟩
  intro hfits
  have hfit := (hall.1.mp hfits).1 65536 (by simp [hcounts])
  exact absurd hfit (by decide)

end Model

end RecordSchema
