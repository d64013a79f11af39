import RecordSchema.Proofs.Descriptor.Order
import RecordSchema.Proofs.Model.Field
import RecordSchema.Proofs.Program.Part

/-!
# Compiling the documents of a program on their own

A document sees only what it imports, so it means the same in every program that it is part of. Its
objects have the same fields there, and a field that holds one of them takes the room that the
object takes when its document is compiled on its own.
-/

namespace RecordSchema

open Text

theorem Program.IsPartOf.mem_steps {p q : Program} (h : q.IsPartOf p) {s : Namespace × Definition}
    (hs : s ∈ q.steps) : s ∈ p.steps := by
  obtain ⟨n, d⟩ := s
  obtain ⟨hn, hd⟩ := Program.mem_steps.mp hs
  exact Program.mem_steps.mpr ⟨h n hn, hd⟩

theorem Object.document_of_resolve {n : Namespace} {d : Definition} {o : Object}
    (h : Object.resolve n d = .ok o) : o.document = d.document := by
  obtain ⟨_, _, fields, _, _, _, rfl⟩ := resolve_eq_ok_iff.mp h
  rfl

namespace Model

/-- A part of a program can be resolved if the program can. -/
theorem exists_resolve_of_isPartOf {source : Source} {p q : Program} {m : Model}
    (h : resolve p = .ok m) (hloaded : Loaded source q.namespaces) (hpart : q.IsPartOf p) :
    ∃ m', resolve q = .ok m' := by
  have hnames := nodup_name_of_resolve h
  have hnodup : q.namespaces.Nodup := hloaded.nodup_path.of_map _
  refine ⟨_, resolve_eq_ok_iff.mpr ⟨Program.checkNames_eq_ok_iff.mpr ⟨?_, ?_⟩, ?_, rfl⟩⟩
  · apply hnodup.map_on
    intro a ha b hb heq
    exact List.inj_on_of_nodup_map hnames (hpart a ha) (hpart b hb) heq
  · intro n _
    exact List.not_mem_nil
  · intro s hs
    exact (resolve_eq_ok_iff.mp h).2.1 s (hpart.mem_steps hs)

/-- The model of a program and that of a part of it. -/
structure Part (source : Source) (p q : Program) (m m' : Model) : Prop where
  loaded : Loaded source p.namespaces
  resolve_eq : resolve p = .ok m
  loaded_part : Loaded source q.namespaces
  resolve_part : resolve q = .ok m'
  isPartOf : q.IsPartOf p

namespace Part

variable {source : Source} {p q : Program} {m m' : Model} (h : Part source p q m m')

include h

theorem allObjects_subset : m'.allObjects ⊆ m.allObjects := by
  intro o ho
  obtain ⟨n, d, hs, hk, ho⟩ := (mem_allObjects h.resolve_part).mp ho
  exact (mem_allObjects h.resolve_eq).mpr ⟨n, d, h.isPartOf.mem_steps hs, hk, ho⟩

theorem object?_eq {n : Namespace} {d : Definition} (hs : (n, d) ∈ q.steps)
    (hk : d.keyword = .object) : m'.object? d.key = m.object? d.key := by
  obtain ⟨o', hfound', ho'⟩ := object?_of_step h.loaded_part h.resolve_part hs hk
  obtain ⟨o, hfound, ho⟩ := object?_of_step h.loaded h.resolve_eq (h.isPartOf.mem_steps hs) hk
  rw [hfound', hfound, Except.ok.inj (ho'.symm.trans ho)]

theorem bitmask?_eq {n : Namespace} {d : Definition} (hs : (n, d) ∈ q.steps)
    (hk : d.keyword = .bitmask) : m'.bitmask? d.key = m.bitmask? d.key := by
  obtain ⟨b', hfound', hb'⟩ := bitmask?_of_step h.loaded_part h.resolve_part hs hk
  obtain ⟨b, hfound, hb⟩ := bitmask?_of_step h.loaded h.resolve_eq (h.isPartOf.mem_steps hs) hk
  rw [hfound', hfound, Except.ok.inj (hb'.symm.trans hb)]

/-- The fields of the part have the same types in the whole. -/
theorem agreesWith : Layout.AgreesWith m' m := by
  constructor
  · intro o ho f hf hc
    have hcategory : Keyword.object.category? = some f.category := congrArg some hc.symm
    obtain ⟨n, t, hs, hk, hkey⟩ :=
      exists_step_of_field h.loaded_part h.resolve_part ho hf hcategory
    rw [← hkey]
    exact h.object?_eq hs hk
  · intro o ho f hf hc
    have hcategory : Keyword.bitmask.category? = some f.category := congrArg some hc.symm
    obtain ⟨n, t, hs, hk, hkey⟩ :=
      exists_step_of_field h.loaded_part h.resolve_part ho hf hcategory
    rw [← hkey]
    exact h.bitmask?_eq hs hk

theorem exists_order {sorted : List Object} (hsorted : Object.order m.allObjects = .ok sorted) :
    ∃ sorted', Object.order m'.allObjects = .ok sorted' :=
  Object.exists_order_of_subset (nodup_key_allObjects h.loaded h.resolve_eq)
    (nodup_key_allObjects h.loaded_part h.resolve_part) h.allObjects_subset hsorted

theorem exists_emit {options : EmitOptions} {b : Bundle} (hemit : Bundle.emit options m = .ok b) :
    ∃ b', Bundle.emit options m' = .ok b' := by
  obtain ⟨sorted, hsorted, _⟩ := Bundle.objects_of_emit hemit
  obtain ⟨sorted', hsorted'⟩ := h.exists_order hsorted
  cases hemit' : Bundle.emit options m' with
  | ok b' => exact ⟨b', rfl⟩
  | error e => cases hsorted'.symm.trans (Bundle.emit_eq_error_iff.mp hemit')

/-- The layout of an object of the part is its layout in the whole. -/
theorem layoutOf_eq {options : EmitOptions} {b : Bundle} (hemit : Bundle.emit options m = .ok b)
    {o : Object} (ho : o ∈ m'.allObjects) :
    Bundle.layoutOf options m' o = Bundle.layoutOf options m o := by
  have hin := h.allObjects_subset ho
  obtain ⟨sorted, hsorted, _⟩ := Bundle.objects_of_emit hemit
  obtain ⟨sorted', hsorted'⟩ := h.exists_order hsorted
  obtain ⟨rank, hrank, hbound⟩ := exists_rank h.loaded h.resolve_eq hsorted
  obtain ⟨rank', hrank', hbound'⟩ := exists_rank h.loaded_part h.resolve_part hsorted'
  have hlt := hbound o hin
  have hlt' := hbound' o ho
  -- The two layouts are compared at a depth that is enough for both programs.
  unfold Bundle.layoutOf
  generalize Layout.effectivePointerSize options.pointerSize = pointerSize
  calc Layout.plain m' pointerSize m'.allObjects.length o
      = Layout.plain m' pointerSize (m'.allObjects.length + m.allObjects.length) o :=
        Layout.plain_eq_of_rank_lt hrank' ho hlt' (by omega)
    _ = Layout.plain m pointerSize (m'.allObjects.length + m.allObjects.length) o :=
        Layout.plain_eq_of_agreesWith h.agreesWith pointerSize _ ho
    _ = Layout.plain m pointerSize m.allObjects.length o :=
        Layout.plain_eq_of_rank_lt hrank hin (by omega) hlt

/-- The objects of the root document of the part are those of the document in the whole. -/
theorem mem_objects_iff (hfrom : Program.LoadedFrom source q.root.path q) {o : Object} :
    o ∈ m'.objects ↔ o ∈ m.allObjects ∧ o.document = q.root.path := by
  constructor
  · intro ho
    obtain ⟨d, hd, _, hr⟩ := (mem_objects hfrom h.resolve_part).mp ho
    refine ⟨h.allObjects_subset (objects_subset hfrom h.resolve_part ho), ?_⟩
    rw [Object.document_of_resolve hr]
    exact (hfrom.loaded.declares hfrom.root_mem).document_eq d hd
  · rintro ⟨ho, hdocument⟩
    obtain ⟨n, d, hs, hk, hr⟩ := (mem_allObjects h.resolve_eq).mp ho
    obtain ⟨hn, hd, _⟩ := Program.mem_steps.mp hs
    have hpath : n.path = q.root.path := by
      rw [← (h.loaded.declares hn).document_eq d hd, ← Object.document_of_resolve hr, hdocument]
    have hroot := List.inj_on_of_nodup_map h.loaded.nodup_path hn
      (h.isPartOf q.root hfrom.root_mem) hpath
    subst hroot
    exact (mem_objects hfrom h.resolve_part).mpr ⟨d, hd, hk, hr⟩

end Part

end Model

/-- An emitted field that holds an object names it, and its elements have the size of the object. -/
theorem Bundle.dataSize_eq {source : Source} {root : Text} {p : Program} {m : Model}
    {options : EmitOptions} {b : Bundle} (hfrom : Program.LoadedFrom source root p)
    (h : Model.resolve p = .ok m) (hemit : emit options m = .ok b) {d : ObjectDescriptor}
    (hd : d ∈ b.objects) {f : FieldDescriptor} (hf : f ∈ d.fields) (hc : f.category = .object) :
    ∃ o ∈ m.allObjects, f.detail = some ⟨"object", o.key, o.name⟩ ∧
      f.dataSize = (layoutOf options m o).size := by
  obtain ⟨o, ho, rfl⟩ := (mem_objects hfrom h hemit).mp hd
  have hin := Model.objects_subset hfrom h ho
  obtain ⟨_, _, _, _, hr⟩ := (Model.mem_allObjects h).mp hin
  obtain ⟨g, hg, index, previous, rfl⟩ := FieldDescriptor.exists_ofField_of_mem hf
  simp only [FieldDescriptor.ofField] at hc ⊢
  have hordered : g ∈ o.ordered := by
    rcases List.mem_cons.mp hg with rfl | hg
    · rw [Object.category_identifier hr] at hc
      cases hc
    · exact hg
  have hkind : Keyword.object.category? = some g.category := congrArg some hc.symm
  obtain ⟨_, t, hs, hk, hkey⟩ := Model.exists_step_of_field hfrom.loaded h hin hordered hkind
  obtain ⟨sub, hsub, _⟩ := Model.object?_of_step hfrom.loaded h hs hk
  rw [hkey] at hsub
  obtain ⟨hmem, hsubkey⟩ := Layout.mem_of_object?_eq_some hsub
  refine ⟨sub, hmem, ?_, ?_⟩
  · rw [FieldDescriptor.detailOf, hc, hsub, hsubkey]
    rfl
  · obtain ⟨sorted, hsorted, _⟩ := objects_of_emit hemit
    obtain ⟨rank, hrank, hbound⟩ := Model.exists_rank hfrom.loaded h hsorted
    exact Layout.elementSize_plain hrank hin (hbound o hin)
      (Object.nodup_name_fields hr) hordered hc
      hsub

/-- What a document compiled on its own, with the model `m'` and the bundle `b'`, shares with a
program that it is part of. -/
structure Namespace.AgreesIn (n : Namespace) (m m' : Model) (b b' : Bundle) : Prop where
  /-- The objects that the document declares are found in both. -/
  object?_eq : ∀ d ∈ n.own.definitions, d.keyword = .object →
    ∃ o ∈ m'.objects, m'.object? d.key = some o ∧ m.object? d.key = some o
  /-- They are the same, with their fields, tags and dependencies. -/
  mem_objects_iff : ∀ o, o ∈ m'.objects ↔ o ∈ m.allObjects ∧ o.document = n.path
  /-- A field that holds one of them takes the room that is emitted for it. -/
  dataSize_eq : ∀ d ∈ b.objects, ∀ f ∈ d.fields, f.category = .object →
    ∃ t, f.detail = some t ∧ ∀ o ∈ m'.objects, o.key = t.key →
      ∃ d', b'.object? o.name = some d' ∧ f.dataSize = d'.storageSize

/-- Separate compilation: each document of a program that is emitted is emitted on its own as well,
and agrees with the program on the objects that it declares. -/
theorem Program.exists_emit_of_mem {source : Source} (hsource : source.IsStore) {root : Text}
    {p : Program} (hload : (load source root).1 = .ok p) {m : Model} (h : Model.resolve p = .ok m)
    {options : EmitOptions} {b : Bundle} (hemit : Bundle.emit options m = .ok b) {n : Namespace}
    (hn : n ∈ p.namespaces) :
    ∃ q m' b', (load source n.path).1 = .ok q ∧ q.root = n ∧ Model.resolve q = .ok m' ∧
      Bundle.emit options m' = .ok b' ∧ n.AgreesIn m m' b b' := by
  have hfrom := loadedFrom_of_load hload
  obtain ⟨q, hfrom', hload', hroot, hpartOf⟩ := exists_part hsource.isSized hfrom hn
  obtain ⟨m', h'⟩ := Model.exists_resolve_of_isPartOf h hfrom'.loaded hpartOf
  have hpart : Model.Part source p q m m' := ⟨hfrom.loaded, h, hfrom'.loaded, h', hpartOf⟩
  obtain ⟨b', hemit'⟩ := hpart.exists_emit hemit
  subst hroot
  refine ⟨q, m', b', hload', rfl, h', hemit', ?_, fun o => hpart.mem_objects_iff hfrom', ?_⟩
  · intro d hd hk
    have hs := mem_steps_of_object hfrom'.root_mem hd hk
    obtain ⟨o, hfound, ho⟩ := Model.object?_of_step hfrom'.loaded h' hs hk
    refine ⟨o, (Model.mem_objects hfrom' h').mpr ⟨d, hd, hk, ho⟩, hfound, ?_⟩
    rw [← hpart.object?_eq hs hk, hfound]
  · intro d hd f hf hc
    obtain ⟨sub, hsub, hdetail, hsize⟩ := Bundle.dataSize_eq hfrom h hemit hd hf hc
    refine ⟨_, hdetail, ?_⟩
    intro o ho hkey
    have hown := Model.objects_subset hfrom' h' ho
    have heq : o = sub := List.inj_on_of_nodup_map (Model.nodup_key_allObjects hfrom.loaded h)
      (hpart.allObjects_subset hown) hsub hkey
    refine ⟨_, Bundle.object?_of_mem hfrom' h' hemit' ho, ?_⟩
    rw [hsize, ← heq, ← hpart.layoutOf_eq hemit hown]
    rfl

/-- A document that holds an object of a document two imports away. -/
def importedDocuments : Library :=
  .ofList [("a.yaml", "Import: lib/b.yaml\nObject A:\n f[3]: C\n"),
    ("lib/b.yaml", "Import: c.yaml\n"), ("lib/c.yaml", "Object C:\n g: bytes:7\n")]

/-- Pointers of four bytes. -/
def narrowOptions : EmitOptions := { pointerSize := 4 }

theorem Program.exists_emit_of_mem_imported :
    ∃ p m b n, (load importedDocuments.source "a.yaml").1 = .ok p ∧ Model.resolve p = .ok m ∧
      Bundle.emit narrowOptions m = .ok b ∧
      b.objects.map (fun d => d.fields.map FieldDescriptor.dataSize) = [[8, 32]] ∧
      n ∈ p.namespaces ∧ n.path = "lib/c.yaml" ∧
      ∃ q m' b', (load importedDocuments.source n.path).1 = .ok q ∧ q.root = n ∧
        Model.resolve q = .ok m' ∧ Bundle.emit narrowOptions m' = .ok b' ∧
          n.AgreesIn m m' b b' := by
  have hok : (do
      let p ← (load importedDocuments.source "a.yaml").1.toOption
      let m ← (Model.resolve p).toOption
      let b ← (Bundle.emit narrowOptions m).toOption
      let n ← p.namespaces.head?
      return (b.objects.map fun d => d.fields.map FieldDescriptor.dataSize, n.path)) =
        some ([[8, 32]], ("lib/c.yaml" : Text)) := by decide +kernel
  obtain ⟨p, hp, hok⟩ := Option.bind_eq_some_iff.mp hok
  obtain ⟨m, hm, hok⟩ := Option.bind_eq_some_iff.mp hok
  obtain ⟨b, hb, hok⟩ := Option.bind_eq_some_iff.mp hok
  obtain ⟨n, hn, hok⟩ := Option.bind_eq_some_iff.mp hok
  obtain ⟨hsizes, hpath⟩ := Prod.mk.inj (Option.some.inj hok)
  have hload := eq_ok_of_toOption_eq_some hp
  have hm := eq_ok_of_toOption_eq_some hm
  have hb := eq_ok_of_toOption_eq_some hb
  have hn := List.mem_of_head? hn
  exact ⟨p, m, b, n, hload, hm, hb, hsizes, hn, hpath,
    exists_emit_of_mem (.library importedDocuments) hload hm hb hn⟩

end RecordSchema
