import RecordSchema.Proofs.Descriptor.Order
import RecordSchema.Proofs.Model.Reference
import RecordSchema.Proofs.Model.WireTag
import RecordSchema.Store.Library

/-!
# Objects that hold themselves

A program whose definitions can be resolved is refused as cyclic exactly when its objects refer to
each other in a circle, where an object refers to another one that has document and name in common
with the type of a field. The kind of the type does not count: besides objects that hold each other
by value, an enum or a bitmask leads to the object of its document that shares its name.
-/

namespace RecordSchema

open Text Relation

/-- A circle is carried along a simulation that gives each element one partner. -/
theorem exists_cycle_of_simulation {α β : Type} {r : α → α → Prop} {q : β → β → Prop}
    {s : α → β → Prop} (hstart : ∀ a a', r a a' → ∃ b, s a b)
    (hstep : ∀ a a' b, r a a' → s a b → ∃ b', s a' b' ∧ q b b')
    (hunique : ∀ a b b', s a b → s a b' → b = b') (h : ∃ a, TransGen r a a) :
    ∃ b, TransGen q b b := by
  obtain ⟨a, h⟩ := h
  have hrun : ∀ a', TransGen r a a' → ∀ b, s a b → ∃ b', s a' b' ∧ TransGen q b b' := by
    intro a' h b hb
    induction h with
    | single h =>
        obtain ⟨b', hb', hq⟩ := hstep _ _ _ h hb
        exact ⟨b', hb', .single hq⟩
    | tail _ h ih =>
        obtain ⟨b₁, hb₁, hq₁⟩ := ih
        obtain ⟨b', hb', hq⟩ := hstep _ _ _ h hb₁
        exact ⟨b', hb', hq₁.tail hq⟩
  obtain ⟨a₁, hfirst, _⟩ := TransGen.head'_iff.mp h
  obtain ⟨b, hb⟩ := hstart a a₁ hfirst
  obtain ⟨b', hb', hq⟩ := hrun a h b hb
  cases hunique a b b' hb hb'
  exact ⟨b, hq⟩

namespace Definition

/-- Whether a definition can be resolved when an object may refer to itself. -/
def isResolvable (n : Namespace) (d : Definition) : Bool :=
  if d.keyword = .object then
    match Object.declared n d with
    | .error _ => false
    | .ok ds =>
      match WireTag.allocate ds with
      | .error _ => false
      | .ok tags => (ds.zip tags).all fun x => (x.1.resolve n x.2).isOk
  else (d.resolve? n).isOk

theorem isResolvable_object {n : Namespace} {d : Definition} (hk : d.keyword = .object)
    (h : d.isResolvable n = true) :
    ∃ ds tags, Object.declared n d = .ok ds ∧ WireTag.allocate ds = .ok tags ∧
      ∀ x ∈ ds.zip tags, ∃ f, x.1.resolve n x.2 = .ok f := by
  unfold isResolvable at h
  rw [if_pos hk] at h
  split at h
  · cases h
  · next ds hds =>
      split at h
      · cases h
      · next tags htags =>
          refine ⟨ds, tags, hds, htags, fun x hx => ?_⟩
          exact exists_of_isOk (List.all_eq_true.mp h x hx)

end Definition

namespace Program

/-- Whether the schema names of a program differ and its definitions can be resolved when objects
may refer to themselves. -/
def Resolvable (p : Program) : Prop :=
  (checkNames [] p.namespaces).isOk = true ∧ ∀ s ∈ p.steps, s.2.isResolvable s.1 = true

instance (p : Program) : Decidable p.Resolvable :=
  inferInstanceAs (Decidable (_ ∧ _))

/-- Whether a field of the object `d` has the definition `t` as its type. -/
def HasFieldOf (p : Program) (d t : Definition) : Prop :=
  ∃ n ds declared type, (n, d) ∈ p.steps ∧ d.keyword = .object ∧ Object.declared n d = .ok ds ∧
    declared ∈ ds ∧
    TypeReference.resolve n declared.place (declared.attributes.type.getD []) = .ok type ∧
    type.Names n t

/-- Whether a field of the object `d` holds the object `e` by value. -/
def Embeds (p : Program) (d e : Definition) : Prop := p.HasFieldOf d e ∧ e.keyword = .object

/-- Whether the object `e` has document and name in common with a definition. -/
structure Namesake (p : Program) (t e : Definition) : Prop where
  declares : p.Declares e
  keyword_eq : e.keyword = .object
  document_eq : t.document = e.document
  name_eq : t.name = e.name

/-- Whether the type of a field of `d` has document and name in common with the object `e`. -/
def Refers (p : Program) (d e : Definition) : Prop := ∃ t, p.HasFieldOf d t ∧ p.Namesake t e

section Fields

variable {source : Source} {p : Program} {n : Namespace} {d : Definition} {ds : List Declared}
variable {tags : List Int}

theorem hasFieldOf_of_resolve (hs : (n, d) ∈ p.steps) (hk : d.keyword = .object)
    (hds : Object.declared n d = .ok ds) {x : Declared × Int} (hx : x ∈ ds.zip tags) {f : Field}
    (hf : x.1.resolve n x.2 = .ok f) (hne : f.typeKey ≠ []) :
    ∃ t, p.HasFieldOf d t ∧ t.key = f.typeKey := by
  obtain ⟨type, hr⟩ := Declared.resolves_of_resolve_eq_ok hf
  rw [hr.typeKey_eq] at hne ⊢
  rcases TypeReference.resolve_eq_ok hr.type_eq with hbuilt | ⟨t, ht, hkey⟩
  · exact absurd hbuilt.key_eq hne
  · have hmem := (List.of_mem_zip hx).1
    exact ⟨t, ⟨n, ds, x.1, type, hs, hk, hds, hmem, hr.type_eq, ht⟩, hkey.symm⟩

theorem exists_typeKey_of_hasFieldOf (hloaded : Loaded source p.namespaces)
    (hs : (n, d) ∈ p.steps) (hds : Object.declared n d = .ok ds)
    (htags : WireTag.allocate ds = .ok tags)
    (hall : ∀ x ∈ ds.zip tags, ∃ f, x.1.resolve n x.2 = .ok f) {t : Definition}
    (h : p.HasFieldOf d t) :
    ∃ x ∈ ds.zip tags, ∃ f, x.1.resolve n x.2 = .ok f ∧ f.typeKey = t.key := by
  obtain ⟨n', ds', declared, type, hs', _, hds', hmem, htype, hnames⟩ := h
  obtain ⟨hn, hd, _⟩ := mem_steps.mp hs
  obtain ⟨hn', hd', _⟩ := mem_steps.mp hs'
  have hnn := namespace_eq hloaded.isLocated hn hn' hd hd' rfl
  subst hnn
  cases hds.symm.trans hds'
  have hlen := (WireTag.allocate_eq_ok htags).1
  rw [← List.map_fst_zip hlen.ge, List.mem_map] at hmem
  obtain ⟨x, hx, rfl⟩ := hmem
  obtain ⟨f, hf⟩ := hall x hx
  obtain ⟨type', hr⟩ := Declared.resolves_of_resolve_eq_ok hf
  cases htype.symm.trans hr.type_eq
  refine ⟨x, hx, f, hf, ?_⟩
  rw [hr.typeKey_eq, TypeReference.key_eq_of_names htype hnames]

theorem declares_of_hasFieldOf (hloaded : Loaded source p.namespaces) {t : Definition}
    (h : p.HasFieldOf d t) : p.Declares t := by
  obtain ⟨n, _, _, _, hs, _, _, _, _, hnames⟩ := h
  exact declares_of_lookup? hloaded (mem_steps.mp hs).1 hnames.lookup_eq

theorem refers_of_embeds (hloaded : Loaded source p.namespaces) {e : Definition}
    (h : p.Embeds d e) : p.Refers d e :=
  ⟨e, h.1, declares_of_hasFieldOf hloaded h.1, h.2, rfl, rfl⟩

/-- Where no enum or bitmask leads to an object, objects refer to what they hold. -/
theorem embeds_of_refers (hloaded : Loaded source p.namespaces) {e : Definition}
    (hapart : ∀ t, p.HasFieldOf d t → t.keyword ≠ .object → ¬ p.Namesake t e)
    (h : p.Refers d e) : p.Embeds d e := by
  obtain ⟨t, ht, hsame⟩ := h
  by_cases hk : t.keyword = .object
  · have hte :=
      eq_of_document_eq hloaded.isLocated (declares_of_hasFieldOf hloaded ht) hsame.declares
        (hk.trans hsame.keyword_eq.symm) hsame.document_eq hsame.name_eq
    subst hte
    exact ⟨ht, hk⟩
  · exact absurd hsame (hapart t ht hk)

/-- An object refers to another one exactly when a field has the key of the other one. -/
theorem refers_iff (hloaded : Loaded source p.namespaces)
    (hnames : (p.namespaces.map Namespace.name).Nodup) {e : Definition} (he : p.Declares e)
    (hk : e.keyword = .object) : p.Refers d e ↔ ∃ t, p.HasFieldOf d t ∧ t.key = e.key := by
  constructor
  · rintro ⟨t, ht, hsame⟩
    have hdt := declares_of_hasFieldOf hloaded ht
    exact ⟨t, ht,
      (key_eq_iff hloaded.isLocated hnames hdt he).mpr ⟨hsame.document_eq, hsame.name_eq⟩⟩
  · rintro ⟨t, ht, hkey⟩
    have hdt := declares_of_hasFieldOf hloaded ht
    obtain ⟨hdoc, hname⟩ := (key_eq_iff hloaded.isLocated hnames hdt he).mp hkey
    exact ⟨t, ht, he, hk, hdoc, hname⟩

end Fields

section Graph

variable {source : Source} {p : Program} {m : Model}

theorem mem_dependencies_iff (hloaded : Loaded source p.namespaces) {n : Namespace} {d : Definition}
    {o : Object} (hs : (n, d) ∈ p.steps) (hk : d.keyword = .object)
    (ho : Object.resolve n d = .ok o) {key : Text} :
    key ∈ o.dependencies ↔ ∃ t, p.HasFieldOf d t ∧ t.key = key := by
  obtain ⟨ds, tags, fields, hds, htags, hfields, rfl⟩ := Object.resolve_eq_ok_iff.mp ho
  have hmem := fun f => Object.mem_of_resolveFields_eq_ok hfields (f := f)
  refine Object.mem_dependenciesOf.trans ⟨?_, ?_⟩
  · rintro ⟨hne, f, hf, rfl⟩
    obtain ⟨x, hx, hf⟩ := (hmem f).mp hf
    exact hasFieldOf_of_resolve hs hk hds hx hf hne
  · rintro ⟨t, ht, rfl⟩
    have hall : ∀ x ∈ ds.zip tags, ∃ f, x.1.resolve n x.2 = .ok f := by
      intro x hx
      obtain ⟨f, hf, _⟩ := Object.exists_field_of_resolveFields hfields x hx
      exact ⟨f, hf⟩
    obtain ⟨x, hx, f, hf, hkey⟩ :=
      exists_typeKey_of_hasFieldOf hloaded hs hds htags hall ht
    exact ⟨t.key_ne_nil, f, (hmem f).mpr ⟨x, hx, hf⟩, hkey⟩

/-- The vertex that an object becomes. -/
def IsVertexOf (p : Program) (d : Definition) (v : Vertex) : Prop :=
  ∃ n o, (n, d) ∈ p.steps ∧ d.keyword = .object ∧ Object.resolve n d = .ok o ∧ o.vertex = v

theorem IsVertexOf.key_eq {d : Definition} {v : Vertex} (h : p.IsVertexOf d v) : v.key = d.key := by
  obtain ⟨n, o, _, _, ho, rfl⟩ := h
  exact Object.key_of_resolve ho

theorem IsVertexOf.declares {d : Definition} {v : Vertex} (h : p.IsVertexOf d v) :
    p.Declares d := by
  obtain ⟨n, _, hs, _⟩ := h
  obtain ⟨hn, hd, _⟩ := mem_steps.mp hs
  exact ⟨n, hn, hd⟩

theorem IsVertexOf.unique (hloaded : Loaded source p.namespaces) {d : Definition} {v w : Vertex}
    (hv : p.IsVertexOf d v) (hw : p.IsVertexOf d w) : v = w := by
  obtain ⟨n, o, hs, _, ho, rfl⟩ := hv
  obtain ⟨n', o', hs', _, ho', rfl⟩ := hw
  obtain ⟨hn, hd, _⟩ := mem_steps.mp hs
  obtain ⟨hn', hd', _⟩ := mem_steps.mp hs'
  have hnn := namespace_eq hloaded.isLocated hn hn' hd hd' rfl
  subst hnn
  cases ho.symm.trans ho'
  rfl

theorem IsVertexOf.definition_eq (hloaded : Loaded source p.namespaces)
    (hnames : (p.namespaces.map Namespace.name).Nodup) {d e : Definition} {v : Vertex}
    (hd : p.IsVertexOf d v) (he : p.IsVertexOf e v) : d = e := by
  have hkey := hd.key_eq.symm.trans he.key_eq
  obtain ⟨n, _, hs, hk, _⟩ := hd
  obtain ⟨n', _, hs', hk', _⟩ := he
  exact congrArg Prod.snd (step_eq hloaded.isLocated hnames hs hs' (hk.trans hk'.symm) hkey)

theorem IsVertexOf.needs_iff (hloaded : Loaded source p.namespaces)
    (hnames : (p.namespaces.map Namespace.name).Nodup) {d e : Definition} {v w : Vertex}
    (hv : p.IsVertexOf d v) (hw : p.IsVertexOf e w) : v.Needs w ↔ p.Refers d e := by
  have hek : e.keyword = .object := by
    obtain ⟨_, _, _, hk, _⟩ := hw
    exact hk
  rw [refers_iff hloaded hnames hw.declares hek, Vertex.Needs, hw.key_eq, hv.key_eq]
  obtain ⟨n, o, hs, hk, ho, rfl⟩ := hv
  rw [← mem_dependencies_iff hloaded hs hk ho]
  refine ⟨And.right, fun hmem => ⟨?_, hmem⟩⟩
  intro hkey
  exact Object.key_notMem_dependencies ho (hkey ▸ hmem)

theorem exists_isVertexOf (h : Model.resolve p = .ok m) {d : Definition} (hd : p.Declares d)
    (hk : d.keyword = .object) : ∃ v, p.IsVertexOf d v := by
  obtain ⟨n, hn, hd⟩ := hd
  have hs := mem_steps_of_object hn hd hk
  obtain ⟨o, _, ho⟩ := Model.exists_object_of_step h hs hk
  exact ⟨o.vertex, n, o, hs, hk, ho, rfl⟩

/-- The vertices of a model and the object definitions of its program form the same graph. -/
theorem order_eq_error_iff_refers (hloaded : Loaded source p.namespaces)
    (h : Model.resolve p = .ok m) :
    (∃ rest, Vertex.order (m.allObjects.map Object.vertex) = .error rest) ↔
      ∃ d, TransGen p.Refers d d := by
  have hnames := Model.nodup_name_of_resolve h
  have hkeys := Model.nodup_key_allObjects hloaded h
  have hvertex {v : Vertex} : v ∈ m.allObjects.map Object.vertex ↔ ∃ d, p.IsVertexOf d v := by
    rw [List.mem_map]
    constructor
    · rintro ⟨o, ho, rfl⟩
      obtain ⟨n, d, hs, hk, ho⟩ := (Model.mem_allObjects h).mp ho
      exact ⟨d, n, o, hs, hk, ho, rfl⟩
    · rintro ⟨d, n, o, hs, hk, ho, rfl⟩
      exact ⟨o, (Model.mem_allObjects h).mpr ⟨n, d, hs, hk, ho⟩, rfl⟩
  rw [Vertex.order_eq_error_iff, Object.distinct_map_vertex hkeys]
  constructor
  · refine exists_cycle_of_simulation (s := fun v d => p.IsVertexOf d v) ?_ ?_ ?_
    · rintro v w ⟨hv, _, _⟩
      exact hvertex.mp hv
    · rintro v w d ⟨_, hw, hvw⟩ hd
      obtain ⟨e, he⟩ := hvertex.mp hw
      exact ⟨e, he, (hd.needs_iff hloaded hnames he).mp hvw⟩
    · intro v d d' hd hd'
      exact hd.definition_eq hloaded hnames hd'
  · refine exists_cycle_of_simulation (s := p.IsVertexOf) ?_ ?_ ?_
    · rintro d e ⟨t, ⟨n, _, _, _, hs, hk, _⟩, _⟩
      obtain ⟨hn, hd, _⟩ := mem_steps.mp hs
      exact exists_isVertexOf h ⟨n, hn, hd⟩ hk
    · intro d e v hde hv
      have ⟨t, _, hsame⟩ := hde
      obtain ⟨w, hw⟩ := exists_isVertexOf h hsame.declares hsame.keyword_eq
      exact ⟨w, hw, hvertex.mpr ⟨d, hv⟩, hvertex.mpr ⟨e, hw⟩,
        (hv.needs_iff hloaded hnames hw).mpr hde⟩
    · intro d v w hv hw
      exact hv.unique hloaded hw

/-- An object that refers to itself is the only thing that can go wrong in a resolvable program. -/
theorem refers_self_of_resolve_eq_error (hloaded : Loaded source p.namespaces)
    (hres : p.Resolvable) {e : SchemaError} (h : Model.resolve p = .error e) :
    ∃ d, e = .cycle [d.name] ∧ p.Refers d d := by
  obtain ⟨hcheck, hall⟩ := hres
  obtain ⟨⟨⟩, hcheck⟩ := exists_of_isOk hcheck
  have hnames := (checkNames_eq_ok_iff.mp hcheck).1
  unfold Model.resolve at h
  rcases bind_eq_error_iff.mp h with h | ⟨_, _, h⟩
  · cases hcheck.symm.trans h
  · rcases bind_eq_error_iff.mp h with h | ⟨_, _, h⟩
    · obtain ⟨⟨n, d⟩, hs, he⟩ := resolveSteps_eq_error h
      have hd := hall (n, d) hs
      by_cases hk : d.keyword = .object
      · obtain ⟨ds, tags, hds, htags, hfields⟩ := Definition.isResolvable_object hk hd
        simp only [Definition.resolve?, hk] at he
        have hself :=
          Object.resolveFields_eq_error_of_resolve hds htags (map_eq_error_iff.mp he)
        obtain ⟨rfl, x, hx, f, hf, hkey⟩ := Object.resolveFields_eq_error hfields hself
        have hne : f.typeKey ≠ [] := hkey ▸ d.key_ne_nil
        obtain ⟨hn, hmem, _⟩ := mem_steps.mp hs
        have hfield := hasFieldOf_of_resolve hs hk hds hx hf hne
        rw [hkey] at hfield
        exact ⟨d, rfl, (refers_iff hloaded hnames ⟨n, hn, hmem⟩ hk).mpr hfield⟩
      · rw [Definition.isResolvable, if_neg hk] at hd
        obtain ⟨r, hr⟩ := exists_of_isOk hd
        cases hr.symm.trans he
    · cases h

end Graph

/-- A resolvable program is either refused as cyclic or emitted. -/
theorem emit_cases {source : Source} {p : Program} (hloaded : Loaded source p.namespaces)
    (hres : p.Resolvable) (options : EmitOptions) :
    ((∃ names, (Model.resolve p >>= Bundle.emit options) = .error (.cyclic names)) ∧
        ∃ d, TransGen p.Refers d d) ∨
      ((∃ b, (Model.resolve p >>= Bundle.emit options) = .ok b) ∧
        ¬ ∃ d, TransGen p.Refers d d) := by
  cases hm : Model.resolve p with
  | error e =>
      obtain ⟨d, rfl, hself⟩ := refers_self_of_resolve_eq_error hloaded hres hm
      exact Or.inl ⟨⟨_, rfl⟩, d, .single hself⟩
  | ok m =>
      have hgraph := order_eq_error_iff_refers hloaded hm
      cases hb : Bundle.emit options m with
      | error e =>
          obtain ⟨vs, hvs, rfl⟩ := Object.order_eq_error_iff.mp (Bundle.emit_eq_error_iff.mp hb)
          exact Or.inl ⟨⟨_, hb⟩, hgraph.mp ⟨vs, hvs⟩⟩
      | ok b =>
          refine Or.inr ⟨⟨b, hb⟩, fun hcycle => ?_⟩
          obtain ⟨vs, hvs⟩ := hgraph.mpr hcycle
          have he := Object.order_eq_error_iff.mpr ⟨vs, hvs, rfl⟩
          rw [Bundle.emit_eq_error_iff.mpr he] at hb
          cases hb

/-- A loaded program that is resolvable fails to be emitted exactly if its objects refer to each
other in a circle, and then it is refused as cyclic. If no enum or bitmask that is the type of a
field shares document and name with an object, these are the programs with an object that holds
itself by value. -/
theorem emit_eq_cycle_iff {source : Source} {root : Text} {p : Program}
    (hload : (load source root).1 = .ok p) (hres : p.Resolvable) (options : EmitOptions) :
    ((∃ names, (Model.resolve p >>= Bundle.emit options) = .error (.cyclic names)) ↔
      ∃ d, TransGen p.Refers d d) ∧
    ((∃ b, (Model.resolve p >>= Bundle.emit options) = .ok b) ↔ ¬ ∃ d, TransGen p.Refers d d) ∧
    ((∀ d t e, p.HasFieldOf d t → t.keyword ≠ .object → ¬ p.Namesake t e) →
      ((∃ names, (Model.resolve p >>= Bundle.emit options) = .error (.cyclic names)) ↔
        ∃ d, TransGen p.Embeds d d)) := by
  have hloaded := (loadedFrom_of_load hload).loaded
  have hiff : (∃ names, (Model.resolve p >>= Bundle.emit options) = .error (.cyclic names)) ↔
      ∃ d, TransGen p.Refers d d := by
    rcases emit_cases hloaded hres options with ⟨herror, hcycle⟩ | ⟨⟨b, hok⟩, hcycle⟩
    · exact ⟨fun _ => hcycle, fun _ => herror⟩
    · refine ⟨fun ⟨names, herror⟩ => ?_, fun h => absurd h hcycle⟩
      cases hok.symm.trans herror
  refine ⟨hiff, ?_, ?_⟩
  · rcases emit_cases hloaded hres options with ⟨⟨names, herror⟩, hcycle⟩ | ⟨hok, hcycle⟩
    · refine ⟨fun ⟨b, hok⟩ => ?_, fun h => absurd hcycle h⟩
      cases herror.symm.trans hok
    · exact ⟨fun _ => hcycle, fun _ => hok⟩
  · intro hapart
    refine hiff.trans ⟨?_, ?_⟩
    · rintro ⟨d, h⟩
      exact ⟨d, TransGen.mono (fun d e => embeds_of_refers hloaded fun t => hapart d t e) d d h⟩
    · rintro ⟨d, h⟩
      exact ⟨d, TransGen.mono (fun d e => refers_of_embeds hloaded) d d h⟩

/-- An enum and an object of one name, and a field of the object whose type is the enum. -/
def namesakeDocument : Library :=
  .ofList [("a.yaml", "Enum A:\n X: 1\nObject A:\n f: A\n")]

/-- The categories of the fields of an object that can be read. -/
def fieldCategories (s : Namespace × Definition) : List Category :=
  match Object.declared s.1 s.2 with
  | .error _ => []
  | .ok ds => ds.filterMap fun x =>
    (TypeReference.resolve s.1 x.place (x.attributes.type.getD [])).toOption.map
      TypeReference.category

theorem not_embeds_of_fieldCategories {p : Program}
    (h : Category.object ∉ p.steps.flatMap fieldCategories) (d e : Definition) :
    ¬ p.Embeds d e := by
  rintro ⟨⟨n, ds, declared, type, hs, _, hds, hmem, htype, hnames⟩, hk⟩
  refine h (List.mem_flatMap.mpr ⟨(n, d), hs, ?_⟩)
  have hcategory : type.category = .object := by
    have heq := hnames.category_eq
    rw [hk] at heq
    exact (Option.some.inj heq).symm
  rw [fieldCategories, hds]
  refine List.mem_filterMap.mpr ⟨declared, hmem, ?_⟩
  rw [htype, ← hcategory]
  rfl

/-- The program of the document is refused although none of its objects holds another one. -/
theorem emit_eq_cycle_iff_namesake :
    ∃ p, (load namesakeDocument.source "a.yaml").1 = .ok p ∧ p.Resolvable ∧
      (∃ names, (Model.resolve p >>= Bundle.emit {}) = .error (.cyclic names)) ∧
      (∃ d, TransGen p.Refers d d) ∧ ∀ d e, ¬ p.Embeds d e := by
  have hok : (do
      let p ← (load namesakeDocument.source "a.yaml").1.toOption
      guard p.Resolvable
      guard (Category.object ∉ p.steps.flatMap fieldCategories)
      match Model.resolve p with
      | .error (.cyclic _) => some ()
      | _ => none) = some () := by decide +kernel
  obtain ⟨p, hp, hok⟩ := Option.bind_eq_some_iff.mp hok
  obtain ⟨_, hres, hok⟩ := Option.bind_eq_some_iff.mp hok
  obtain ⟨_, hnone, hok⟩ := Option.bind_eq_some_iff.mp hok
  have hload := eq_ok_of_toOption_eq_some hp
  have hres : p.Resolvable := by
    by_contra h
    simp [guard, h] at hres
  have hnone : Category.object ∉ p.steps.flatMap fieldCategories := by
    by_contra h
    simp [guard, h] at hnone
  have herror : ∃ names, (Model.resolve p >>= Bundle.emit {}) = .error (.cyclic names) := by
    split at hok
    · next names hnames => exact ⟨names, by rw [hnames]; rfl⟩
    · cases hok
  refine ⟨p, hload, hres, herror, ?_, not_embeds_of_fieldCategories hnone⟩
  exact (emit_eq_cycle_iff hload hres {}).1.mp herror

end Program

end RecordSchema
