import RecordSchema.Proofs.Model.Resolution
import RecordSchema.Proofs.Program.Load

/-!
# What the types of fields name

A type names a definition exactly when its category is that of enums, of bitmasks or of objects, and
a field keeps the key of that definition. In a loaded program whose schema names differ a key stands
for one document and one name, though not for one kind.
-/

namespace RecordSchema

open Text Namespace

namespace Keyword

/-- The category of the fields whose type is a definition of a kind. -/
def category? : Keyword → Option Category
  | .enum => some .enum
  | .bitmask => some .bitmask
  | .object => some .object
  | _ => none

theorem eq_of_category? {k k' : Keyword} {c : Category} (h : k.category? = some c)
    (h' : k'.category? = some c) : k = k' := by
  cases k <;> cases h <;> cases k' <;> cases h' <;> rfl

theorem category?_ne_atomic : ∀ a ∈ Atomic.all, ∀ k ∈ all, k.category? ≠ some a.category := by
  decide

theorem mem_resolvedKinds {k : Keyword} {c : Category} (h : k.category? = some c) :
    k ∈ resolvedKinds := by
  cases k <;> cases h <;> decide

end Keyword

namespace Definition

theorem key_eq_append (d : Definition) : d.key = d.origin ++ 46 :: d.name := by
  rw [key, List.append_assoc]
  rfl

theorem key_ne_nil (d : Definition) : d.key ≠ [] := by
  simp [key_eq_append]

end Definition

namespace TypeReference

/-- Whether a type names a definition in a namespace. -/
structure Names (n : Namespace) (type : TypeReference) (target : Definition) : Prop where
  category_eq : target.keyword.category? = some type.category
  lookup_eq : n.lookup? target.keyword type.base = some target

variable {n : Namespace} {place : Location} {base declared : Text} {type : TypeReference}

theorem Names.unique {t t' : Definition} (h : Names n type t) (h' : Names n type t') : t = t' := by
  have hk := Keyword.eq_of_category? h.category_eq h'.category_eq
  have hlookup := h.lookup_eq
  rw [hk, h'.lookup_eq] at hlookup
  exact (Option.some.inj hlookup).symm

theorem names_of_lookup {k : Keyword} {t : Definition} {c : Category}
    (h : n.lookup? k base = some t) (hc : k.category? = some c) :
    Names n { category := c, base, key := t.key } t := by
  obtain ⟨_, hk, _⟩ := mem_of_lookup?_eq_some h
  subst hk
  exact ⟨hc, h⟩

theorem definition?_eq_some (h : definition? n base = some type) :
    ∃ target, Names n type target ∧ type.key = target.key := by
  unfold definition? at h
  split at h
  · next d hd =>
      cases h
      exact ⟨d, names_of_lookup hd rfl, rfl⟩
  · split at h
    · next d hd =>
        cases h
        exact ⟨d, names_of_lookup hd rfl, rfl⟩
    · obtain ⟨d, hd, h⟩ := Option.map_eq_some_iff.mp h
      cases h
      exact ⟨d, names_of_lookup hd rfl, rfl⟩

/-- Whether a type is built in: a string or bytes with a size, or an atomic type. -/
structure IsBuiltIn (type : TypeReference) : Prop where
  key_eq : type.key = []
  kind : (type.category = .string ∧ 0 < type.maxSize) ∨ type.category = .bytes ∨
    ∃ a, Atomic.ofText? type.base = some a ∧ a.category = type.category

theorem IsBuiltIn.category_ne (h : type.IsBuiltIn) (k : Keyword) :
    k.category? ≠ some type.category := by
  rcases h.kind with ⟨hc, _⟩ | hc | ⟨a, ha, hc⟩
  · rw [hc]
    cases k <;> decide
  · rw [hc]
    cases k <;> decide
  · rw [← hc]
    exact Keyword.category?_ne_atomic a (List.mem_of_find?_eq_some ha) k k.mem_all

theorem plain_eq_ok (h : plain n place base = .ok type) :
    type.IsBuiltIn ∨ ∃ target, Names n type target ∧ type.key = target.key := by
  unfold plain at h
  split at h
  · next a ha =>
      cases h
      exact Or.inl ⟨rfl, Or.inr (Or.inr ⟨a, ha, rfl⟩)⟩
  · split at h
    · next r hr =>
        cases h
        exact Or.inr (definition?_eq_some hr)
    · cases h

theorem pos_of_positive {text what : Text} {v : Nat} (h : n.positive place text what = .ok v) :
    0 < v := by
  unfold positive at h
  simp only at h
  split at h
  · cases h
  · split at h
    · split at h
      · next i _ hi =>
          cases h
          have := hi.1
          omega
      · cases h
    · cases h

theorem sizedCategory?_eq_some {c : Category} (h : sizedCategory? base = some c) :
    c = .string ∨ c = .bytes := by
  unfold sizedCategory? at h
  split at h
  · cases h
    exact Or.inl rfl
  · split at h
    · cases h
      exact Or.inr rfl
    · cases h

/-- A type that can be resolved is built in or names a definition, of which it keeps the key. -/
theorem resolve_eq_ok (h : resolve n place declared = .ok type) :
    type.IsBuiltIn ∨ ∃ target, Names n type target ∧ type.key = target.key := by
  unfold resolve at h
  simp only at h
  split at h
  · cases h
  · split at h
    · next category size hsized hsize =>
        obtain ⟨maxSize, hmax, h⟩ := bind_eq_ok_iff.mp h
        cases h
        have hpos := pos_of_positive hmax
        refine Or.inl ⟨rfl, ?_⟩
        rcases sizedCategory?_eq_some hsized with rfl | rfl
        · exact Or.inl ⟨rfl, hpos⟩
        · exact Or.inr (Or.inl rfl)
    · cases h
    · cases h
    · exact plain_eq_ok h

theorem key_eq_of_names (h : resolve n place declared = .ok type) {target : Definition}
    (ht : Names n type target) : type.key = target.key := by
  rcases resolve_eq_ok h with hbuilt | ⟨t, hnames, hkey⟩
  · exact absurd ht.category_eq (hbuilt.category_ne _)
  · rw [hkey, hnames.unique ht]

end TypeReference

namespace Program

theorem checkNames_eq_ok_iff {seen : List (Text × Text)} {ns : List Namespace} :
    checkNames seen ns = .ok () ↔
      (ns.map Namespace.name).Nodup ∧ ∀ n ∈ ns, n.name ∉ seen.map Prod.fst := by
  induction ns generalizing seen with
  | nil => simp [checkNames]
  | cons n rest ih =>
      rw [checkNames, List.map_cons, List.nodup_cons, List.forall_mem_cons]
      cases hseen : seen.lookup n.name with
      | some other =>
          have hmem : n.name ∈ seen.map Prod.fst :=
            List.mem_map_of_mem (mem_of_lookup_eq_some hseen)
          simp [hmem]
      | none =>
          have hnew := lookup_eq_none_iff_not_mem.mp hseen
          simp only [ih, List.map_cons, List.mem_cons, not_or]
          constructor
          · rintro ⟨hnodup, hrest⟩
            refine ⟨⟨?_, hnodup⟩, hnew, fun m hm => (hrest m hm).2⟩
            intro hmem
            obtain ⟨m, hm, hname⟩ := List.mem_map.mp hmem
            exact (hrest m hm).1 hname
          · rintro ⟨⟨hname, hnodup⟩, _, hrest⟩
            refine ⟨hnodup, fun m hm => ⟨?_, hrest m hm⟩⟩
            intro heq
            exact hname (heq ▸ List.mem_map_of_mem hm)

/-- Whether a document of the program declares a definition. -/
def Declares (p : Program) (d : Definition) : Prop :=
  ∃ n ∈ p.namespaces, d ∈ n.own.definitions

theorem declares_of_lookup? {source : Source} {p : Program}
    (hloaded : Loaded source p.namespaces) {n : Namespace} (hn : n ∈ p.namespaces) {k : Keyword}
    {name : Text} {d : Definition} (h : n.lookup? k name = some d) : p.Declares d := by
  obtain ⟨m, hm, hd, _⟩ := hloaded.mem_own_of_lookup? hn h
  exact ⟨m, hm, hd⟩

/-- What a type names is resolved with the program. -/
theorem exists_step_of_names {source : Source} {p : Program}
    (hloaded : Loaded source p.namespaces) {n : Namespace} (hn : n ∈ p.namespaces)
    {type : TypeReference} {target : Definition} (h : TypeReference.Names n type target) :
    ∃ n', (n', target) ∈ p.steps := by
  obtain ⟨n', hn', ht⟩ := declares_of_lookup? hloaded hn h.lookup_eq
  exact ⟨n', mem_steps.mpr ⟨hn', ht, Keyword.mem_resolvedKinds h.category_eq⟩⟩

section Keys

variable {p : Program} (hp : p.IsLocated)

include hp

theorem namespace_eq {n n' : Namespace} {d d' : Definition} (hn : n ∈ p.namespaces)
    (hn' : n' ∈ p.namespaces) (hd : d ∈ n.own.definitions) (hd' : d' ∈ n'.own.definitions)
    (hdoc : d.document = d'.document) : n = n' := by
  refine List.inj_on_of_nodup_map hp.nodup_path hn hn' ?_
  rw [← (hp.declares _ hn).document_eq d hd, ← (hp.declares _ hn').document_eq d' hd', hdoc]

/-- A key tells the document and the name. -/
theorem key_eq_iff (hnames : (p.namespaces.map Namespace.name).Nodup) {d e : Definition}
    (hd : p.Declares d) (he : p.Declares e) :
    d.key = e.key ↔ d.document = e.document ∧ d.name = e.name := by
  obtain ⟨n, hn, hd⟩ := hd
  obtain ⟨m, hm, he⟩ := he
  have hdn := hp.declares _ hn
  have hem := hp.declares _ hm
  constructor
  · intro hkey
    rw [Definition.key_eq_append, Definition.key_eq_append] at hkey
    obtain ⟨horigin, hname⟩ := append_dot_inj
      (dot_notMem_of_isIdentifier (hdn.isIdentifier d hd))
      (dot_notMem_of_isIdentifier (hem.isIdentifier e he)) hkey
    rw [hdn.origin_eq d hd, hem.origin_eq e he] at horigin
    have hnm := List.inj_on_of_nodup_map hnames hn hm horigin
    rw [hdn.document_eq d hd, hem.document_eq e he, hnm]
    exact ⟨rfl, hname⟩
  · rintro ⟨hdoc, hname⟩
    have hnm := namespace_eq hp hn hm hd he hdoc
    rw [Definition.key, Definition.key, hname, hdn.origin_eq d hd, hem.origin_eq e he, hnm]

theorem eq_of_document_eq {d e : Definition} (hd : p.Declares d) (he : p.Declares e)
    (hkind : d.keyword = e.keyword) (hdoc : d.document = e.document) (hname : d.name = e.name) :
    d = e := by
  obtain ⟨n, hn, hd⟩ := hd
  obtain ⟨m, hm, he⟩ := he
  have hnm := namespace_eq hp hn hm hd he hdoc
  subst hnm
  have hnamed : d.named = e.named := by rw [Definition.named, Definition.named, hkind, hname]
  exact List.inj_on_of_nodup_map (hp.declares _ hn).distinct hd he hnamed

theorem nodup_steps : p.steps.Nodup := by
  refine List.nodup_flatMap.mpr ⟨?_, ?_⟩
  · intro n hn
    have hnodup : n.own.definitions.Nodup := (hp.declares _ hn).distinct.of_map _
    refine List.nodup_flatMap.mpr ⟨?_, ?_⟩
    · intro k _
      exact (hnodup.filter _).map fun _ _ heq => (Prod.mk.inj heq).2
    · have hkinds : resolvedKinds.Nodup := by decide
      refine hkinds.imp ?_
      intro k k' hne s hs hs'
      obtain ⟨d, hd, rfl⟩ := List.mem_map.mp hs
      obtain ⟨d', hd', heq⟩ := List.mem_map.mp hs'
      cases heq
      have hk := of_decide_eq_true (List.mem_filter.mp hd).2
      have hk' := of_decide_eq_true (List.mem_filter.mp hd').2
      exact hne (hk.symm.trans hk')
  · have hns : p.namespaces.Nodup := hp.nodup_path.of_map _
    refine hns.imp ?_
    intro n n' hne s hs hs'
    obtain ⟨k, _, hs⟩ := List.mem_flatMap.mp hs
    obtain ⟨k', _, hs'⟩ := List.mem_flatMap.mp hs'
    obtain ⟨d, _, rfl⟩ := List.mem_map.mp hs
    obtain ⟨d', _, heq⟩ := List.mem_map.mp hs'
    cases heq
    exact hne rfl

/-- A step is determined by the kind and the key of its definition. -/
theorem step_eq (hnames : (p.namespaces.map Namespace.name).Nodup) {s t : Namespace × Definition}
    (hs : s ∈ p.steps) (ht : t ∈ p.steps) (hkind : s.2.keyword = t.2.keyword)
    (hkey : s.2.key = t.2.key) : s = t := by
  obtain ⟨n, d⟩ := s
  obtain ⟨m, e⟩ := t
  obtain ⟨hn, hd, _⟩ := mem_steps.mp hs
  obtain ⟨hm, he, _⟩ := mem_steps.mp ht
  obtain ⟨hdoc, hname⟩ := (key_eq_iff hp hnames ⟨n, hn, hd⟩ ⟨m, hm, he⟩).mp hkey
  have hde := eq_of_document_eq hp ⟨n, hn, hd⟩ ⟨m, hm, he⟩ hkind hdoc hname
  have hnm := namespace_eq hp hn hm hd he (congrArg Definition.document hde)
  exact Prod.ext hnm hde

end Keys

end Program

namespace Object

theorem key_of_resolve {n : Namespace} {d : Definition} {o : Object} (h : resolve n d = .ok o) :
    o.key = d.key := by
  obtain ⟨_, _, fields, _, _, _, rfl⟩ := resolve_eq_ok_iff.mp h
  rfl

theorem mem_dependenciesOf {fields : List Field} {key : Text} :
    key ∈ dependenciesOf fields ↔ key ≠ [] ∧ ∃ f ∈ fields, f.typeKey = key := by
  simp only [dependenciesOf, Text.sort, List.mem_mergeSort, List.mem_eraseDups, List.mem_filter,
    List.mem_map, decide_eq_true_eq]
  exact and_comm

theorem key_ne_nil (o : Object) : o.key ≠ [] := by
  intro h
  obtain ⟨h, _⟩ := List.append_eq_nil_iff.mp h
  exact absurd (List.append_eq_nil_iff.mp h).2 (by decide)

theorem typeKey_mem_dependencies {n : Namespace} {d : Definition} {o : Object}
    (h : resolve n d = .ok o) {f : Field} (hf : f ∈ o.ordered) (hne : f.typeKey ≠ []) :
    f.typeKey ∈ o.dependencies := by
  obtain ⟨ds, tags, fields, _, _, _, rfl⟩ := resolve_eq_ok_iff.mp h
  have hmem := (List.mem_filter.mp (List.mem_mergeSort.mp hf)).1
  exact mem_dependenciesOf.mpr ⟨hne, f, hmem, rfl⟩

theorem key_notMem_dependencies {n : Namespace} {d : Definition} {o : Object}
    (h : resolve n d = .ok o) : d.key ∉ o.dependencies := by
  obtain ⟨ds, tags, fields, _, _, hfields, rfl⟩ := resolve_eq_ok_iff.mp h
  intro hmem
  obtain ⟨_, f, hf, hkey⟩ := mem_dependenciesOf.mp hmem
  obtain ⟨x, hx, hf⟩ := (mem_of_resolveFields_eq_ok hfields).mp hf
  obtain ⟨g, hg, hne⟩ := exists_field_of_resolveFields hfields x hx
  cases hf.symm.trans hg
  exact hne hkey

end Object

theorem Bitmask.resolve_eq_ok {d : Definition} {b : Bitmask} (h : Bitmask.resolve d = .ok b) :
    b.key = d.key ∧ b.storageSize ∣ 8 := by
  unfold Bitmask.resolve at h
  obtain ⟨values, _, h⟩ := bind_eq_ok_iff.mp h
  obtain ⟨highest, _, h⟩ := bind_eq_ok_iff.mp h
  cases h
  refine ⟨rfl, ?_⟩
  simp only [bitmaskSize]
  split_ifs <;> decide

namespace Model

variable {source : Source} {p : Program} {m : Model}

theorem nodup_name_of_resolve (h : resolve p = .ok m) :
    (p.namespaces.map Namespace.name).Nodup :=
  (Program.checkNames_eq_ok_iff.mp (resolve_eq_ok_iff.mp h).1).1

/-- Among what steps give for the definitions of one kind no two have the same key. -/
theorem nodup_map_filterMap_steps (hp : p.IsLocated)
    (hnames : (p.namespaces.map Namespace.name).Nodup) {β : Type}
    {g : Namespace × Definition → Option β} {key : β → Text} (kind : Keyword)
    (hg : ∀ s b, g s = some b → s.2.keyword = kind ∧ key b = s.2.key) :
    ((p.steps.filterMap g).map key).Nodup := by
  rw [List.Nodup, List.pairwise_map, List.pairwise_filterMap]
  refine (Program.nodup_steps hp).imp_of_mem ?_
  intro s t hs ht hne b hb b' hb' hkey
  obtain ⟨hk, hbkey⟩ := hg s b hb
  obtain ⟨hk', hbkey'⟩ := hg t b' hb'
  rw [hbkey, hbkey'] at hkey
  exact hne (Program.step_eq hp hnames hs ht (hk.trans hk'.symm) hkey)

/-- The object that a step of the resolution adds. -/
def objectOf? (s : Namespace × Definition) : Option Object :=
  (Program.outcome? s).bind fun r => r.2.object?

theorem objectOf?_eq_some_iff {s : Namespace × Definition} {o : Object} :
    objectOf? s = some o ↔ s.2.keyword = .object ∧ Object.resolve s.1 s.2 = .ok o := by
  rw [← Definition.resolve?_eq_object_iff]
  unfold objectOf? Program.outcome?
  rcases s.2.resolve? s.1 with e | _ | r
  · simp
  · simp
  · cases r <;> simp [Resolved.object?]

theorem key_of_objectOf? {s : Namespace × Definition} {o : Object} (h : objectOf? s = some o) :
    s.2.keyword = .object ∧ o.key = s.2.key :=
  (objectOf?_eq_some_iff.mp h).imp_right Object.key_of_resolve

theorem allObjects_eq (h : resolve p = .ok m) : m.allObjects = p.steps.filterMap objectOf? := by
  obtain ⟨_, _, rfl⟩ := resolve_eq_ok_iff.mp h
  simp only [ofResolved, List.filterMap_map, List.filterMap_filterMap]
  rfl

theorem nodup_key_of_isLocated (hp : p.IsLocated) (h : resolve p = .ok m) :
    (m.allObjects.map Object.key).Nodup := by
  rw [allObjects_eq h]
  exact nodup_map_filterMap_steps hp (nodup_name_of_resolve h) .object fun _ _ => key_of_objectOf?

theorem nodup_key_allObjects (hloaded : Loaded source p.namespaces) (h : resolve p = .ok m) :
    (m.allObjects.map Object.key).Nodup :=
  nodup_key_of_isLocated hloaded.isLocated h

/-- The objects of the root document are what its object definitions resolve to. -/
theorem mem_objects {root : Text} (hfrom : Program.LoadedFrom source root p) (h : resolve p = .ok m)
    {o : Object} :
    o ∈ m.objects ↔
      ∃ d ∈ p.root.own.definitions, d.keyword = .object ∧ Object.resolve p.root d = .ok o := by
  obtain ⟨_, _, rfl⟩ := resolve_eq_ok_iff.mp h
  constructor
  · intro ho
    obtain ⟨r, hr, ho⟩ := List.mem_filterMap.mp ho
    obtain ⟨⟨n, r'⟩, hfilter, rfl⟩ := List.mem_map.mp hr
    obtain ⟨hall, hpath⟩ := List.mem_filter.mp hfilter
    obtain ⟨⟨n', d⟩, hs, hout⟩ := List.mem_filterMap.mp hall
    obtain ⟨hn, hd⟩ := Program.outcome?_eq_some_iff.mp hout
    obtain ⟨hmem, hown, _⟩ := Program.mem_steps.mp hs
    have hroot : n' = p.root := List.inj_on_of_nodup_map hfrom.loaded.nodup_path hmem hfrom.root_mem
      ((congrArg Namespace.path hn).trans (beq_iff_eq.mp hpath))
    subst hroot
    cases r' with
    | object o' =>
        cases ho
        obtain ⟨hk, ho⟩ := Definition.resolve?_eq_object_iff.mp hd
        exact ⟨d, hown, hk, ho⟩
    | _ => cases ho
  · rintro ⟨d, hown, hk, ho⟩
    have hs := Program.mem_steps_of_object hfrom.root_mem hown hk
    have hout : Program.outcome? (p.root, d) = some (p.root, .object o) :=
      Program.outcome?_eq_some_iff.mpr ⟨rfl, Definition.resolve?_eq_object_iff.mpr ⟨hk, ho⟩⟩
    refine List.mem_filterMap.mpr ⟨.object o, List.mem_map.mpr ⟨(p.root, .object o), ?_, rfl⟩, rfl⟩
    exact List.mem_filter.mpr ⟨List.mem_filterMap.mpr ⟨(p.root, d), hs, hout⟩, beq_self_eq_true _⟩

theorem objects_subset {root : Text} (hfrom : Program.LoadedFrom source root p)
    (h : resolve p = .ok m) : m.objects ⊆ m.allObjects := by
  intro o ho
  obtain ⟨d, hown, hk, ho⟩ := (mem_objects hfrom h).mp ho
  exact (mem_allObjects h).mpr
    ⟨p.root, d, Program.mem_steps_of_object hfrom.root_mem hown hk, hk, ho⟩

theorem object?_key (hkeys : (m.allObjects.map Object.key).Nodup) {o : Object}
    (ho : o ∈ m.allObjects) : m.object? o.key = some o :=
  find?_key_eq_some hkeys ho

/-- The bitmask that a step of the resolution adds. -/
def bitmaskOf? (s : Namespace × Definition) : Option Bitmask :=
  (Program.outcome? s).bind fun r => r.2.bitmask?

theorem bitmaskOf?_eq_some_iff {s : Namespace × Definition} {b : Bitmask} :
    bitmaskOf? s = some b ↔ s.2.keyword = .bitmask ∧ Bitmask.resolve s.2 = .ok b := by
  rw [← Definition.resolve?_eq_bitmask_iff]
  unfold bitmaskOf? Program.outcome?
  rcases s.2.resolve? s.1 with e | _ | r
  · simp
  · simp
  · cases r <;> simp [Resolved.bitmask?]

theorem key_of_bitmaskOf? {s : Namespace × Definition} {b : Bitmask} (h : bitmaskOf? s = some b) :
    s.2.keyword = .bitmask ∧ b.key = s.2.key :=
  (bitmaskOf?_eq_some_iff.mp h).imp_right fun hb => (Bitmask.resolve_eq_ok hb).1

theorem allBitmasks_eq (h : resolve p = .ok m) : m.allBitmasks = p.steps.filterMap bitmaskOf? := by
  obtain ⟨_, _, rfl⟩ := resolve_eq_ok_iff.mp h
  simp only [ofResolved, List.filterMap_map, List.filterMap_filterMap]
  rfl

theorem nodup_key_allBitmasks (hloaded : Loaded source p.namespaces) (h : resolve p = .ok m) :
    (m.allBitmasks.map Bitmask.key).Nodup := by
  rw [allBitmasks_eq h]
  exact nodup_map_filterMap_steps hloaded.isLocated (nodup_name_of_resolve h) .bitmask
    fun _ _ => key_of_bitmaskOf?

/-- What the bitmask definitions of the documents resolve to is found by key. -/
theorem bitmask?_of_step (hloaded : Loaded source p.namespaces) (h : resolve p = .ok m)
    {n : Namespace} {d : Definition} (hs : (n, d) ∈ p.steps) (hk : d.keyword = .bitmask) :
    ∃ b, m.bitmask? d.key = some b ∧ Bitmask.resolve d = .ok b := by
  obtain ⟨r, hr⟩ := (resolve_eq_ok_iff.mp h).2.1 (n, d) hs
  simp only [Definition.resolve?, hk] at hr
  obtain ⟨b, hb, _⟩ := map_eq_ok_iff.mp hr
  have hmem : b ∈ m.allBitmasks := by
    rw [allBitmasks_eq h]
    exact List.mem_filterMap.mpr ⟨(n, d), hs, bitmaskOf?_eq_some_iff.mpr ⟨hk, hb⟩⟩
  refine ⟨b, ?_, hb⟩
  rw [← (Bitmask.resolve_eq_ok hb).1]
  exact find?_key_eq_some (nodup_key_allBitmasks hloaded h) hmem

/-- What the object definitions of the documents resolve to is found by key. -/
theorem object?_of_step (hloaded : Loaded source p.namespaces) (h : resolve p = .ok m)
    {n : Namespace} {d : Definition} (hs : (n, d) ∈ p.steps) (hk : d.keyword = .object) :
    ∃ o, m.object? d.key = some o ∧ Object.resolve n d = .ok o := by
  obtain ⟨o, hmem, ho⟩ := exists_object_of_step h hs hk
  refine ⟨o, ?_, ho⟩
  rw [← Object.key_of_resolve ho]
  exact object?_key (nodup_key_allObjects hloaded h) hmem

/-- The definition that a field refers to is resolved with the program. -/
theorem exists_step_of_field (hloaded : Loaded source p.namespaces) (h : resolve p = .ok m)
    {o : Object} (ho : o ∈ m.allObjects) {f : Field} (hf : f ∈ o.ordered) {k : Keyword}
    (hk : k.category? = some f.category) :
    ∃ n t, (n, t) ∈ p.steps ∧ t.keyword = k ∧ t.key = f.typeKey := by
  obtain ⟨n, d, hs, _, ho⟩ := (mem_allObjects h).mp ho
  obtain ⟨_, declared, tag, _, _, hr⟩ := Object.exists_declared_of_mem_ordered ho hf
  obtain ⟨type, hr⟩ := Declared.resolves_of_resolve_eq_ok hr
  rw [hr.category_eq] at hk
  rcases TypeReference.resolve_eq_ok hr.type_eq with hbuilt | ⟨target, hnames, hkey⟩
  · exact absurd hk (hbuilt.category_ne k)
  · obtain ⟨n', hs'⟩ := Program.exists_step_of_names hloaded (Program.mem_steps.mp hs).1 hnames
    refine ⟨n', target, hs', Keyword.eq_of_category? hnames.category_eq hk, ?_⟩
    rw [hr.typeKey_eq, hkey]

end Model

end RecordSchema
