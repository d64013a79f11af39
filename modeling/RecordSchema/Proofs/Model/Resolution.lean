import Mathlib.Data.List.Forall2
import RecordSchema.Model.Resolve
import RecordSchema.Proofs.Outcome

/-!
# What a resolved program consists of

A program is resolved exactly when its schema names differ and each of its definitions resolves in
the namespace of its document; the model then lists what the definitions resolve to.
-/

namespace RecordSchema

namespace Declared

/-- What a field keeps of its declaration and of its type. -/
structure Resolves (n : Namespace) (d : Declared) (tag : Int) (type : TypeReference) (f : Field) :
    Prop where
  type_eq : TypeReference.resolve n d.place (d.attributes.type.getD []) = .ok type
  length_eq : d.length n = .ok f.bound
  name_eq : f.name = d.declarator.name
  tag_eq : f.tag = tag
  isIdentifier_eq : f.isIdentifier = WireTag.isIdentifier d
  category_eq : f.category = type.category
  typeName_eq : f.typeName = type.base
  typeKey_eq : f.typeKey = type.key
  maxSize_eq : f.maxSize = type.maxSize

theorem resolves_of_resolve_eq_ok {n : Namespace} {d : Declared} {tag : Int} {f : Field}
    (h : d.resolve n tag = .ok f) : ∃ type, Resolves n d tag type f := by
  unfold Declared.resolve at h
  obtain ⟨type, htype, h⟩ := bind_eq_ok_iff.mp h
  obtain ⟨_, _, h⟩ := bind_eq_ok_iff.mp h
  obtain ⟨bound, hbound, h⟩ := bind_eq_ok_iff.mp h
  obtain ⟨_, _, h⟩ := bind_eq_ok_iff.mp h
  cases h
  exact ⟨type, htype, hbound, rfl, rfl, rfl, rfl, rfl, rfl, rfl⟩

end Declared

namespace Object

/-- The declared fields of the definition of an object. -/
def declared (n : Namespace) (d : Definition) : Except SchemaError (List Declared) :=
  match d.body.pairs? with
  | none => .error (.malformed d.place .objectShape)
  | some pairs => Declared.readFields n d.place [] pairs

theorem resolve_eq (n : Namespace) (d : Definition) :
    resolve n d = do
      let ds ← declared n d
      let tags ← WireTag.allocate ds
      let fields ← resolveFields n d (ds.zip tags)
      return ofFields d fields := by
  unfold resolve declared
  cases d.body.pairs? with
  | none => rfl
  | some pairs => rfl

theorem resolve_eq_ok_iff {n : Namespace} {d : Definition} {o : Object} :
    resolve n d = .ok o ↔ ∃ ds tags fields, declared n d = .ok ds ∧ WireTag.allocate ds = .ok tags ∧
      resolveFields n d (ds.zip tags) = .ok fields ∧ o = ofFields d fields := by
  rw [resolve_eq]
  constructor
  · intro h
    obtain ⟨ds, hds, h⟩ := bind_eq_ok_iff.mp h
    obtain ⟨tags, htags, h⟩ := bind_eq_ok_iff.mp h
    obtain ⟨fields, hfields, h⟩ := bind_eq_ok_iff.mp h
    cases h
    exact ⟨ds, tags, fields, hds, htags, hfields, rfl⟩
  · rintro ⟨ds, tags, fields, hds, htags, hfields, rfl⟩
    refine bind_eq_ok_iff.mpr ⟨ds, hds, bind_eq_ok_iff.mpr ⟨tags, htags, ?_⟩⟩
    exact bind_eq_ok_iff.mpr ⟨fields, hfields, rfl⟩

theorem resolveFields_eq_ok_iff {n : Namespace} {d : Definition} {ps : List (Declared × Int)}
    {fields : List Field} :
    resolveFields n d ps = .ok fields ↔
      List.Forall₂ (fun p f => p.1.resolve n p.2 = .ok f ∧ f.typeKey ≠ d.key) ps fields := by
  induction ps generalizing fields with
  | nil =>
      constructor
      · intro h
        cases h
        exact .nil
      · intro h
        cases h
        rfl
  | cons p rest ih =>
      rw [resolveFields]
      constructor
      · intro h
        obtain ⟨f, hf, h⟩ := bind_eq_ok_iff.mp h
        split at h
        · cases h
        · next hkey =>
            obtain ⟨fs, hfs, h⟩ := bind_eq_ok_iff.mp h
            cases h
            exact .cons ⟨hf, hkey⟩ (ih.mp hfs)
      · intro h
        cases h with
        | cons hf hrest =>
            refine bind_eq_ok_iff.mpr ⟨_, hf.1, ?_⟩
            rw [if_neg hf.2]
            exact bind_eq_ok_iff.mpr ⟨_, ih.mpr hrest, rfl⟩

theorem resolveFields_eq_error_of_resolve {n : Namespace} {d : Definition} {ds : List Declared}
    {tags : List Int} {e : SchemaError} (hds : declared n d = .ok ds)
    (htags : WireTag.allocate ds = .ok tags) (h : resolve n d = .error e) :
    resolveFields n d (ds.zip tags) = .error e := by
  rw [resolve_eq, hds] at h
  rcases bind_eq_error_iff.mp h with h | ⟨_, hok, h⟩
  · cases h
  · cases hok
    rcases bind_eq_error_iff.mp h with h | ⟨_, hok, h⟩
    · cases htags.symm.trans h
    · cases htags.symm.trans hok
      rcases bind_eq_error_iff.mp h with h | ⟨_, _, h⟩
      · exact h
      · cases h

theorem mem_of_resolveFields_eq_ok {n : Namespace} {d : Definition} {ps : List (Declared × Int)}
    {fields : List Field} (h : resolveFields n d ps = .ok fields) {f : Field} :
    f ∈ fields ↔ ∃ x ∈ ps, x.1.resolve n x.2 = .ok f := by
  have hall := resolveFields_eq_ok_iff.mp h
  clear h
  induction hall with
  | nil => simp
  | @cons x g ps fields hg _ ih =>
      constructor
      · intro hf
        rcases List.mem_cons.mp hf with rfl | hf
        · exact ⟨x, List.mem_cons_self, hg.1⟩
        · obtain ⟨y, hy, hf⟩ := ih.mp hf
          exact ⟨y, List.mem_cons_of_mem x hy, hf⟩
      · rintro ⟨y, hy, hf⟩
        rcases List.mem_cons.mp hy with rfl | hy
        · rw [Except.ok.inj (hf.symm.trans hg.1)]
          exact List.mem_cons_self
        · exact List.mem_cons_of_mem g (ih.mpr ⟨y, hy, hf⟩)

theorem exists_field_of_resolveFields {n : Namespace} {d : Definition}
    {ps : List (Declared × Int)} {fields : List Field} (h : resolveFields n d ps = .ok fields) :
    ∀ x ∈ ps, ∃ f, x.1.resolve n x.2 = .ok f ∧ f.typeKey ≠ d.key := by
  have hall := resolveFields_eq_ok_iff.mp h
  clear h
  induction hall with
  | nil => simp
  | cons hf _ ih => exact List.forall_mem_cons.mpr ⟨⟨_, hf⟩, ih⟩

/-- Each field but the identifier comes from a declaration. -/
theorem exists_declared_of_mem_ordered {n : Namespace} {d : Definition} {o : Object}
    (h : resolve n d = .ok o) {f : Field} (hf : f ∈ o.ordered) :
    ∃ ds declared tag, Object.declared n d = .ok ds ∧ declared ∈ ds ∧
      Declared.resolve n declared tag = .ok f := by
  obtain ⟨ds, tags, fields, hds, _, hfields, rfl⟩ := resolve_eq_ok_iff.mp h
  have hmem := (List.mem_filter.mp (List.mem_mergeSort.mp hf)).1
  obtain ⟨x, hx, hf⟩ := (mem_of_resolveFields_eq_ok hfields).mp hmem
  exact ⟨ds, x.1, x.2, hds, (List.of_mem_zip hx).1, hf⟩

/-- If every field can be resolved, only a field that refers to the object itself is refused. -/
theorem resolveFields_eq_error {n : Namespace} {d : Definition} {ps : List (Declared × Int)}
    {e : SchemaError} (hall : ∀ x ∈ ps, ∃ f, x.1.resolve n x.2 = .ok f)
    (h : resolveFields n d ps = .error e) :
    e = .cycle [d.name] ∧ ∃ x ∈ ps, ∃ f, x.1.resolve n x.2 = .ok f ∧ f.typeKey = d.key := by
  induction ps with
  | nil => cases h
  | cons x rest ih =>
      have hrest : ∀ y ∈ rest, ∃ f, y.1.resolve n y.2 = .ok f :=
        fun y hy => hall y (List.mem_cons_of_mem x hy)
      obtain ⟨f, hf⟩ := hall x List.mem_cons_self
      rw [resolveFields, bind_eq_error_iff] at h
      rcases h with h | ⟨g, hg, h⟩
      · cases hf.symm.trans h
      · cases hf.symm.trans hg
        split at h
        · next hkey =>
            cases h
            exact ⟨rfl, x, List.mem_cons_self, f, hf, hkey⟩
        · rcases bind_eq_error_iff.mp h with h | ⟨fs, _, h⟩
          · obtain ⟨he, y, hy, hself⟩ := ih hrest h
            exact ⟨he, y, List.mem_cons_of_mem x hy, hself⟩
          · cases h

end Object

namespace Definition

theorem resolve?_eq_object_iff {n : Namespace} {d : Definition} {o : Object} :
    d.resolve? n = .ok (some (.object o)) ↔ d.keyword = .object ∧ Object.resolve n d = .ok o := by
  unfold resolve?
  cases d.keyword <;> simp [map_eq_ok_iff]

theorem resolve?_eq_bitmask_iff {n : Namespace} {d : Definition} {b : Bitmask} :
    d.resolve? n = .ok (some (.bitmask b)) ↔ d.keyword = .bitmask ∧ Bitmask.resolve d = .ok b := by
  unfold resolve?
  cases d.keyword <;> simp [map_eq_ok_iff]

end Definition

namespace Program

theorem mem_steps {p : Program} {n : Namespace} {d : Definition} :
    (n, d) ∈ p.steps ↔
      n ∈ p.namespaces ∧ d ∈ n.own.definitions ∧ d.keyword ∈ Namespace.resolvedKinds := by
  simp only [steps, Namespace.steps, Scope.ofKind, List.mem_flatMap, List.mem_map, List.mem_filter,
    Prod.mk.injEq, beq_iff_eq]
  constructor
  · rintro ⟨n', hn, k, hk, d', ⟨hd, rfl⟩, rfl, rfl⟩
    exact ⟨hn, hd, hk⟩
  · rintro ⟨hn, hd, hk⟩
    exact ⟨n, hn, d.keyword, hk, d, ⟨hd, rfl⟩, rfl, rfl⟩

theorem mem_steps_of_object {p : Program} {n : Namespace} (hn : n ∈ p.namespaces) {d : Definition}
    (hd : d ∈ n.own.definitions) (hk : d.keyword = .object) : (n, d) ∈ p.steps := by
  refine mem_steps.mpr ⟨hn, hd, ?_⟩
  rw [hk]
  decide

/-- What a step of the resolution adds to the model. -/
def outcome? (s : Namespace × Definition) : Option (Namespace × Resolved) :=
  match s.2.resolve? s.1 with
  | .ok r => r.map fun r => (s.1, r)
  | .error _ => none

theorem outcome?_eq_some_iff {s : Namespace × Definition} {n : Namespace} {r : Resolved} :
    outcome? s = some (n, r) ↔ s.1 = n ∧ s.2.resolve? s.1 = .ok (some r) := by
  unfold outcome?
  rcases s.2.resolve? s.1 with e | _ | r'
  · simp
  · simp
  · simp

theorem resolveSteps_eq_ok_iff {steps : List (Namespace × Definition)}
    {rs : List (Namespace × Resolved)} :
    resolveSteps steps = .ok rs ↔
      (∀ s ∈ steps, ∃ r, s.2.resolve? s.1 = .ok r) ∧ rs = steps.filterMap outcome? := by
  induction steps generalizing rs with
  | nil =>
      simp only [resolveSteps, Except.ok.injEq, List.not_mem_nil, false_implies, implies_true,
        List.filterMap_nil, true_and]
      exact eq_comm
  | cons s rest ih =>
      obtain ⟨n, d⟩ := s
      rw [resolveSteps, List.forall_mem_cons]
      constructor
      · intro h
        obtain ⟨r, hr, h⟩ := bind_eq_ok_iff.mp h
        obtain ⟨more, hmore, h⟩ := bind_eq_ok_iff.mp h
        obtain ⟨hall, rfl⟩ := ih.mp hmore
        refine ⟨⟨⟨r, hr⟩, hall⟩, ?_⟩
        cases r with
        | none =>
            cases h
            simp [outcome?, hr]
        | some r =>
            cases h
            simp [outcome?, hr]
      · rintro ⟨⟨⟨r, hr⟩, hall⟩, rfl⟩
        refine bind_eq_ok_iff.mpr ⟨r, hr, bind_eq_ok_iff.mpr ⟨_, ih.mpr ⟨hall, rfl⟩, ?_⟩⟩
        cases r with
        | none => simp [outcome?, hr, pure, Except.pure]
        | some r => simp [outcome?, hr, pure, Except.pure]

/-- The resolution fails at the first definition that cannot be resolved. -/
theorem exists_first_of_resolveSteps {steps : List (Namespace × Definition)} {e : SchemaError}
    (h : resolveSteps steps = .error e) :
    ∃ before s after, steps = before ++ s :: after ∧
      (∀ t ∈ before, ∃ r, t.2.resolve? t.1 = .ok r) ∧ s.2.resolve? s.1 = .error e := by
  induction steps with
  | nil => cases h
  | cons s rest ih =>
      obtain ⟨n, d⟩ := s
      rcases bind_eq_error_iff.mp h with h | ⟨r, hr, h⟩
      · exact ⟨[], (n, d), rest, rfl, fun _ ht => absurd ht List.not_mem_nil, h⟩
      · rcases bind_eq_error_iff.mp h with h | ⟨more, _, h⟩
        · obtain ⟨before, s, after, rfl, hbefore, he⟩ := ih h
          exact ⟨(n, d) :: before, s, after, rfl, List.forall_mem_cons.mpr ⟨⟨r, hr⟩, hbefore⟩, he⟩
        · cases r with
          | none => cases h
          | some r => cases h

theorem resolveSteps_eq_error {steps : List (Namespace × Definition)} {e : SchemaError}
    (h : resolveSteps steps = .error e) : ∃ s ∈ steps, s.2.resolve? s.1 = .error e := by
  obtain ⟨before, s, after, rfl, _, he⟩ := exists_first_of_resolveSteps h
  exact ⟨s, List.mem_append_right _ List.mem_cons_self, he⟩

end Program

namespace Model

/-- What the definitions of a program resolve to. -/
theorem mem_resolved {p : Program} {r : Resolved} :
    r ∈ (p.steps.filterMap Program.outcome?).map Prod.snd ↔
      ∃ n d, (n, d) ∈ p.steps ∧ d.resolve? n = .ok (some r) := by
  rw [List.mem_map]
  constructor
  · rintro ⟨⟨n, r'⟩, hr, rfl⟩
    obtain ⟨⟨n', d⟩, hs, h⟩ := List.mem_filterMap.mp hr
    exact ⟨n', d, hs, (Program.outcome?_eq_some_iff.mp h).2⟩
  · rintro ⟨n, d, hs, hr⟩
    have hout : Program.outcome? (n, d) = some (n, r) :=
      Program.outcome?_eq_some_iff.mpr ⟨rfl, hr⟩
    exact ⟨(n, r), List.mem_filterMap.mpr ⟨(n, d), hs, hout⟩, rfl⟩

theorem resolve_eq_ok_iff {p : Program} {m : Model} :
    resolve p = .ok m ↔
      Program.checkNames [] p.namespaces = .ok () ∧ (∀ s ∈ p.steps, ∃ r, s.2.resolve? s.1 = .ok r) ∧
        m = ofResolved p (p.steps.filterMap Program.outcome?) := by
  unfold resolve
  constructor
  · intro h
    obtain ⟨_, hnames, h⟩ := bind_eq_ok_iff.mp h
    obtain ⟨rs, hrs, h⟩ := bind_eq_ok_iff.mp h
    obtain ⟨hall, rfl⟩ := Program.resolveSteps_eq_ok_iff.mp hrs
    cases h
    exact ⟨hnames, hall, rfl⟩
  · rintro ⟨hnames, hall, rfl⟩
    refine bind_eq_ok_iff.mpr ⟨(), hnames, ?_⟩
    exact bind_eq_ok_iff.mpr ⟨_, Program.resolveSteps_eq_ok_iff.mpr ⟨hall, rfl⟩, rfl⟩

/-- The objects of a model are what the object definitions of all documents resolve to. -/
theorem mem_allObjects {p : Program} {m : Model} (h : resolve p = .ok m) {o : Object} :
    o ∈ m.allObjects ↔
      ∃ n d, (n, d) ∈ p.steps ∧ d.keyword = .object ∧ Object.resolve n d = .ok o := by
  obtain ⟨_, _, rfl⟩ := resolve_eq_ok_iff.mp h
  refine List.mem_filterMap.trans ⟨?_, ?_⟩
  · rintro ⟨r, hr, ho⟩
    obtain ⟨n, d, hs, hd⟩ := mem_resolved.mp hr
    cases r with
    | object o' =>
        cases ho
        obtain ⟨hk, ho⟩ := Definition.resolve?_eq_object_iff.mp hd
        exact ⟨n, d, hs, hk, ho⟩
    | _ => cases ho
  · rintro ⟨n, d, hs, hk, ho⟩
    have hd := Definition.resolve?_eq_object_iff.mpr ⟨hk, ho⟩
    exact ⟨.object o, mem_resolved.mpr ⟨n, d, hs, hd⟩, rfl⟩

theorem exists_object_of_step {p : Program} {m : Model} (h : resolve p = .ok m) {n : Namespace}
    {d : Definition} (hs : (n, d) ∈ p.steps) (hk : d.keyword = .object) :
    ∃ o ∈ m.allObjects, Object.resolve n d = .ok o := by
  obtain ⟨r, hr⟩ := (resolve_eq_ok_iff.mp h).2.1 (n, d) hs
  simp only [Definition.resolve?, hk] at hr
  obtain ⟨o, ho, _⟩ := map_eq_ok_iff.mp hr
  exact ⟨o, (mem_allObjects h).mpr ⟨n, d, hs, hk, ho⟩, ho⟩

end Model

end RecordSchema
