import RecordSchema.Descriptor.Bundle
import RecordSchema.Proofs.Dependency.Order
import RecordSchema.Proofs.Descriptor.Recursion
import RecordSchema.Proofs.Model.Reference

/-!
# Objects in dependency order

A model can be emitted exactly when its objects can be ordered, and the place of an object in the
order bounds the depth of the objects in it. The layouts of a model that is emitted are therefore
those of plain recursion.
-/

namespace RecordSchema

open Text

namespace Object

theorem order_eq_error_iff {os : List Object} {e : SchemaError} :
    order os = .error e ↔
      ∃ vs, Vertex.order (os.map vertex) = .error vs ∧ e = .cycle (vs.map Vertex.name) := by
  unfold order
  cases Vertex.order (os.map vertex) with
  | error vs => simp [eq_comm]
  | ok vs => simp

theorem distinct_map_vertex {os : List Object} (hkeys : (os.map key).Nodup) :
    Vertex.distinct (os.map vertex) = os.map vertex := by
  apply Vertex.distinct_eq_self
  rw [List.map_map]
  exact hkeys

/-- The ordered objects are those of the list, and their vertices are in dependency order. -/
theorem order_eq_ok {os sorted : List Object} (hkeys : (os.map key).Nodup)
    (h : order os = .ok sorted) :
    sorted.Perm os ∧ (sorted.map vertex).Pairwise fun v w => ¬ v.Needs w := by
  unfold order at h
  split at h
  · cases h
  · next vs hvs =>
      cases h
      rw [Vertex.order, distinct_map_vertex hkeys] at hvs
      obtain ⟨hperm, hpair⟩ := Vertex.rounds_eq_ok hvs
      have hfind : ∀ o ∈ os, (os.find? fun o' => o'.key == o.key) = some o :=
        fun o ho => find?_key_eq_some hkeys ho
      constructor
      · have hall : (os.map vertex).filterMap (fun v => os.find? fun o => o.key == v.key) = os := by
          rw [List.filterMap_map]
          exact (List.filterMap_congr hfind).trans List.filterMap_some
        have hperm' := hperm.filterMap fun v => os.find? fun o => o.key == v.key
        rw [hall] at hperm'
        exact hperm'
      · have hback : ∀ v ∈ vs, ((os.find? fun o' => o'.key == v.key).map vertex) = some v := by
          intro v hv
          obtain ⟨o, ho, rfl⟩ := List.mem_map.mp (hperm.mem_iff.mp hv)
          exact congrArg (Option.map vertex) (hfind o ho)
        rw [List.map_filterMap, List.filterMap_congr hback, List.filterMap_some]
        exact hpair

/-- Objects among others that can be ordered can be ordered on their own. -/
theorem exists_order_of_subset {os os' sorted : List Object} (hkeys : (os.map key).Nodup)
    (hkeys' : (os'.map key).Nodup) (hsub : os' ⊆ os) (h : order os = .ok sorted) :
    ∃ sorted', order os' = .ok sorted' := by
  cases h' : order os' with
  | ok sorted' => exact ⟨sorted', rfl⟩
  | error e =>
      obtain ⟨rest, hrest, _⟩ := order_eq_error_iff.mp h'
      obtain ⟨v, hcycle⟩ := (Vertex.order_eq_error_iff _).mp ⟨rest, hrest⟩
      rw [distinct_map_vertex hkeys'] at hcycle
      have hcycle' : Relation.TransGen
          (fun v w => v ∈ os.map vertex ∧ w ∈ os.map vertex ∧ v.Needs w) v v := by
        refine Relation.TransGen.mono ?_ v v hcycle
        intro a b hab
        exact ⟨List.map_subset vertex hsub hab.1, List.map_subset vertex hsub hab.2.1, hab.2.2⟩
      rw [← distinct_map_vertex hkeys] at hcycle'
      obtain ⟨vs, hvs⟩ := (Vertex.order_eq_error_iff _).mpr ⟨v, hcycle'⟩
      rw [order, hvs] at h
      cases h

end Object

namespace Model

variable {source : Source} {p : Program} {m : Model}

/-- The place of an object in the dependency order is a rank. -/
theorem exists_rank (hloaded : Loaded source p.namespaces) (h : resolve p = .ok m)
    {sorted : List Object} (hsorted : Object.order m.allObjects = .ok sorted) :
    ∃ rank, Layout.Ranked m rank ∧ ∀ o ∈ m.allObjects, rank o < m.allObjects.length := by
  obtain ⟨hperm, hpair⟩ := Object.order_eq_ok (nodup_key_allObjects hloaded h) hsorted
  have hmem : ∀ o ∈ m.allObjects, o.vertex ∈ sorted.map Object.vertex :=
    fun o ho => List.mem_map_of_mem (hperm.mem_iff.mpr ho)
  refine ⟨fun o => (sorted.map Object.vertex).idxOf o.vertex, ?_, ?_⟩
  · intro o ho f hf _ sub hsub
    obtain ⟨hin, hkey⟩ := Layout.mem_of_object?_eq_some hsub
    obtain ⟨n, d, _, _, ho'⟩ := (mem_allObjects h).mp ho
    have hdep : sub.key ∈ o.dependencies := by
      have hne : f.typeKey ≠ [] := hkey ▸ sub.key_ne_nil
      rw [hkey]
      exact Object.typeKey_mem_dependencies ho' hf hne
    refine Vertex.idxOf_lt_of_needs hpair (hmem o ho) (hmem sub hin) ⟨?_, hdep⟩
    intro (heq : sub.key = o.key)
    rw [heq, Object.key_of_resolve ho'] at hdep
    exact Object.key_notMem_dependencies ho' hdep
  · intro o ho
    have hlt := List.idxOf_lt_length_of_mem (hmem o ho)
    rwa [List.length_map, hperm.length_eq] at hlt

/-- The layouts of the ordered objects are those of plain recursion. -/
theorem ofObjects_eq_plain (hloaded : Loaded source p.namespaces) (h : resolve p = .ok m)
    {sorted : List Object} (hsorted : Object.order m.allObjects = .ok sorted) (size : Int) :
    Layout.ofObjects m size sorted = sorted.map fun o =>
      (o, Layout.plain m (Layout.effectivePointerSize size) m.allObjects.length o) := by
  have hkeys := nodup_key_allObjects hloaded h
  obtain ⟨hperm, _⟩ := Object.order_eq_ok hkeys hsorted
  obtain ⟨rank, hrank, hbound⟩ := exists_rank hloaded h hsorted
  exact Layout.ofObjects_eq hrank hkeys hbound size fun o ho => hperm.mem_iff.mp ho

end Model

/-- Every descriptor of a list of fields describes one of them. -/
theorem FieldDescriptor.exists_ofField_of_mem {m : Model} {naming : Naming} {l : Layout}
    {fs : List Field} {index : Nat} {previous : Option Field} {d : FieldDescriptor}
    (h : d ∈ ofFields m naming l index previous fs) :
    ∃ f ∈ fs, ∃ index previous, d = ofField m naming l index previous f := by
  induction fs generalizing index previous with
  | nil => cases h
  | cons f rest ih =>
      rcases List.mem_cons.mp h with rfl | h
      · exact ⟨f, List.mem_cons_self, index, previous, rfl⟩
      · obtain ⟨g, hg, hd⟩ := ih h
        exact ⟨g, List.mem_cons_of_mem f hg, hd⟩

namespace Bundle

theorem emit_eq_error_iff {options : EmitOptions} {m : Model} {e : SchemaError} :
    emit options m = .error e ↔ Object.order m.allObjects = .error e := by
  unfold emit
  rw [bind_eq_error_iff]
  constructor
  · rintro (h | ⟨_, _, h⟩)
    · exact h
    · cases h
  · exact Or.inl

/-- The objects of a bundle are described from the layouts of the ordered objects. -/
theorem objects_of_emit {options : EmitOptions} {m : Model} {b : Bundle}
    (h : emit options m = .ok b) :
    ∃ sorted, Object.order m.allObjects = .ok sorted ∧
      b.objects = ((Layout.ofObjects m options.pointerSize sorted).filter fun x =>
        m.objects.any fun o => o.key == x.1.key).map fun x =>
          ObjectDescriptor.ofObject m options.naming x.1 x.2 := by
  obtain ⟨sorted, hsorted, h⟩ := bind_eq_ok_iff.mp h
  cases h
  exact ⟨sorted, hsorted, rfl⟩

/-- The layout of an object that is emitted. -/
def layoutOf (options : EmitOptions) (m : Model) (o : Object) : Layout :=
  Layout.plain m (Layout.effectivePointerSize options.pointerSize) m.allObjects.length o

section Emitted

variable {source : Source} {root : Text} {p : Program} {m : Model} {options : EmitOptions}
variable {b : Bundle}
variable (hfrom : Program.LoadedFrom source root p) (h : Model.resolve p = .ok m)
variable (hemit : emit options m = .ok b)

include hfrom h hemit

/-- The objects of the root document are described with their plain layouts. -/
theorem mem_objects {d : ObjectDescriptor} :
    d ∈ b.objects ↔
      ∃ o ∈ m.objects, d = ObjectDescriptor.ofObject m options.naming o (layoutOf options m o) := by
  have hkeys := Model.nodup_key_allObjects hfrom.loaded h
  have hown := Model.objects_subset hfrom h
  obtain ⟨sorted, hsorted, hobjects⟩ := objects_of_emit hemit
  obtain ⟨hperm, _⟩ := Object.order_eq_ok hkeys hsorted
  rw [hobjects, Model.ofObjects_eq_plain hfrom.loaded h hsorted, List.mem_map]
  constructor
  · rintro ⟨x, hx, rfl⟩
    obtain ⟨hx, hany⟩ := List.mem_filter.mp hx
    obtain ⟨o, ho, rfl⟩ := List.mem_map.mp hx
    obtain ⟨o', ho', hkey⟩ := List.any_eq_true.mp hany
    have heq := List.inj_on_of_nodup_map hkeys (hown ho') (hperm.mem_iff.mp ho) (beq_iff_eq.mp hkey)
    exact ⟨o, heq ▸ ho', rfl⟩
  · rintro ⟨o, ho, rfl⟩
    refine ⟨(o, layoutOf options m o), List.mem_filter.mpr ⟨?_, ?_⟩, rfl⟩
    · exact List.mem_map.mpr ⟨o, hperm.mem_iff.mpr (hown ho), rfl⟩
    · exact List.any_eq_true.mpr ⟨o, ho, beq_self_eq_true _⟩

/-- The description of an object of the root document is found by its name. -/
theorem object?_of_mem {o : Object} (ho : o ∈ m.objects) :
    b.object? o.name =
      some (ObjectDescriptor.ofObject m options.naming o (layoutOf options m o)) := by
  have horigin : ∀ o ∈ m.objects, o.origin = p.root.name := by
    intro o ho
    obtain ⟨d, hd, _, ho⟩ := (Model.mem_objects hfrom h).mp ho
    obtain ⟨_, _, fields, _, _, _, rfl⟩ := Object.resolve_eq_ok_iff.mp ho
    exact (hfrom.loaded.declares hfrom.root_mem).origin_eq d hd
  have hmem := (mem_objects hfrom h hemit).mpr ⟨o, ho, rfl⟩
  cases hfind : b.object? o.name with
  | none => exact absurd (List.find?_eq_none.mp hfind _ hmem) (by simp [ObjectDescriptor.ofObject])
  | some d =>
      obtain ⟨o', ho', rfl⟩ := (mem_objects hfrom h hemit).mp (List.mem_of_find?_eq_some hfind)
      have hfound := List.find?_some hfind
      have hname : o'.name = o.name := beq_iff_eq.mp hfound
      have hkey : o'.key = o.key := by
        rw [Object.key, Object.key, hname, horigin o ho, horigin o' ho']
      have heq := List.inj_on_of_nodup_map (Model.nodup_key_allObjects hfrom.loaded h)
        (Model.objects_subset hfrom h ho') (Model.objects_subset hfrom h ho) hkey
      rw [heq]

end Emitted

end Bundle

end RecordSchema
