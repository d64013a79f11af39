import RecordSchema.Descriptor.Record
import RecordSchema.Proofs.Descriptor.Order
import RecordSchema.Proofs.Model.Rearranged

/-!
# What a bundle describes

The descriptors of a bundle are about the root document: there is one of a kind and name exactly if
that document declares a definition of the kind and name.
-/

namespace RecordSchema

open Text

/-- The descriptors of a kind as they are shown, by name. -/
def Bundle.shown (b : Bundle) : Keyword → List (Text × Value)
  | .object => b.objects.map fun o => (o.name, o.value .null)
  | .enum => b.enums.map fun e => (e.name, e.value)
  | .bitmask => b.bitmasks.map fun e => (e.name, e.value)
  | .database => b.databases.map fun d => (d.name, d.value)
  | _ => []

namespace Bundle

variable {source : Source} {root : Text} {p : Program} {m : Model} {options : EmitOptions}
  {b : Bundle}

/-- The names that a bundle shows are those of the definitions of the root document. -/
theorem name_mem_shown_iff (hload : (Program.load source root).1 = .ok p)
    (hresolve : Model.resolve p = .ok m) (hemit : emit options m = .ok b) {k : Keyword}
    (hk : k ∈ Namespace.resolvedKinds) {name : Text} :
    name ∈ (b.shown k).map Prod.fst ↔ name ∈ p.root.own.names k := by
  have hfrom := Program.loadedFrom_of_load hload
  have hin := Program.loadedIn_of_load hload
  have hobjects : name ∈ b.objects.map ObjectDescriptor.name ↔
      name ∈ m.objects.map Object.name := by
    simp only [List.mem_map, mem_objects hfrom hresolve hemit]
    constructor
    · rintro ⟨_, ⟨o, ho, rfl⟩, rfl⟩
      exact ⟨o, ho, rfl⟩
    · rintro ⟨o, ho, rfl⟩
      exact ⟨_, ⟨o, ho, rfl⟩, rfl⟩
  obtain ⟨sorted, _, hb⟩ := bind_eq_ok_iff.mp hemit
  cases k with
  | imports => exact absurd hk (by decide)
  | constant => exact absurd hk (by decide)
  | attributeClass => exact absurd hk (by decide)
  | object =>
      rw [← Model.name_objects hin hresolve, ← hobjects, shown, List.map_map]
      rfl
  | enum =>
      rw [← Model.name_enums hin hresolve, shown, List.map_map]
      cases hb
      rw [List.map_map]
      rfl
  | bitmask =>
      rw [← Model.name_bitmasks hin hresolve, shown, List.map_map]
      cases hb
      rw [List.map_map]
      rfl
  | database =>
      rw [← Model.name_databases hin hresolve, shown, List.map_map]
      cases hb
      rw [List.map_map]
      rfl

/-- A bundle describes what its root document declares. -/
theorem exists_document_of_emit (hload : (Program.load source root).1 = .ok p)
    (hresolve : Model.resolve p = .ok m) (hemit : emit options m = .ok b) :
    ∃ d, source.documents root = .ok d ∧ ∀ k ∈ Namespace.resolvedKinds,
      ∀ name, name ∈ (b.shown k).map Prod.fst ↔ name ∈ d.names k := by
  have hin := Program.loadedIn_of_load hload
  obtain ⟨d, hd, hown⟩ := (hin.isOf p.root hin.root_mem).own_eq
  rw [hin.root_path] at hd
  refine ⟨d, hd, fun k hk name => ?_⟩
  rw [name_mem_shown_iff hload hresolve hemit hk, hown, Namespace.names_scopeOf]

end Bundle

end RecordSchema
