import RecordSchema.Proofs.Program.Load
import RecordSchema.Proofs.Store.Source

/-!
# Documents of a program as roots

A program has no more documents than its source holds besides the root. The loader therefore gets to
the end of the imports of each of them, and loads it as a root into a part of the program.
-/

namespace RecordSchema

open Text Namespace

namespace Program

variable {source : Source} {root : Text} {p q : Program} {n : Namespace}

theorem length_namespaces_le (hsource : source.IsSized) (h : LoadedFrom source root p) :
    p.namespaces.length ≤ source.size + 1 := by
  have hnodup := h.loaded.nodup_path
  have hothers : ∀ path ∈ (p.namespaces.map Namespace.path).erase root,
      Path.clean path = path ∧ ∃ text, source.read path = .ok text := by
    intro path hpath
    obtain ⟨hne, hmem⟩ := hnodup.mem_erase_iff.mp hpath
    obtain ⟨n, hn, rfl⟩ := List.mem_map.mp hmem
    constructor
    · rcases h.path n hn with hroot | ⟨document, reference, hresolve⟩
      · exact absurd hroot hne
      · rw [hresolve, Source.clean_resolve]
    · obtain ⟨text, _, hread, _⟩ :=
        Source.namespaceAt?_eq_some_iff.mp (h.loaded.namespaceAt?_eq_some hn)
      exact ⟨text, hread⟩
  have hsize := hsource _ (hnodup.erase root) hothers
  have herase := Nat.le_trans List.le_length_erase hsize
  rw [List.length_map] at herase
  omega

/-- Whether the documents of a program are documents of another. -/
def IsPartOf (q p : Program) : Prop := ∀ n ∈ q.namespaces, n ∈ p.namespaces

/-- Each document of a program loads as a root into a part of the program. -/
theorem exists_part (hsource : source.IsSized) (h : LoadedFrom source root p)
    (hn : n ∈ p.namespaces) :
    ∃ q, LoadedFrom source n.path q ∧ (load source n.path).1 = .ok q ∧ q.root = n ∧
      q.IsPartOf p := by
  have hlength := length_namespaces_le hsource h
  obtain ⟨q, hload, hroot, hpart⟩ := exists_load_of_mem h.loaded hn (by omega)
  exact ⟨q, loadedFrom_of_load hload, hload, hroot, hpart⟩

end Program

end RecordSchema
