import RecordSchema.Proofs.Program.ImportCycle

/-!
# What loading depends on

Loading reads the documents that can be reached from the root. Two sources that agree on these are
loaded alike, with the same namespaces in the same order, whatever else they hold and however much
that is.
-/

namespace RecordSchema

open Text Namespace Relation

namespace Load

variable {source source' : Source} {opened : List Text} {path : Text}

theorem visit_of_read_eq (load : List Text → Text → Load Namespace)
    (h : source'.read path = source.read path) :
    visit source' load opened path = visit source load opened path := by
  unfold visit
  rw [h]

theorem document_of_read_eq {depth : Nat}
    (h : ∀ x, ReflTransGen source.Imports path x → source'.read x = source.read x) :
    document source' depth opened path = document source depth opened path := by
  induction depth generalizing opened path with
  | zero => rfl
  | succ depth ih =>
      calc visit source' (document source' depth) opened path
          = visit source (document source' depth) opened path :=
            visit_of_read_eq _ (h path .refl)
        _ = visit source (document source depth) opened path :=
            visit_congr fun _ x hi => ih fun y hy => h y (.head hi hy)

/-- Deep enough, loading does not depend on the depth. -/
theorem document_eq_of_le (hsource : source.IsSized) {depth depth' : Nat}
    (hd : source.size + 2 ≤ depth) (hd' : source.size + 2 ≤ depth') :
    document source depth [] path = document source depth' [] path := by
  rw [document_eq_iterate, document_eq_iterate]
  exact iterate_visit_eq hsource (.nil source path) hd hd' _ _

end Load

namespace Program

variable {source source' : Source} {root : Text} {p : Program}

theorem load_of_read_eq (hsource : source.IsSized) (hsource' : source'.IsSized)
    (h : ∀ x, ReflTransGen source.Imports root x → source'.read x = source.read x) :
    load source' root = load source root := by
  have hdocument : Load.document source' (source'.size + 3) [] root =
      Load.document source (source.size + 3) [] root := by
    -- The depth may be changed in the source that holds less.
    rcases Nat.le_total source.size source'.size with hle | hle
    · calc Load.document source' (source'.size + 3) [] root
          = Load.document source (source'.size + 3) [] root := Load.document_of_read_eq h
        _ = Load.document source (source.size + 3) [] root :=
          Load.document_eq_of_le hsource (by omega) (by omega)
    · calc Load.document source' (source'.size + 3) [] root
          = Load.document source' (source.size + 3) [] root :=
            Load.document_eq_of_le hsource' (by omega) (by omega)
        _ = Load.document source (source.size + 3) [] root := Load.document_of_read_eq h
  unfold load
  rw [hdocument]

/-- A program that has been loaded is loaded again as long as its own documents are the same. -/
theorem load_of_read_eq_of_mem (hsource : source.IsSized) (hsource' : source'.IsSized)
    (hload : (load source root).1 = .ok p)
    (h : ∀ n ∈ p.namespaces, source'.read n.path = source.read n.path) :
    load source' root = load source root := by
  have hfrom := loadedFrom_of_load hload
  have hroot : root ∈ p.namespaces.map Namespace.path :=
    List.mem_map.mpr ⟨p.root, hfrom.root_mem, hfrom.root_path⟩
  apply load_of_read_eq hsource hsource'
  intro x hx
  obtain ⟨n, hn, rfl⟩ := List.mem_map.mp (hfrom.loaded.mem_of_reachable hroot hx)
  exact h n hn

/-- Nothing is loaded after the work has been canceled. -/
theorem load_interrupted_ne_ok (source : Source) (root : Text) :
    (load (source.interrupted true) root).1 ≠ .ok p := by
  intro h
  have hfrom := loadedFrom_of_load h
  obtain ⟨text, _, hread, _⟩ := Source.namespaceAt?_eq_some_iff.mp
    (hfrom.loaded.namespaceAt?_eq_some hfrom.root_mem)
  cases hread

end Program

end RecordSchema
