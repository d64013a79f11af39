import RecordSchema.Proofs.Program.Reading
import RecordSchema.Proofs.Session.Run

/-!
# What is built

A bundle is built when its format is known, its documents can be loaded and resolved, and the bundle
can be emitted and shown. It depends on the options and on the documents of the program alone.
-/

namespace RecordSchema

open Text

namespace Built

/-- The stages that lead from a root document to what is built: the program that is loaded and the
model it resolves to. -/
structure Stages (source : Source) (options : CompileOptions) (root : Text) (b : Built)
    (p : Program) (m : Model) : Prop where
  format_eq : Registry.standard.lookup options.format = .ok b.format
  load_eq : (Program.load source root).1 = .ok p
  resolve_eq : Model.resolve p = .ok m
  emit_eq : Bundle.emit options.emit m = .ok b.bundle
  output_eq : b.format.bundle {} b.bundle = .ok b.output

variable {source source' : Source} {options : CompileOptions} {root : Text} {b : Built}

theorem ofModel_eq_ok {f : Format} {m : Model} (h : ofModel options f m = .ok b) :
    b.format = f ∧ Bundle.emit options.emit m = .ok b.bundle ∧
      f.bundle {} b.bundle = .ok b.output := by
  unfold ofModel at h
  split at h
  · cases h
  · next bundle hemit =>
      split at h
      · cases h
      · next output houtput =>
          cases h
          exact ⟨rfl, hemit, houtput⟩

theorem ofProgram_eq_ok {f : Format} {p : Program} (h : (ofProgram options f p).1 = .ok b) :
    ∃ m, Model.resolve p = .ok m ∧ ofModel options f m = .ok b := by
  unfold ofProgram at h
  split at h
  · cases h
  · next m hm => exact ⟨m, hm, h⟩

/-- What is built has gone through all stages, and its documents are the sources. -/
theorem stages_of_ofRoot (h : (ofRoot source options root).1 = .ok b) :
    ∃ p m, Stages source options root b p m ∧
      (ofRoot source options root).2.sources = p.namespaces.map Namespace.path := by
  unfold ofRoot at h ⊢
  split at h
  · cases h
  · next f hformat =>
      rcases hload : Program.load source root with ⟨e | p, s⟩
      · simp only [hload] at h
        cases h
      · simp only [hload] at h ⊢
        obtain ⟨m, hresolve, hmodel⟩ := ofProgram_eq_ok h
        obtain ⟨rfl, hemit, houtput⟩ := ofModel_eq_ok hmodel
        exact ⟨p, m, ⟨hformat, by rw [hload], hresolve, hemit, houtput⟩, rfl⟩

theorem ofRoot_of_load_eq (h : Program.load source' root = Program.load source root) :
    ofRoot source' options root = ofRoot source options root := by
  unfold ofRoot
  rw [h]

/-- What has been built is built again as long as its documents are the same. -/
theorem ofRoot_of_read_eq (hsource : source.IsSized) (hsource' : source'.IsSized)
    (hbuilt : (ofRoot source options root).1 = .ok b)
    (h : ∀ path ∈ (ofRoot source options root).2.sources, source'.read path = source.read path) :
    ofRoot source' options root = ofRoot source options root := by
  obtain ⟨p, m, hstages, hsources⟩ := stages_of_ofRoot hbuilt
  apply ofRoot_of_load_eq
  apply Program.load_of_read_eq_of_mem hsource hsource' hstages.load_eq
  intro n hn
  exact h n.path (hsources ▸ List.mem_map_of_mem hn)

theorem ofRoot_interrupted_ne_ok (source : Source) (options : CompileOptions) (root : Text) :
    (ofRoot (source.interrupted true) options root).1 ≠ .ok b := by
  intro h
  obtain ⟨p, m, hstages, _⟩ := stages_of_ofRoot h
  exact Program.load_interrupted_ne_ok source root hstages.load_eq

end Built

/-- What a session has built is what is built anyway, in its arrangement. -/
theorem Service.exists_of_built_eq_ok {σ : Type} {env : Surroundings σ} {canceled : Bool}
    {root : Text} {s : Service σ} {b : Built} (h : built env canceled root s = .ok b) :
    ∃ raw, (build env canceled root s).1 = .ok raw ∧
      b = (env.arrange (s.started + 1)).present raw := by
  unfold built at h
  cases hbuild : (build env canceled root s).1 with
  | error e =>
      rw [hbuild] at h
      cases h
  | ok raw =>
      rw [hbuild] at h
      exact ⟨raw, rfl, (Except.ok.inj h).symm⟩

/-- A session that delivers was not canceled, and it has built what it delivers. -/
theorem Service.build_of_conclude {σ : Type} {env : Surroundings σ} {write canceled : Bool}
    {root : Text}
    {s : Service σ} {d : Delivery} (h : (conclude env write canceled root s).1 = .ok d) :
    canceled = false ∧ built env false root s = .ok d.built := by
  cases hbuild : (build env canceled root s).1 with
  | error e =>
      rw [conclude, built, hbuild] at h
      cases h
  | ok b =>
      cases canceled with
      | true => exact absurd hbuild (Built.ofRoot_interrupted_ne_ok _ _ _)
      | false =>
          refine ⟨rfl, ?_⟩
          rw [conclude, built, hbuild] at h
          rw [built, hbuild]
          cases write with
          | false =>
              cases h
              rfl
          | true =>
              obtain ⟨stored, _, rfl⟩ := map_eq_ok_iff.mp h
              rfl

end RecordSchema
