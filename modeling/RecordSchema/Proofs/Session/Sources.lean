import RecordSchema.Proofs.Descriptor.Order
import RecordSchema.Proofs.Model.Location
import RecordSchema.Proofs.Program.Tried
import RecordSchema.Proofs.Session.Failure

/-!
# The sources of sessions that fail

A session shows the documents that it has loaded, or those that it has tried if they cannot be
loaded. If it fails, the documents that have to be mended are among them, whatever stage it got to.
-/

namespace RecordSchema

open Text

/-- The documents that an error of a session is about. -/
def SessionError.documents : SessionError → List Text
  | load cause => cause.documents
  | schema cause => cause.documents
  | format _ => []
  | unshown _ _ => []
  | store _ _ => []

/-- However an error is told, it is about the same documents. -/
theorem SessionError.Retold.documents_eq {e e' : SessionError} (h : e.Retold e') :
    e'.documents = e.documents := by
  cases h with
  | same _ => rfl
  | attributes _ => rfl

theorem Bundle.documents_of_emit_eq_error {options : EmitOptions} {m : Model} {e : SchemaError}
    (h : emit options m = .error e) : e.documents = [] := by
  obtain ⟨vs, _, rfl⟩ := Object.order_eq_error_iff.mp (emit_eq_error_iff.mp h)
  rfl

namespace Built

variable {source : Source} {options : CompileOptions} {root : Text} {e : SessionError}

theorem documents_of_ofModel_eq_error {f : Format} {m : Model}
    (h : ofModel options f m = .error e) :
    e.documents = [] := by
  unfold ofModel at h
  split at h
  · next cause hemit =>
      cases h
      exact Bundle.documents_of_emit_eq_error hemit
  · split at h
    · cases h
      rfl
    · cases h

theorem documents_subset_of_ofProgram {f : Format} {p : Program}
    (hloaded : Loaded source p.namespaces) (h : (ofProgram options f p).1 = .error e) :
    e.documents ⊆ p.namespaces.map Namespace.path := by
  unfold ofProgram at h
  split at h
  · next cause hresolve =>
      cases h
      exact (Program.blames_resolve hloaded cause hresolve).of_mem_documents
  · rw [documents_of_ofModel_eq_error h]
    exact List.nil_subset _

/-- The documents that a failed build is about are among its sources. -/
theorem documents_subset_of_ofRoot (hsource : source.IsSized)
    (h : (ofRoot source options root).1 = .error e) :
    e.documents ⊆ (ofRoot source options root).2.sources := by
  unfold ofRoot at h ⊢
  split at h
  · cases h
    exact List.nil_subset _
  · rcases hload : Program.load source root with ⟨cause | p, s⟩
    · simp only [hload] at h ⊢
      cases h
      exact Program.documents_subset_tried hsource hload
    · simp only [hload] at h ⊢
      have hload' : (Program.load source root).1 = .ok p := by rw [hload]
      exact documents_subset_of_ofProgram (Program.loadedFrom_of_load hload').loaded h

end Built

section Sessions

variable {σ : Type}

theorem Storage.isSized_hindered {storage : Storage σ} {state : σ}
    (hsource : (storage.source state).IsSized) (h : Hindrance) :
    ((storage.hindered h).source state).IsSized := by
  intro paths hnodup hread
  refine hsource paths hnodup fun path hpath => ?_
  obtain ⟨hclean, text, htext⟩ := hread path hpath
  refine ⟨hclean, text, ?_⟩
  simp only [hindered] at htext
  split at htext
  · cases htext
  · exact htext

namespace Service

variable {env : Surroundings σ} {write canceled : Bool} {root : Text} {s : Service σ}

/-- A session fails as its build does, or else at storing, which no document is to blame for. -/
theorem documents_of_conclude_eq_error {e : SessionError}
    (h : (conclude env write canceled root s).1 = .error e) :
    (∃ cause, (build env canceled root s).1 = .error cause ∧ cause.Retold e) ∨
      e.documents = [] := by
  unfold conclude built at h
  cases hbuild : (build env canceled root s).1 with
  | error cause =>
      rw [hbuild] at h
      cases h
      exact Or.inl ⟨cause, rfl, Arrangement.retold _ cause⟩
  | ok raw =>
      refine Or.inr ?_
      rw [hbuild] at h
      simp only [Arrangement.apply] at h
      generalize (env.arrange (s.started + 1)).present raw = b at h
      cases write with
      | false => cases h
      | true =>
          generalize stateAfter env canceled _ s.state = state at h
          have hstored : (store env.storage s.options b state).1 = .error e := map_eq_error_iff.mp h
          have hstores := stores_store env.storage s.options b state
          generalize store env.storage s.options b state = stored at hstored hstores
          cases hstores with
          | notMade hensure =>
              cases hstored
              rfl
          | unwritten hensure hwrite =>
              cases hstored
              rfl
          | done hensure hwrite => cases hstored

theorem documents_subset_of_isSized (hsource : (env.storage.source s.state).IsSized)
    {e : SessionError} (h : (run env write canceled root s).1.failure = some e) :
    e.documents ⊆ (run env write canceled root s).1.sources := by
  have hconducts := conducts_run env write canceled root s
  obtain ⟨e', hend, hfailure, _⟩ :=
    hconducts.ends.exists_error (by rw [h]; exact Option.some_ne_none e)
  cases h.symm.trans hfailure
  rw [hconducts.sources_eq]
  rcases documents_of_conclude_eq_error hend with ⟨cause, hbuild, hretold⟩ | hnone
  · rw [hretold.documents_eq]
    exact Built.documents_subset_of_ofRoot (hsource.interrupted canceled) hbuild
  · rw [hnone]
    exact List.nil_subset _

end Service

end Sessions

/-- In memory and on a disk a session that fails has the documents that its error is about among its
sources, wherever it is hindered or canceled, whether it writes or only checks, and in whatever
order it gets the entries of maps. -/
theorem Service.documents_subset_sources (h : Hindrance) (identify : Nat → Text)
    (arrange : Nat → Arrangement) (write canceled : Bool) (root : Text) :
    (∀ (s : Service Memory) e,
      (run ⟨Storage.memory.hindered h, identify, arrange⟩ write canceled root s).1.failure =
        some e →
        e.documents ⊆
          (run ⟨Storage.memory.hindered h, identify, arrange⟩ write canceled root s).1.sources) ∧
      ∀ (s : Service Disk) e,
        (run ⟨Storage.disk.hindered h, identify, arrange⟩ write canceled root s).1.failure =
          some e →
          e.documents ⊆
            (run ⟨Storage.disk.hindered h, identify, arrange⟩ write canceled root s).1.sources := by
  constructor
  · intro s e he
    exact documents_subset_of_isSized (Storage.isSized_hindered (Library.isSized_source _) h) he
  · intro s e he
    exact documents_subset_of_isSized (Storage.isSized_hindered (Disk.isSized_source _) h) he

/-- A document uses a class that is declared two imports away with a tag that is no number. -/
def brokenClass : Library :=
  .ofList [("a.yaml", "Import: lib/b.yaml\nObject O:\n f: u8\n"),
    ("lib/b.yaml", "Import: c.yaml\n"), ("lib/c.yaml", "Class default:\n tag: x\n")]

/-- A document imports another one that imports a cycle. -/
def brokenImports : Library :=
  .ofList [("a.yaml", "Import: b.yaml\n"), ("b.yaml", "Import: c.yaml\n"),
    ("c.yaml", "Import: b.yaml\n")]

/-- A session that writes, for a document in memory. -/
def sessionOf (l : Library) : Session :=
  (Service.run ⟨Storage.memory.hindered {}, fun _ => "s", fun _ => .asRead⟩ true false "a.yaml"
    { state := { library := l }, options := { directory := "out", format := "json" },
      clock := ⟨0, 1⟩ }).1

theorem Service.documents_subset_sources_broken :
    (∃ e, (sessionOf brokenClass).failure = some e ∧ e.documents = (["lib/c.yaml"] : List Text) ∧
      e.documents ⊆ (sessionOf brokenClass).sources) ∧
    ∃ e, (sessionOf brokenImports).failure = some e ∧
      e.documents = (["a.yaml", "b.yaml", "c.yaml", "b.yaml", "c.yaml", "b.yaml"] : List Text) ∧
      e.documents ⊆ (sessionOf brokenImports).sources := by
  have hclass : (sessionOf brokenClass).failure.map SessionError.documents =
      some (["lib/c.yaml"] : List Text) := by decide +kernel
  have himports : (sessionOf brokenImports).failure.map SessionError.documents =
      some (["a.yaml", "b.yaml", "c.yaml", "b.yaml", "c.yaml", "b.yaml"] : List Text) := by
    decide +kernel
  obtain ⟨e, he, hdocuments⟩ := Option.map_eq_some_iff.mp hclass
  obtain ⟨e', he', hdocuments'⟩ := Option.map_eq_some_iff.mp himports
  have hsubset (l : Library) :
      ∀ e, (sessionOf l).failure = some e → e.documents ⊆ (sessionOf l).sources :=
    (documents_subset_sources {} (fun _ => "s") (fun _ => .asRead) true false "a.yaml").1 _
  exact ⟨⟨e, he, hdocuments, hsubset _ e he⟩, e', he', hdocuments', hsubset _ e' he'⟩

end RecordSchema
