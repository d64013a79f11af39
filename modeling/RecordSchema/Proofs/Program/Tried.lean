import RecordSchema.Proofs.Program.ImportCycle
import RecordSchema.Proofs.Schema.Location

/-!
# What a failed run has tried

A document is tried before anything can be wrong with it, and what has been tried stays so when the
run fails. So the documents that an error of the loader is about have all been tried: the one that
fails, those on the way to it, and those of an import cycle.
-/

namespace RecordSchema

open Text Namespace

/-- The documents that an error is about: those of its cause, and those on the way to it. -/
def LoadError.documents : LoadError → List Text
  | schema cause => cause.documents
  | unread path _ => [path]
  | imported document _ cause => document :: cause.documents

namespace Load

section Keeping

variable {α β : Type}

/-- Whether a run keeps what has been tried, also when it fails. -/
def Keeps (x : Load α) : Prop := ∀ s, s.tried ⊆ (x.run s).2.tried

theorem Keeps.bind {x : Load α} {f : α → Load β} (hx : Keeps x) (hf : ∀ a, Keeps (f a)) :
    Keeps (x >>= f) := by
  intro s
  have hfirst := hx s
  rw [run_bind]
  rcases hrun : x.run s with ⟨e | a, s₁⟩
  · rwa [hrun] at hfirst
  · rw [hrun] at hfirst
    exact List.Subset.trans hfirst (hf a s₁)

theorem keeps_refuse (e : SchemaError) : Keeps (refuse e : Load α) := fun _ => List.Subset.refl _

variable {load : Text → Load Namespace}

theorem keeps_importAll (hload : ∀ path, Keeps (load path)) (refs : List Text) (n : Namespace) :
    Keeps (importAll load refs n) := by
  induction refs generalizing n with
  | nil => exact fun _ => List.Subset.refl _
  | cons ref rest ih =>
      by_cases hc : n.imports.contains ref = true
      · rw [importAll, if_pos hc]
        exact ih n
      · intro s
        have hfirst := hload (Source.resolve n.path ref) s
        rw [run_importAll_cons hc]
        rcases hrun : (load (Source.resolve n.path ref)).run s with ⟨e | m, s₁⟩
        · rwa [hrun] at hfirst
        · rw [hrun] at hfirst
          exact List.Subset.trans hfirst (ih (n.importing ref m) s₁)

theorem keeps_entries (hload : ∀ path, Keeps (load path)) (es : List Entry) (n : Namespace) :
    Keeps (entries load es n) := by
  induction es generalizing n with
  | nil => exact fun _ => List.Subset.refl _
  | cons x rest ih =>
      rw [entries_cons]
      split
      · split
        · exact keeps_refuse _
        · exact (keeps_importAll hload _ n).bind ih
      · split
        · exact ih (n.defining x)
        · exact keeps_refuse _

theorem keeps_visit {source : Source} {load : List Text → Text → Load Namespace}
    (hload : ∀ opened path, Keeps (load opened path)) (opened : List Text) (path : Text) :
    Keeps (visit source load opened path) := by
  intro s
  rw [visit, run_get_bind]
  split
  · exact List.Subset.refl _
  · split
    · exact List.Subset.refl _
    · rw [run_modify_bind]
      refine List.Subset.trans (List.subset_append_left s.tried [path]) ?_
      split
      · exact List.Subset.refl _
      · split
        · exact List.Subset.refl _
        · next d _ =>
            refine Keeps.bind (keeps_entries (hload _) d.entries _) (fun n => ?_)
              { s with tried := s.tried ++ [path] }
            have hshadows : Keeps ((shadows n).forM report) := by
              intro t
              rw [run_forM_report]
              exact List.Subset.refl _
            exact hshadows.bind fun _ _ => List.Subset.refl _

theorem keeps_document (source : Source) (depth : Nat) (opened : List Text) (path : Text) :
    Keeps (document source depth opened path) := by
  induction depth generalizing opened path with
  | zero => exact keeps_refuse _
  | succ depth ih => exact keeps_visit ih opened path

end Keeping

section Failing

variable {source : Source} {opened : List Text} {path : Text} {s s' : Loading} {e : LoadError}

theorem Refused.isAt {x : Entry} {cause : SchemaError} (h : Refused path x cause) :
    cause.IsAt fun l => l.document = path := by
  cases h with
  | imports hk h => exact x.blames_imports cause h
  | shape hk h => rfl

/-- A run that fails has tried the documents that its error is about, unless they were open
before. -/
theorem mem_tried_of_document_eq_error (hsource : source.IsSized) {depth : Nat}
    (hopen : IsOpen source opened path) (hdepth : source.size + 2 ≤ depth + opened.length)
    (h : (document source depth opened path).run s = (.error e, s')) :
    ∀ x ∈ e.documents, x ∈ opened ∨ x ∈ s'.tried := by
  induction depth generalizing opened path s e with
  | zero =>
      have hlength := hopen.length_le hsource
      omega
  | succ depth ih =>
      have htrying : path ∈ s.tried ++ [path] := List.mem_append_right _ List.mem_cons_self
      rcases visit_eq_error h with ⟨hmem, rfl⟩ | ⟨hno, hunread | hunparsed | hentries⟩
      · exact fun x hx => Or.inl ((hopen.isCycle_chain hmem).2 x hx)
      · obtain ⟨cause, _, rfl, rfl⟩ := hunread
        intro x hx
        cases List.mem_singleton.mp hx
        exact Or.inr htrying
      · obtain ⟨text, cause, _, hparse, rfl, rfl⟩ := hunparsed
        intro x hx
        cases (Document.blames_parse cause hparse).of_mem_documents (D := (· = path)) x hx
        exact Or.inr htrying
      · obtain ⟨d, hd, hentries⟩ := hentries
        have htried : path ∈ s'.tried := by
          have hkeeps := keeps_entries (keeps_document source depth (opened ++ [path])) d.entries
            { path, name := Source.schemaName path } { s with tried := s.tried ++ [path] }
          rw [hentries] at hkeeps
          exact hkeeps htrying
        rcases entries_eq_error hentries with
          ⟨x, _, cause, hrefused, rfl⟩ | ⟨x, hx, ref, href, cause, ⟨t, hfails⟩, rfl⟩
        · intro y hy
          cases hrefused.isAt.of_mem_documents (D := (· = path)) y hy
          exact Or.inr htried
        · intro y hy
          rcases List.mem_cons.mp hy with rfl | hy
          · exact Or.inr htried
          · have hnext := hopen.snoc hno (Source.imports_of_mem hd hx href)
            have hdeeper : source.size + 2 ≤ depth + (opened ++ [path]).length := by
              rw [List.length_append, List.length_singleton]
              omega
            rcases ih hnext hdeeper hfails y hy with hy | hy
            · rcases List.mem_append.mp hy with hy | hy
              · exact Or.inl hy
              · cases List.mem_singleton.mp hy
                exact Or.inr htried
            · exact Or.inr hy

end Failing

end Load

/-- The documents that an error of the loader is about have been tried. -/
theorem Program.documents_subset_tried {source : Source} (hsource : source.IsSized) {root : Text}
    {e : LoadError} {s : Loading} (h : load source root = (.error e, s)) :
    e.documents ⊆ s.tried := by
  have hrun : (Load.document source (source.size + 3) [] root).run {} = (.error e, s) := by
    unfold load at h
    rcases hrun : (Load.document source (source.size + 3) [] root).run {} with ⟨e' | n, s'⟩
    · rw [hrun] at h
      cases h
      rfl
    · rw [hrun] at h
      cases h
  intro x hx
  have hdepth : source.size + 2 ≤ source.size + 3 + ([] : List Text).length := Nat.le_succ _
  have htried := Load.mem_tried_of_document_eq_error hsource (.nil source root) hdepth hrun x hx
  exact htried.resolve_left List.not_mem_nil

end RecordSchema
