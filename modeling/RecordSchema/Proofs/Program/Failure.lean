import RecordSchema.Proofs.Program.Imports
import RecordSchema.Proofs.Program.Load

/-!
# How loading fails

A run fails at one document: it is open already, it cannot be read or parsed, or one of its entries
is refused. The documents on the way to it are named around that cause.
-/

namespace RecordSchema

open Text Namespace

namespace LoadError

/-- The import cycle that an error is about, behind all imports. -/
def cycle? : LoadError → Option (List Text)
  | schema (.importCycle chain) => some chain
  | imported _ _ cause => cause.cycle?
  | _ => none

end LoadError

namespace Load

variable {source : Source} {s s' : Loading} {e : LoadError} {n : Namespace}

theorem run_bind_eq_error_iff {α β : Type} {x : Load α} {f : α → Load β} :
    (x >>= f).run s = (.error e, s') ↔
      x.run s = (.error e, s') ∨
        ∃ a s₁, x.run s = (.ok a, s₁) ∧ (f a).run s₁ = (.error e, s') := by
  rw [run_bind]
  rcases x.run s with ⟨e' | a, s₁⟩
  · constructor
    · intro h
      cases h
      exact Or.inl rfl
    · rintro (h | ⟨a, s₂, h, _⟩)
      · cases h
        rfl
      · cases h
  · constructor
    · intro h
      exact Or.inr ⟨a, s₁, rfl, h⟩
    · rintro (h | ⟨a', s₂, h, hf⟩)
      · cases h
      · cases h
        exact hf

/-- Whether a call for a path fails with a cause, from some state on and with the given state at
last. -/
def Fails (load : Text → Load Namespace) (path : Text) (cause : LoadError) (s' : Loading) : Prop :=
  ∃ s, (load path).run s = (.error cause, s')

section Steps

variable {load : Text → Load Namespace}

theorem importAll_eq_error {refs : List Text} (h : (importAll load refs n).run s = (.error e, s')) :
    ∃ ref ∈ refs, ∃ cause, Fails load (Source.resolve n.path ref) cause s' ∧
      e = .imported n.path ref cause := by
  induction refs generalizing n s with
  | nil => cases h
  | cons ref rest ih =>
      by_cases hc : n.imports.contains ref = true
      · rw [importAll, if_pos hc] at h
        obtain ⟨ref', href', hfails⟩ := ih h
        exact ⟨ref', List.mem_cons_of_mem _ href', hfails⟩
      · rw [run_importAll_cons hc] at h
        split at h
        · next m s₁ hm =>
            obtain ⟨ref', href', hfails⟩ := ih h
            exact ⟨ref', List.mem_cons_of_mem _ href', hfails⟩
        · next cause s₁ hm =>
            cases h
            exact ⟨ref, List.mem_cons_self, cause, ⟨s, hm⟩, rfl⟩

/-- Why an entry of the document at a path is refused. -/
inductive Refused (path : Text) (x : Entry) : SchemaError → Prop where
  | imports {cause : SchemaError} (hk : x.key.keyword = .imports)
      (h : x.imports path = .error cause) : Refused path x cause
  | shape (hk : x.key.keyword ≠ .imports) (h : hasShape x = false) :
      Refused path x (.malformed (x.place path) (shapeReason x))

theorem entries_eq_error {es : List Entry} (h : (entries load es n).run s = (.error e, s')) :
    (∃ x ∈ es, ∃ cause, Refused n.path x cause ∧ e = .schema cause) ∨
      ∃ x ∈ es, ∃ ref ∈ x.references n.path, ∃ cause,
        Fails load (Source.resolve n.path ref) cause s' ∧ e = .imported n.path ref cause := by
  induction es generalizing n s with
  | nil => cases h
  | cons x rest ih =>
      have hrest : ∀ {a : Namespace} {t : Loading}, a.path = n.path →
          (entries load rest a).run t = (.error e, s') →
          (∃ y ∈ x :: rest, ∃ cause, Refused n.path y cause ∧ e = .schema cause) ∨
            ∃ y ∈ x :: rest, ∃ ref ∈ y.references n.path, ∃ cause,
              Fails load (Source.resolve n.path ref) cause s' ∧ e = .imported n.path ref cause := by
        intro a t ha hrun
        rcases ih hrun with ⟨y, hy, hcause⟩ | ⟨y, hy, hcause⟩
        · exact Or.inl ⟨y, List.mem_cons_of_mem _ hy, ha ▸ hcause⟩
        · exact Or.inr ⟨y, List.mem_cons_of_mem _ hy, ha ▸ hcause⟩
      rw [entries_cons] at h
      split at h
      · next hk =>
          split at h
          · next cause hcause =>
              cases h
              exact Or.inl ⟨x, List.mem_cons_self, cause, .imports hk hcause, rfl⟩
          · next refs hrefs =>
              rcases run_bind_eq_error_iff.mp h with h | ⟨a, s₁, ha, h⟩
              · obtain ⟨ref, href, hfails⟩ := importAll_eq_error h
                refine Or.inr ⟨x, List.mem_cons_self, ref, ?_, hfails⟩
                rw [Entry.references_eq hk hrefs]
                exact href
              · exact hrest (path_of_importAll ha) h
      · next hk =>
          split at h
          · exact hrest (a := n.defining x) rfl h
          · next hshape =>
              cases h
              exact Or.inl ⟨x, List.mem_cons_self, _, .shape hk (Bool.eq_false_iff.mpr hshape), rfl⟩

theorem not_refused_of_isWellShaped {d : Document} (h : d.isWellShaped = true) {x : Entry}
    (hx : x ∈ d.entries) (cause : SchemaError) : ¬ Refused d.path x cause := by
  have hentry := List.all_eq_true.mp h x hx
  intro hrefused
  cases hrefused with
  | imports hk herror =>
      rw [if_pos hk, herror] at hentry
      cases hentry
  | shape hk hshape =>
      rw [if_neg hk, hshape] at hentry
      cases hentry

end Steps

section Visits

variable {load : List Text → Text → Load Namespace} {opened : List Text} {path : Text}

theorem visit_eq_error (h : (visit source load opened path).run s = (.error e, s')) :
    (path ∈ opened ∧ e = .schema (.importCycle (chain path opened))) ∨
      path ∉ opened ∧
        ((∃ cause, source.read path = .error cause ∧ e = .unread path cause ∧
            s' = { s with tried := s.tried ++ [path] }) ∨
          (∃ text cause, source.read path = .ok text ∧ Document.parse path text = .error cause ∧
            e = .schema cause ∧ s' = { s with tried := s.tried ++ [path] }) ∨
          ∃ d, source.document? path = some d ∧
            (entries (load (opened ++ [path])) d.entries
              { path, name := Source.schemaName path }).run { s with tried := s.tried ++ [path] } =
                (.error e, s')) := by
  rw [visit, run_get_bind] at h
  split at h
  · cases h
  · split at h
    · next hc =>
        cases h
        exact Or.inl ⟨by simpa using hc, rfl⟩
    · next hc =>
        refine Or.inr ⟨by simpa using hc, ?_⟩
        rw [run_modify_bind] at h
        split at h
        · next cause hread =>
            cases h
            exact Or.inl ⟨cause, hread, rfl, rfl⟩
        · next text hread =>
            split at h
            · next cause hparse =>
                cases h
                exact Or.inr (Or.inl ⟨text, cause, hread, hparse, rfl, rfl⟩)
            · next d hparse =>
                refine Or.inr (Or.inr
                  ⟨d, Source.document?_eq_some_iff.mpr ⟨text, hread, hparse⟩, ?_⟩)
                rcases run_bind_eq_error_iff.mp h with h | ⟨a, s₁, _, h⟩
                · exact h
                · rcases run_bind_eq_error_iff.mp h with h | ⟨_, _, _, h⟩
                  · rw [run_forM_report] at h
                    cases h
                  · cases h

/-- The visit of a well-shaped document fails if the document is open, or else at one of its
imports. -/
theorem visit_eq_error_of_isWellShaped (hshape : source.isWellShaped path = true)
    (h : (visit source load opened path).run s = (.error e, s')) :
    (path ∈ opened ∧ e = .schema (.importCycle (chain path opened))) ∨
      path ∉ opened ∧ ∃ ref cause, source.Imports path (Source.resolve path ref) ∧
        Fails (load (opened ++ [path])) (Source.resolve path ref) cause s' ∧
          e = .imported path ref cause := by
  obtain ⟨d, hd, hshape⟩ : ∃ d, source.document? path = some d ∧ d.isWellShaped = true := by
    simpa [Source.isWellShaped, Option.any_eq_true] using hshape
  obtain ⟨text, hread, hparse⟩ := Source.document?_eq_some_iff.mp hd
  rcases visit_eq_error h with hopen | ⟨hno, hunread | hunparsed | hentries⟩
  · exact Or.inl hopen
  · obtain ⟨cause, hcause, _⟩ := hunread
    cases hread.symm.trans hcause
  · obtain ⟨_, cause, hread', hcause, _⟩ := hunparsed
    cases hread.symm.trans hread'
    cases hparse.symm.trans hcause
  · obtain ⟨d', hd', hentries⟩ := hentries
    cases hd.symm.trans hd'
    refine Or.inr ⟨hno, ?_⟩
    rcases entries_eq_error hentries with
      ⟨x, hx, cause, hrefused, _⟩ | ⟨x, hx, ref, href, cause, hfails⟩
    · rw [← Document.path_of_parse hparse] at hrefused
      exact absurd hrefused (not_refused_of_isWellShaped hshape hx cause)
    · exact ⟨ref, cause, Source.imports_of_mem hd hx href, hfails⟩

end Visits

end Load

end RecordSchema
