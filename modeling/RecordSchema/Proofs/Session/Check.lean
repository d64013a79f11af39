import RecordSchema.Proofs.Outcome
import RecordSchema.Proofs.Session.Build
import RecordSchema.Proofs.Session.Settled
import RecordSchema.Proofs.Store.Output

/-!
# Checking and compiling

A session that checks builds what a session that compiles builds, and stops there. As long as the
storage takes what is written, the two fail together and show the same bundle. They tell the same
error and write the same text in all arrangements if and only if what they build is settled.
-/

namespace RecordSchema

open Text

namespace Session

/-- Whether two sessions show the same of what was built, or fail in the same way. -/
structure Agrees (s t : Session) : Prop where
  failure_eq : s.failure = t.failure
  schema_eq : s.schema = t.schema
  documents_eq : s.documents = t.documents
  sources_eq : s.sources = t.sources
  bundle_eq : s.bundle = t.bundle
  output_eq : s.output = t.output

/-- Whether two sessions come to the same but for the order of entries: they fail together and
alike, or they show the same bundle, each in one of the texts that it has in the format. -/
structure Resembles (format : Text) (s t : Session) : Prop where
  failure : Option.Rel SessionError.Alike s.failure t.failure
  schema_eq : s.schema = t.schema
  documents_eq : s.documents = t.documents
  sources_eq : s.sources = t.sources
  bundle_eq : s.bundle = t.bundle
  shows : ∀ b ∈ s.bundle, ∃ f, Registry.standard.lookup format = .ok f ∧
    f.Shows b s.output ∧ f.Shows b t.output

/-- Whether a session shows what was built: the bundle and its text, or why there is none. -/
def Presents (s : Session) : Except SessionError Built → Prop
  | .error e => s.failure = some e ∧ s.bundle = none ∧ s.output = []
  | .ok b => s.failure = none ∧ s.bundle = some b.bundle ∧ s.output = b.output

section Presents

variable {s t : Session} {x : Except SessionError Built} {a a' : Arrangement}

theorem Ends.presents {y : Except SessionError Delivery} (h : s.Ends y) :
    s.Presents (y.map Delivery.built) := by
  cases y with
  | error e => exact ⟨h.1, h.2.bundle_eq, h.2.output_eq⟩
  | ok d => exact ⟨h.failure_eq, h.bundle_eq, h.output_eq⟩

/-- Two arrangements of a build fail together and alike. -/
theorem Presents.failure_rel (hs : s.Presents (a.apply x)) (ht : t.Presents (a'.apply x)) :
    Option.Rel SessionError.Alike s.failure t.failure := by
  cases x with
  | error e =>
      rw [hs.1, ht.1]
      exact .some ((a.retold e).alike (a'.retold e))
  | ok b =>
      rw [hs.1, ht.1]
      exact .none

theorem Presents.bundle_eq (hs : s.Presents (a.apply x)) (ht : t.Presents (a'.apply x)) :
    s.bundle = t.bundle := by
  cases x with
  | error e => rw [hs.2.1, ht.2.1]
  | ok b => exact hs.2.1.trans ht.2.1.symm

/-- Two arrangements of a build are the same if and only if the error and the text are. -/
theorem Presents.apply_eq_iff (hs : s.Presents (a.apply x)) (ht : t.Presents (a'.apply x)) :
    a.apply x = a'.apply x ↔ s.failure = t.failure ∧ s.output = t.output := by
  cases x with
  | error e =>
      have houtput : s.output = t.output := hs.2.2.trans ht.2.2.symm
      rw [hs.1, ht.1, and_iff_left houtput, Arrangement.apply, Arrangement.apply,
        Except.error.injEq, Option.some.injEq]
  | ok b =>
      have hfailure : s.failure = t.failure := hs.1.trans ht.1.symm
      rw [and_iff_right hfailure, hs.2.2, ht.2.2]
      refine ⟨fun h => congrArg Built.output (Except.ok.inj h), fun h => ?_⟩
      have hwrite : a.write b = a'.write b := h
      rw [Arrangement.apply, Arrangement.apply, Arrangement.present, Arrangement.present, hwrite]

end Presents

end Session

theorem Registry.format_eq_yaml_iff {name : Text} {f : Format} (h : standard.lookup name = .ok f) :
    f = .yaml ↔ name = Format.yaml.name := by
  have hname : f.name = name := by
    unfold lookup get? at h
    split at h
    · next hfind =>
        cases h
        have hbeq := List.find?_some hfind
        exact beq_iff_eq.mp hbeq
    · cases h
  rw [← hname]
  cases f <;> decide

/-- Whether a storage takes a file: its directory can be made and the file can be written. -/
def Storage.Takes {σ : Type} (storage : Storage σ) (directory path content : Text) (state : σ) :
    Prop :=
  ∃ made written state', storage.ensure directory state = (.ok (), made) ∧
    storage.write path content made = (.ok written, state')

/-- Memory takes a file whose directory has been made. -/
theorem Storage.takes_memory {m : Memory} {path : Text} (h : m.shelf.HasDirectory path)
    (directory content : Text) : memory.Takes directory path content m := by
  obtain ⟨written, shelf, hwrite⟩ := (h.ensure directory).exists_write content
  refine ⟨{ m with shelf := m.shelf.ensure directory }, written, { m with shelf }, rfl, ?_⟩
  simp only [memory]
  rw [hwrite]

namespace Service

variable {σ : Type} {env : Surroundings σ} {canceled : Bool} {root : Text} {s t : Service σ}

/-- Whether the storage takes what a session writes, if it gets that far. -/
def Accepts (env : Surroundings σ) (canceled : Bool) (root : Text) (s : Service σ) : Prop :=
  ∀ b, built env canceled root s = .ok b →
    env.storage.Takes (b.directory s.options) (b.path s.options) b.output
      (stateAfter env canceled (build env canceled root s).2.tried s.state)

theorem built_conclude_false (env : Surroundings σ) (canceled : Bool) (root : Text)
    (s : Service σ) :
    (conclude env false canceled root s).1.map Delivery.built = built env canceled root s := by
  unfold conclude
  cases built env canceled root s with
  | error e => rfl
  | ok b => rfl

theorem built_conclude_true (h : Accepts env canceled root s) :
    (conclude env true canceled root s).1.map Delivery.built = built env canceled root s := by
  unfold conclude
  cases hbuilt : built env canceled root s with
  | error e => rfl
  | ok b =>
      obtain ⟨made, written, state', hensure, hwrite⟩ := h b hbuilt
      simp only [handOver, if_true, store, hensure, hwrite]
      rfl

theorem presents_check (env : Surroundings σ) (canceled : Bool) (root : Text) (s : Service σ) :
    (run env false canceled root s).1.Presents (built env canceled root s) := by
  rw [← built_conclude_false]
  exact (conducts_run env false canceled root s).ends.presents

theorem presents_compile (h : Accepts env canceled root s) :
    (run env true canceled root s).1.Presents (built env canceled root s) := by
  rw [← built_conclude_true h]
  exact (conducts_run env true canceled root s).ends.presents

/-- A session whose build is taken succeeds. -/
theorem failure_eq_of_accepts (h : Accepts env canceled root s) {b : Built}
    (hbuilt : built env canceled root s = .ok b) :
    (run env true canceled root s).1.failure = none := by
  have hpresents := presents_compile h
  rw [hbuilt] at hpresents
  exact hpresents.1

section Agreement

variable {env' : Surroundings σ} (hbuild : build env' canceled root t = build env canceled root s)
  (haccepts : Accepts env' canceled root t)

include hbuild haccepts

theorem presents_compile_of_build_eq : (run env' true canceled root t).1.Presents
    ((env'.arrange (t.started + 1)).apply (build env canceled root s).1) := by
  have hpresents := presents_compile haccepts
  rw [built, hbuild] at hpresents
  exact hpresents

/-- Sessions that check and compile the same come to the same but for the order of entries. -/
theorem resembles_run : Session.Resembles s.options.format (run env false canceled root s).1
    (run env' true canceled root t).1 := by
  have hchecked := conducts_run env false canceled root s
  have hcompiled := conducts_run env' true canceled root t
  have hpresents := presents_check env canceled root s
  have hpresents' := presents_compile_of_build_eq hbuild haccepts
  constructor
  · exact hpresents.failure_rel hpresents'
  · rw [hchecked.schema_eq, hcompiled.schema_eq, hbuild]
  · rw [hchecked.documents_eq, hcompiled.documents_eq, hbuild]
  · rw [hchecked.sources_eq, hcompiled.sources_eq, hbuild]
  · exact hpresents.bundle_eq hpresents'
  · intro b hb
    rw [built] at hpresents
    cases hraw : (build env canceled root s).1 with
    | error e =>
        rw [hraw] at hpresents
        cases hpresents.2.1.symm.trans hb
    | ok raw =>
        obtain ⟨_, _, hstages, _⟩ := Built.stages_of_ofRoot hraw
        rw [hraw] at hpresents hpresents'
        cases hpresents.2.1.symm.trans hb
        refine ⟨raw.format, hstages.format_eq, ?_, ?_⟩
        · rw [hpresents.2.2]
          exact Arrangement.shows _ raw hstages.output_eq
        · rw [hpresents'.2.2]
          exact Arrangement.shows _ raw hstages.output_eq

/-- They agree if and only if their arrangements do on what is built. -/
theorem agrees_run_iff :
    (run env false canceled root s).1.Agrees (run env' true canceled root t).1 ↔
      (env.arrange (s.started + 1)).apply (build env canceled root s).1 =
        (env'.arrange (t.started + 1)).apply (build env canceled root s).1 := by
  have hresembles := resembles_run hbuild haccepts
  have hpresents := presents_check env canceled root s
  rw [hpresents.apply_eq_iff (presents_compile_of_build_eq hbuild haccepts)]
  constructor
  · intro h
    exact ⟨h.failure_eq, h.output_eq⟩
  · rintro ⟨hfailure, houtput⟩
    exact ⟨hfailure, hresembles.schema_eq, hresembles.documents_eq, hresembles.sources_eq,
      hresembles.bundle_eq, houtput⟩

end Agreement

/-- What is built has the same text in all arrangements if and only if it is settled. -/
theorem apply_build_eq_iff (env : Surroundings σ) (canceled : Bool) (root : Text) (s : Service σ) :
    (∀ a a' : Arrangement,
        a.apply (build env canceled root s).1 = a'.apply (build env canceled root s).1) ↔
      Built.isSettled (build env canceled root s).1 = true := by
  apply Arrangement.apply_eq_iff
  intro b hb
  obtain ⟨_, _, hstages, _⟩ := Built.stages_of_ofRoot hb
  exact hstages.output_eq

/-- What a session has built is settled if and only if its format is another one than YAML or its
bundle is settled. -/
theorem isSettled_build_iff {write : Bool}
    (hok : (run env write canceled root s).1.failure = none) :
    Built.isSettled (build env canceled root s).1 = true ↔
      ∀ b ∈ (run env write canceled root s).1.bundle,
        s.options.format = Format.yaml.name → b.isSettled = true := by
  obtain ⟨d, hend, hdelivers⟩ := (conducts_run env write canceled root s).ends.exists_delivery hok
  obtain ⟨rfl, hbuilt⟩ := build_of_conclude hend
  obtain ⟨raw, hraw, hpresent⟩ := exists_of_built_eq_ok hbuilt
  obtain ⟨_, _, hstages, _⟩ := Built.stages_of_ofRoot hraw
  rw [hraw, Built.isSettled_ok_iff, Registry.format_eq_yaml_iff hstages.format_eq,
    hdelivers.bundle_eq, hpresent]
  exact ⟨by rintro hsettled _ ⟨⟩; exact hsettled, fun hall => hall _ rfl⟩

end Service

end RecordSchema
