import RecordSchema.Proofs.Session.Build
import RecordSchema.Proofs.Session.Check
import RecordSchema.Proofs.Session.Failure
import RecordSchema.Proofs.Session.Settled
import RecordSchema.Proofs.Store.Output

/-!
# Sessions that are repeated

A session that has succeeded succeeds again with the same result as long as its documents and
options are the same, whatever other sessions come in between. The second time it finds its output
in place and changes no file.
-/

namespace RecordSchema

open Text

theorem Built.clean_path (options : CompileOptions) (b : Built) :
    Path.clean (b.path options) = b.path options := by
  apply Path.clean_joined (List.mem_cons_of_mem _ List.mem_cons_self)
  intro hnil
  cases (List.append_eq_nil_iff.mp (List.append_eq_nil_iff.mp hnil).1).2

/-- What gets in the way of a session changes nothing. -/
theorem Storage.Retains.hindered {σ : Type} {storage : Storage σ} {spare : Text → Prop}
    {P : σ → Prop} (h : storage.Retains spare P) (hindrance : Hindrance) :
    (storage.hindered hindrance).Retains spare P where
  noteReads := h.noteReads
  ensure := by
    intro directory s hs
    simp only [Storage.hindered]
    cases hindrance.ensure directory with
    | none => exact h.ensure directory s hs
    | some e => exact hs
  write := by
    intro path content s hclean hspare hs
    simp only [Storage.hindered] at hspare ⊢
    cases hwrite : hindrance.write path with
    | none =>
        rw [hwrite] at hspare
        exact h.write path content s hclean hspare hs
    | some e => exact hs

theorem Storage.retains_documents (documents : Keyed Text) :
    memory.Retains (fun _ => True) fun m => m.library.documents = documents where
  noteReads := fun paths m h => (m.library.documents_countReads paths).trans h
  ensure := fun _ _ h => h
  write := fun _ _ _ _ _ h => h

namespace Service

variable {σ φ : Type} {storage : Storage σ} {env : Surroundings σ} {spare : Text → Prop}
  {P : σ → Prop}

section Retains

theorem retains_store (h : storage.Retains spare P) {options : CompileOptions} {b : Built}
    {state : σ}
    (hspare : (store storage options b state).1 = .ok (b.path options, true) →
      spare (b.path options))
    (hP : P state) : P (store storage options b state).2 := by
  have hmade := h.ensure (b.directory options) state hP
  have hstores := stores_store storage options b state
  generalize store storage options b state = result at hstores hspare
  cases hstores with
  | notMade hensure =>
      rw [hensure] at hmade
      exact hmade
  | @unwritten _ made _ hensure hwrite =>
      rw [hensure] at hmade
      have hkept := h.write (b.path options) b.output made (b.clean_path options)
      rw [hwrite] at hkept
      exact hkept (by rintro ⟨⟩) hmade
  | @done _ made _ hensure hwrite =>
      rw [hensure] at hmade
      have hkept := h.write (b.path options) b.output made (b.clean_path options)
      rw [hwrite] at hkept
      refine hkept (fun heq => ?_) hmade
      cases heq
      exact hspare rfl

theorem retains_handOver (h : env.storage.Retains spare P) {write : Bool} {options : CompileOptions}
    {state : σ} {built : Except SessionError Built}
    (hspare : ∀ d, (handOver env write options state built).1 = .ok d → d.written = true →
      spare d.path)
    (hP : P state) : P (handOver env write options state built).2 := by
  cases built with
  | error e => exact hP
  | ok b =>
      cases write with
      | false => exact hP
      | true =>
          apply retains_store h _ hP
          intro hstore
          exact hspare ⟨b, b.path options, true⟩ (map_eq_ok_iff.mpr ⟨_, hstore, rfl⟩) rfl

/-- What a session retains: all that does not depend on the file that it changes, if it changes
one. -/
theorem retains_run (h : env.storage.Retains spare P) {write canceled : Bool} {root : Text}
    {s : Service σ}
    (hspare : (run env write canceled root s).1.written = true →
      spare (run env write canceled root s).1.path)
    (hP : P s.state) : P (run env write canceled root s).2.state := by
  have hconducts := conducts_run env write canceled root s
  rw [hconducts.state_eq]
  apply retains_handOver h
  · intro d hend hwritten
    have hends := hconducts.ends
    rw [conclude, hend] at hends
    rw [← hends.path_eq]
    exact hspare (hends.written_eq.trans hwritten)
  · unfold stateAfter
    cases canceled with
    | true => exact hP
    | false => exact h.noteReads _ _ hP

end Retains

section Activities

/-- What can happen to a service: a session, with what gets in its way, or a change of the
options. -/
inductive Activity where
  | session (hindrance : Hindrance) (write canceled : Bool) (root : Text)
  | configure (options : CompileOptions)

/-- Performs an activity. Answers the session, if there is one. -/
def perform (env : Surroundings σ) (s : Service σ) : Activity → Option Session × Service σ
  | .session h write canceled root =>
    let (r, s) := run { env with storage := env.storage.hindered h } write canceled root s
    (some r, s)
  | .configure options => (none, { s with options })

/-- Performs activities one after another. -/
def performAll (env : Surroundings σ) : List Activity → Service σ → List Session × Service σ
  | [], s => ([], s)
  | activity :: rest, s =>
    let (r, s) := perform env s activity
    let (others, s) := performAll env rest s
    (r.toList ++ others, s)

theorem retains_perform (h : env.storage.Retains spare P) {s : Service σ} {activity : Activity}
    (hspare : ∀ r ∈ (perform env s activity).1, r.written = true → spare r.path)
    (hP : P s.state) : P (perform env s activity).2.state := by
  cases activity with
  | session hindrance write canceled root =>
      have h' : { env with storage := env.storage.hindered hindrance }.storage.Retains spare P :=
        h.hindered hindrance
      exact retains_run h' (hspare _ rfl) hP
  | configure options => exact hP

theorem retains_performAll (h : env.storage.Retains spare P) {activities : List Activity}
    {s : Service σ}
    (hspare : ∀ r ∈ (performAll env activities s).1, r.written = true → spare r.path)
    (hP : P s.state) : P (performAll env activities s).2.state := by
  induction activities generalizing s with
  | nil => exact hP
  | cons activity rest ih =>
      simp only [performAll, List.mem_append, Option.mem_toList] at hspare ⊢
      apply ih
      · intro r hr
        exact hspare r (Or.inr hr)
      · apply retains_perform h _ hP
        intro r hr
        exact hspare r (Or.inl hr)

end Activities

section Again

variable {canceled : Bool} {root : Text} {s : Service σ}

/-- A session that writes and succeeds has stored what it has built. -/
theorem conclude_eq_ok {d : Delivery} {state : σ}
    (h : conclude env true canceled root s = (.ok d, state)) :
    canceled = false ∧ built env false root s = .ok d.built ∧
      store env.storage s.options d.built
        (env.storage.noteReads (build env false root s).2.tried s.state) =
          (.ok (d.path, d.written), state) := by
  obtain ⟨rfl, hbuilt⟩ := build_of_conclude (congrArg Prod.fst h)
  refine ⟨rfl, hbuilt, ?_⟩
  unfold conclude stateAfter at h
  simp only [Bool.false_eq_true, if_false, hbuilt] at h
  obtain ⟨hmap, rfl⟩ := Prod.mk.inj h
  obtain ⟨stored, hstored, hd⟩ := map_eq_ok_iff.mp hmap
  have hpath : stored.1 = d.path := congrArg Delivery.path hd
  have hwritten : stored.2 = d.written := congrArg Delivery.written hd
  rw [← hpath, ← hwritten]
  exact Prod.ext hstored rfl

theorem conclude_of_store {b : Built} {path : Text} {written : Bool} {state : σ}
    (hbuilt : built env false root s = .ok b)
    (hstore : store env.storage s.options b
      (env.storage.noteReads (build env false root s).2.tried s.state) =
        (.ok (path, written), state)) :
    conclude env true false root s = (.ok ⟨b, path, written⟩, state) := by
  unfold conclude stateAfter
  simp only [Bool.false_eq_true, if_false, hbuilt, handOver, if_true, hstore]
  rfl

variable {v : Storage.View σ} {files : σ → φ}

/-- A session that writes and succeeds has made a directory and written a file. -/
theorem exists_write_of_run (hok : (run env true canceled root s).1.failure = none) :
    canceled = false ∧ ∃ b written made, built env false root s = .ok b ∧
      (run env true canceled root s).1.Delivers ⟨b, b.path s.options, written⟩ ∧
      env.storage.ensure (b.directory s.options)
        (env.storage.noteReads (build env false root s).2.tried s.state) = (.ok (), made) ∧
      env.storage.write (b.path s.options) b.output made =
        (.ok written, (run env true canceled root s).2.state) := by
  have hconducts := conducts_run env true canceled root s
  obtain ⟨d, hend, hdelivers⟩ := hconducts.ends.exists_delivery hok
  have hconclude : conclude env true canceled root s =
      (.ok d, (run env true canceled root s).2.state) := by
    rw [hconducts.state_eq, ← hend]
  obtain ⟨rfl, hbuilt, hstore⟩ := conclude_eq_ok hconclude
  refine ⟨rfl, d.built, ?_⟩
  obtain ⟨b, path, written⟩ := d
  have hstores := stores_store env.storage s.options b
    (env.storage.noteReads (build env false root s).2.tried s.state)
  rw [hstore] at hstores
  cases hstores with
  | @done _ made _ hensure hwrite => exact ⟨written, made, hbuilt, hdelivers, hensure, hwrite⟩

/-- A storage that is changed by a session takes what the session writes in any arrangement. -/
theorem accepts_of_written (hok : (run env true canceled root s).1.failure = none)
    (hwritten : (run env true canceled root s).1.written = true)
    (hstorage : env.storage.IsIndifferent) (arrange : Nat → Arrangement) :
    Accepts { env with arrange } canceled root s := by
  obtain ⟨rfl, b, written, made, hbuilt, hdelivers, hensure, hwrite⟩ := exists_write_of_run hok
  cases hdelivers.written_eq.symm.trans hwritten
  obtain ⟨raw, hraw, rfl⟩ := exists_of_built_eq_ok hbuilt
  intro b' hbuilt'
  obtain ⟨raw', hraw', rfl⟩ := exists_of_built_eq_ok hbuilt'
  cases hraw.symm.trans hraw'
  obtain ⟨written', state', hwrite'⟩ := hstorage hwrite ((arrange (s.started + 1)).write raw)
  exact ⟨made, written', state', hensure, hwrite'⟩

/-- It leaves its output in place. -/
theorem holds_of_run (hstocks : env.storage.Stocks v files)
    (hok : (run env true canceled root s).1.failure = none) :
    canceled = false ∧ ∃ b text written, built env false root s = .ok b ∧
      (run env true canceled root s).1.Delivers ⟨b, b.path s.options, written⟩ ∧
      v.Holds (b.directory s.options) (b.path s.options) text
        (run env true canceled root s).2.state ∧
      v.same text b.output ∧ (written = true → text = b.output) := by
  obtain ⟨rfl, b, written, made, hbuilt, hdelivers, hensure, hwrite⟩ := exists_write_of_run hok
  obtain ⟨text, hholds, hsame, htext⟩ := hstocks.exists_holds hensure hwrite
  exact ⟨rfl, b, text, written, hbuilt, hdelivers, hholds, hsame, htext⟩

/-- It changes a file that was there if and only if that has another content. -/
theorem written_iff_of_run (hstocks : env.storage.Stocks v files)
    (hok : (run env true canceled root s).1.failure = none) {b : Built} {text : Text}
    (hbuilt : built env false root s = .ok b)
    (hholds : v.Holds (b.directory s.options) (b.path s.options) text s.state) :
    (run env true canceled root s).1.written = true ↔
      ¬ v.same text (run env true canceled root s).1.output := by
  obtain ⟨rfl, b', written, made, hbuilt', hdelivers, hensure, hwrite⟩ := exists_write_of_run hok
  cases hbuilt.symm.trans hbuilt'
  have hread := (hstocks.retains (b.clean_path s.options)).noteReads
    (build env false root s).2.tried s.state hholds
  rw [hdelivers.written_eq, hdelivers.output_eq]
  exact hstocks.written_iff hread hensure hwrite

/-- A session whose output is in place changes no file. -/
theorem run_of_holds (hstocks : env.storage.Stocks v files) {b : Built} {text : Text}
    (hbuilt : built env false root s = .ok b)
    (hholds : v.Holds (b.directory s.options) (b.path s.options) text s.state)
    (hsame : v.same text b.output) :
    (run env true false root s).1.Delivers ⟨b, b.path s.options, false⟩ ∧
      files (run env true false root s).2.state = files s.state := by
  have hread := (hstocks.retains (b.clean_path s.options)).noteReads
    (build env false root s).2.tried s.state hholds
  obtain ⟨made, state, hensure, hwrite, _, hfiles⟩ := hstocks.write_again hread hsame
  have hstore : store env.storage s.options b
      (env.storage.noteReads (build env false root s).2.tried s.state) =
        (.ok (b.path s.options, false), state) := by
    rw [store, hensure]
    simp only [hwrite]
  have hconclude := conclude_of_store hbuilt hstore
  have hconducts := conducts_run env true false root s
  have hends := hconducts.ends
  rw [hconducts.state_eq, hconclude]
  rw [hconclude] at hends
  exact ⟨hends, hfiles.trans (hstocks.files_noteReads _ _)⟩

/-- Whether a session is the same again, apart from its text. -/
structure Resumes (first second : Session) : Prop where
  failure_eq : second.failure = none
  schema_eq : second.schema = first.schema
  documents_eq : second.documents = first.documents
  sources_eq : second.sources = first.sources
  bundle_eq : second.bundle = first.bundle
  path_eq : second.path = first.path

/-- Whether a session is the same again and finds its output in place. `files` shows the output. -/
structure Repeats (files : σ → φ) (first : Session) (s : Service σ) (second : Session × Service σ) :
    Prop extends Resumes first second.1 where
  output_eq : second.1.output = first.output
  written_eq : second.1.written = false
  files_eq : files second.2.state = files s.state

/-- A session that writes and succeeds, and what happens after it: activities that change other
files and come back to the options. -/
structure Undisturbed (env : Surroundings σ) (canceled : Bool) (root : Text)
    (activities : List Activity) (s : Service σ) (first : Session × Service σ)
    (later : List Session × Service σ) : Prop where
  first_eq : run env true canceled root s = first
  failure_eq : first.1.failure = none
  later_eq : performAll env activities first.2 = later
  path_ne : ∀ r ∈ later.1, r.written = true → r.path ≠ first.1.path
  options_eq : later.2.options = s.options

variable {activities : List Activity} {first : Session × Service σ}
  {later : List Session × Service σ}

/-- Nothing in between disturbs nothing. -/
theorem undisturbed_nil (hfirst : run env true canceled root s = first)
    (hok : first.1.failure = none) :
    Undisturbed env canceled root [] s first (performAll env [] first.2) := by
  refine ⟨hfirst, hok, rfl, fun _ hr => absurd hr List.not_mem_nil, ?_⟩
  rw [← hfirst]
  exact (conducts_run env true canceled root s).options_eq

/-- What the first of two sessions has left for the second: the build that both arrange, and a text
in the place of its output. -/
structure Awaits (env : Surroundings σ) (v : Storage.View σ) (root : Text) (s : Service σ)
    (first : Session) (t : Service σ) (raw : Built) (text : Text) : Prop where
  build_eq : (build env false root t).1 = .ok raw
  sources_eq : (build env false root t).2.sources = first.sources
  schema_eq : (build env false root t).2.schema = first.schema
  documents_eq : (build env false root t).2.documents = first.documents
  options_eq : t.options = s.options
  bundle_eq : first.bundle = some raw.bundle
  path_eq : first.path = raw.path t.options
  shows : raw.format.Shows raw.bundle first.output
  holds : v.Holds (raw.directory t.options) (raw.path t.options) text t.state
  same : v.same text first.output

/-- The same documents give the same build, and the output is where the first session has left
it. -/
theorem Undisturbed.awaits (hstocks : env.storage.Stocks v files)
    (hsized : ∀ state, (env.storage.source state).IsSized)
    (h : Undisturbed env canceled root activities s first later)
    (hdocuments : ∀ path ∈ first.1.sources,
      (env.storage.source later.2.state).read path = (env.storage.source s.state).read path) :
    ∃ raw text, Awaits env v root s first.1 later.2 raw text := by
  obtain ⟨rfl, hok, hlater, hpaths, hoptions⟩ := h
  obtain ⟨others, t⟩ := later
  simp only at *
  have hfirst := conducts_run env true canceled root s
  obtain ⟨rfl, b, text, written, hbuilt, hdelivers, hholds, hsame, _⟩ := holds_of_run hstocks hok
  obtain ⟨raw, hbuild, rfl⟩ := exists_of_built_eq_ok hbuilt
  obtain ⟨_, _, hstages, _⟩ := Built.stages_of_ofRoot hbuild
  have hpath : (run env true false root s).1.path = raw.path s.options := hdelivers.path_eq
  have hkept : v.Holds (raw.directory s.options) (raw.path s.options) text t.state := by
    have hothers : ∀ r ∈ (performAll env activities (run env true false root s).2).1,
        r.written = true → r.path ≠ raw.path s.options := by
      rw [hlater, ← hpath]
      exact hpaths
    have hretained := retains_performAll (hstocks.retains (raw.clean_path s.options)) hothers hholds
    rw [hlater] at hretained
    exact hretained
  have hagain : build env false root t = build env false root s := by
    unfold build at hbuild ⊢
    rw [hoptions]
    apply Built.ofRoot_of_read_eq (hsized _) (hsized _) hbuild
    intro path hpath
    exact hdocuments path (hfirst.sources_eq ▸ hpath)
  refine ⟨raw, text, ?_⟩
  constructor
  · rw [hagain, hbuild]
  · rw [hagain, hfirst.sources_eq]
  · rw [hagain, hfirst.schema_eq]
  · rw [hagain, hfirst.documents_eq]
  · exact hoptions
  · exact hdelivers.bundle_eq
  · rw [hoptions, hpath]
  · rw [hdelivers.output_eq]
    exact Arrangement.shows _ raw hstages.output_eq
  · rw [hoptions]
    exact hkept
  · rw [hdelivers.output_eq]
    exact hsame

section Awaits

variable {t : Service σ} {first : Session} {raw : Built} {text : Text}
  (h : Awaits env v root s first t raw text) (arrange : Nat → Arrangement)

include h

theorem Awaits.built_eq : built { env with arrange } false root t =
    .ok ((arrange (t.started + 1)).present raw) := by
  have hbuild : (build { env with arrange } false root t).1 = .ok raw := h.build_eq
  rw [built, hbuild]
  rfl

theorem Awaits.resumes {d : Delivery}
    (hdelivers : (run { env with arrange } true false root t).1.Delivers d)
    (hbuilt : d.built = (arrange (t.started + 1)).present raw)
    (hpath : d.path = raw.path t.options) :
    Resumes first (run { env with arrange } true false root t).1 := by
  have hsecond := conducts_run { env with arrange } true false root t
  constructor
  · exact hdelivers.failure_eq
  · rw [hsecond.schema_eq]
    exact h.schema_eq
  · rw [hsecond.documents_eq]
    exact h.documents_eq
  · rw [hsecond.sources_eq]
    exact h.sources_eq
  · rw [hdelivers.bundle_eq, hbuilt, h.bundle_eq]
    rfl
  · rw [hdelivers.path_eq, hpath, h.path_eq]

/-- A second session that succeeds is the same again but for its text, and leaves that in place. -/
theorem Awaits.resumes_of_run (hstocks : env.storage.Stocks v files)
    (hok : (run { env with arrange } true false root t).1.failure = none) :
    let second := run { env with arrange } true false root t
    Resumes first second.1 ∧ second.1.output = (arrange (t.started + 1)).write raw ∧
      (second.1.written = true ↔ ¬ v.same text second.1.output) ∧
      ∃ text', v.file? first.path second.2.state = some text' ∧ v.same text' second.1.output ∧
        (second.1.written = true → text' = second.1.output) := by
  intro second
  have hstocks' : { env with arrange }.storage.Stocks v files := hstocks
  have hbuilt := h.built_eq arrange
  obtain ⟨_, b, text', written, hbuilt', hdelivers, hholds, hsame, htext⟩ :=
    holds_of_run hstocks' hok
  cases hbuilt.symm.trans hbuilt'
  refine ⟨h.resumes arrange hdelivers rfl rfl, hdelivers.output_eq, ?_, text', ?_, ?_, ?_⟩
  · exact written_iff_of_run hstocks' hok hbuilt h.holds
  · rw [h.path_eq]
    exact hholds.2
  · rw [hdelivers.output_eq]
    exact hsame
  · rw [hdelivers.output_eq, hdelivers.written_eq]
    exact htext

/-- A second session that writes the text of the first one repeats it. -/
theorem Awaits.repeats_of_write_eq (hstocks : env.storage.Stocks v files)
    (houtput : (arrange (t.started + 1)).write raw = first.output) :
    Repeats files first t (run { env with arrange } true false root t) := by
  have hsame : v.same text ((arrange (t.started + 1)).present raw).output := by
    rw [Arrangement.present, houtput]
    exact h.same
  have hstocks' : { env with arrange }.storage.Stocks v files := hstocks
  obtain ⟨hdelivers, hfiles⟩ := run_of_holds hstocks' (h.built_eq arrange) h.holds hsame
  refine ⟨h.resumes arrange hdelivers rfl rfl, ?_, hdelivers.written_eq, hfiles⟩
  rw [hdelivers.output_eq]
  exact houtput

theorem Awaits.repeats_iff_output_eq (hstocks : env.storage.Stocks v files)
    (hok : (run { env with arrange } true false root t).1.failure = none) :
    Repeats files first t (run { env with arrange } true false root t) ↔
      (run { env with arrange } true false root t).1.output = first.output := by
  obtain ⟨_, houtput, _⟩ := h.resumes_of_run arrange hstocks hok
  refine ⟨Repeats.output_eq, fun heq => h.repeats_of_write_eq arrange hstocks ?_⟩
  rw [← houtput, heq]

/-- Second sessions repeat the first one in all arrangements if and only if the text is settled. -/
theorem Awaits.repeats_iff (hstocks : env.storage.Stocks v files) :
    (∀ arrange, Repeats files first t (run { env with arrange } true false root t)) ↔
      (raw.format = .yaml → raw.bundle.isSettled = true) := by
  obtain ⟨_, _, hstages, _⟩ := Built.stages_of_ofRoot h.build_eq
  rw [← Format.eq_of_shows_iff hstages.output_eq]
  constructor
  · intro hrepeats
    have hfirst : ∀ text', raw.format.Shows raw.bundle text' → text' = first.output := by
      intro text' htext'
      obtain ⟨a, ha⟩ := Arrangement.exists_write_eq htext'
      have hsecond := hrepeats fun _ => a
      obtain ⟨_, houtput, _⟩ := h.resumes_of_run (fun _ => a) hstocks hsecond.failure_eq
      rw [← ha, ← houtput, hsecond.output_eq]
    intro text' htext'
    rw [hfirst text' htext', hfirst raw.output (Format.shows_of_bundle hstages.output_eq)]
  · intro hsettled arrange
    apply h.repeats_of_write_eq arrange hstocks
    rw [hsettled _ (Arrangement.shows _ raw hstages.output_eq), hsettled _ h.shows]

/-- The condition by the name of the format. -/
theorem Awaits.settles_iff :
    (∀ b ∈ first.bundle, s.options.format = Format.yaml.name → b.isSettled = true) ↔
      (raw.format = .yaml → raw.bundle.isSettled = true) := by
  obtain ⟨_, _, hstages, _⟩ := Built.stages_of_ofRoot h.build_eq
  have hformat := Registry.format_eq_yaml_iff hstages.format_eq
  rw [h.options_eq] at hformat
  rw [h.bundle_eq, hformat]
  exact ⟨fun hall => hall _ rfl, by rintro hall _ ⟨⟩; exact hall⟩

end Awaits

/-- Memory takes the file again. -/
theorem Awaits.accepts_memory {identify : Nat → Text} {arrange : Nat → Arrangement}
    {s t : Service Memory} {first : Session} {raw : Built} {text : Text}
    (h : Awaits ⟨Storage.memory, identify, arrange⟩ Memory.view root s first t raw text)
    (arrange' : Nat → Arrangement) :
    Accepts ⟨Storage.memory, identify, arrange'⟩ false root t := by
  intro b hb
  cases (h.built_eq arrange').symm.trans hb
  apply Storage.takes_memory
  exact h.holds.1

/-- Sessions in memory leave the documents alone. -/
theorem Undisturbed.documents_eq {identify : Nat → Text} {arrange : Nat → Arrangement}
    {s : Service Memory} {first : Session × Service Memory} {later : List Session × Service Memory}
    (h : Undisturbed ⟨Storage.memory, identify, arrange⟩ canceled root activities s first later) :
    later.2.state.library.documents = s.state.library.documents := by
  have hretains : (Surroundings.mk Storage.memory identify arrange).storage.Retains (fun _ => True)
      fun m => m.library.documents = s.state.library.documents :=
    Storage.retains_documents s.state.library.documents
  have hfirst : first.2.state.library.documents = s.state.library.documents := by
    rw [← h.first_eq]
    exact retains_run hretains (fun _ => trivial) rfl
  rw [← h.later_eq]
  exact retains_performAll hretains (fun _ _ _ => trivial) hfirst

end Again

section Shared

/-- Two documents, with the options that their output is written by. -/
def sharedService {σ : Type} (state : List (Text × Text) → σ) : Service σ :=
  { state := state [("a.yaml", "Object O:\n x: u8\n"), ("b.yaml", "Constant N: 3\n")]
    options := { directory := "out", format := "json" }
    clock := ⟨0, 1⟩ }

/-- The other document is compiled, the first one is checked in another format, and a session for
it is canceled before it can write. -/
def interlude : List Activity :=
  [.session {} true false "b.yaml", .configure { directory := "out", format := "yaml" },
    .session {} false false "a.yaml",
    .session { write := fun _ => some .canceled } true false "a.yaml",
    .configure { directory := "out", format := "json" }]

def sharedMemory : Session × Service Memory :=
  run ⟨Storage.memory, fun _ => "s", fun _ => .asRead⟩ true false "a.yaml"
    (sharedService fun documents => { library := .ofList documents })

def sharedDisk : Session × Service Disk :=
  run ⟨Storage.disk, fun _ => "s", fun _ => .asRead⟩ true false "a.yaml"
    (sharedService Disk.ofFiles)

def laterMemory : List Session × Service Memory :=
  performAll ⟨Storage.memory, fun _ => "s", fun _ => .asRead⟩ interlude sharedMemory.2

def laterDisk : List Session × Service Disk :=
  performAll ⟨Storage.disk, fun _ => "s", fun _ => .asRead⟩ interlude sharedDisk.2

theorem undisturbed_memory :
    Undisturbed ⟨Storage.memory, fun _ => "s", fun _ => .asRead⟩ false "a.yaml" interlude
      (sharedService fun documents => { library := .ofList documents }) sharedMemory
      laterMemory := by
  have hran : sharedMemory.1.failure.isNone = true ∧
      (∀ r ∈ laterMemory.1, r.written = true → r.path ≠ sharedMemory.1.path) ∧
      laterMemory.2.options = { directory := "out", format := "json" } := by
    decide +kernel
  exact ⟨rfl, Option.isNone_iff_eq_none.mp hran.1, rfl, hran.2.1, hran.2.2⟩

theorem undisturbed_disk : Undisturbed ⟨Storage.disk, fun _ => "s", fun _ => .asRead⟩ false "a.yaml"
    interlude (sharedService Disk.ofFiles) sharedDisk laterDisk := by
  have hran : sharedDisk.1.failure.isNone = true ∧
      (∀ r ∈ laterDisk.1, r.written = true → r.path ≠ sharedDisk.1.path) ∧
      laterDisk.2.options = { directory := "out", format := "json" } := by
    decide +kernel
  exact ⟨rfl, Option.isNone_iff_eq_none.mp hran.1, rfl, hran.2.1, hran.2.2⟩

/-- A default whose keys are times, which YAML puts in no order. -/
def timedDocument : Text :=
  join "\n"
    ["Object A:", " x: \x7btype: u8, default: \x7b",
      "  2001-01-01: a, 2002-01-01: b, 2003-01-01: c, 2004-01-01: d,",
      "  2005-01-01: e, 2006-01-01: f, 2007-01-01: g, 2008-01-01: h,",
      "  2009-01-01: i, 2010-01-01: j, 2011-01-01: k, 2012-01-01: l,",
      "  2013-01-01: m, 2014-01-01: n, 2015-01-01: o, 2016-01-01: p\x7d\x7d", ""]

def timedService : Service Memory :=
  { state := { library := .ofList [("a.yaml", timedDocument)] }
    options := { directory := "out", format := "yaml" }
    clock := ⟨0, 1⟩ }

def timedFirst : Session × Service Memory :=
  run ⟨Storage.memory, fun _ => "s", fun _ => .asRead⟩ true false "a.yaml" timedService

def timedLater : List Session × Service Memory :=
  performAll ⟨Storage.memory, fun _ => "s", fun _ => .asRead⟩ [] timedFirst.2

theorem timedFirst_unsettled : timedFirst.1.failure.isNone = true ∧ timedFirst.1.written = true ∧
    timedFirst.1.bundle.map Bundle.isSettled = some false := by
  decide +kernel

theorem undisturbed_timed :
    Undisturbed ⟨Storage.memory, fun _ => "s", fun _ => .asRead⟩ false "a.yaml" [] timedService
      timedFirst timedLater :=
  undisturbed_nil rfl (Option.isNone_iff_eq_none.mp timedFirst_unsettled.1)

end Shared

end Service

end RecordSchema
