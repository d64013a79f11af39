import RecordSchema.Session.Service

/-!
# What a session comes to

A session builds a bundle from the documents it reads and, if it writes, stores it. What it shows of
that and the state it leaves depend on the documents, the options, the storage and the order in
which it gets the entries of maps: the clock, the metrics, the log and earlier sessions have no part
in them.
-/

namespace RecordSchema

open Text

/-- A bundle that a session ends with, where it was written and whether the file was changed. -/
structure Delivery where
  built : Built
  path : Text := []
  written : Bool := false

namespace Session

/-- Whether a session has nothing to show. -/
structure IsBlank (s : Session) : Prop where
  bundle_eq : s.bundle = none
  output_eq : s.output = []
  path_eq : s.path = []
  written_eq : s.written = false

/-- Whether a session shows a bundle. -/
structure Delivers (s : Session) (d : Delivery) : Prop where
  failure_eq : s.failure = none
  bundle_eq : s.bundle = some d.built.bundle
  output_eq : s.output = d.built.output
  path_eq : s.path = d.path
  written_eq : s.written = d.written

/-- Whether a session shows its end: the bundle that was delivered, or why there is none. -/
def Ends (s : Session) : Except SessionError Delivery → Prop
  | .error e => s.failure = some e ∧ s.IsBlank
  | .ok d => s.Delivers d

section Ends

variable {s : Session} {x : Except SessionError Delivery}

theorem Ends.exists_delivery (h : s.Ends x) (hok : s.failure = none) :
    ∃ d, x = .ok d ∧ s.Delivers d := by
  cases x with
  | error e => cases hok.symm.trans h.1
  | ok d => exact ⟨d, rfl, h⟩

theorem Ends.exists_error (h : s.Ends x) (hfailure : s.failure ≠ none) :
    ∃ e, x = .error e ∧ s.failure = some e ∧ s.IsBlank := by
  cases x with
  | error e => exact ⟨e, rfl, h⟩
  | ok d => exact absurd h.failure_eq hfailure

theorem Ends.setDuration (h : s.Ends x) (duration : Int) : Ends { s with duration } x := by
  cases x with
  | error e => exact ⟨h.1, h.2.bundle_eq, h.2.output_eq, h.2.path_eq, h.2.written_eq⟩
  | ok d => exact ⟨h.failure_eq, h.bundle_eq, h.output_eq, h.path_eq, h.written_eq⟩

end Ends

end Session

namespace Service

variable {σ : Type}

/-- What is built for a root document in the state of a service, and how far that got. -/
def build (env : Surroundings σ) (canceled : Bool) (root : Text) (s : Service σ) :
    Except SessionError Built × Progress :=
  Built.ofRoot ((env.storage.source s.state).interrupted canceled) s.options
    (Source.resolve [] root)

/-- What a session has built, in its arrangement. -/
def built (env : Surroundings σ) (canceled : Bool) (root : Text) (s : Service σ) :
    Except SessionError Built :=
  (env.arrange (s.started + 1)).apply (build env canceled root s).1

/-- What storing can come to: the directory is not made, the file is not written, or it is. -/
inductive Stores (storage : Storage σ) (options : CompileOptions) (b : Built) (state : σ) :
    Except SessionError (Text × Bool) × σ → Prop where
  | notMade {e : OutputError} {made : σ}
      (hensure : storage.ensure (b.directory options) state = (.error e, made)) :
      Stores storage options b state (.error (.store (b.directory options) e), made)
  | unwritten {e : OutputError} {made state' : σ}
      (hensure : storage.ensure (b.directory options) state = (.ok (), made))
      (hwrite : storage.write (b.path options) b.output made = (.error e, state')) :
      Stores storage options b state (.error (.store (b.path options) e), state')
  | done {written : Bool} {made state' : σ}
      (hensure : storage.ensure (b.directory options) state = (.ok (), made))
      (hwrite : storage.write (b.path options) b.output made = (.ok written, state')) :
      Stores storage options b state (.ok (b.path options, written), state')

theorem stores_store (storage : Storage σ) (options : CompileOptions) (b : Built) (state : σ) :
    Stores storage options b state (store storage options b state) := by
  unfold store
  rcases hensure : storage.ensure (b.directory options) state with ⟨e | _, made⟩
  · exact .notMade hensure
  · simp only
    rcases hwrite : storage.write (b.path options) b.output made with ⟨e | written, state'⟩
    · exact .unwritten hensure hwrite
    · exact .done hensure hwrite

/-- The state after documents have been read; nothing is read any more if the work is canceled. -/
def stateAfter (env : Surroundings σ) (canceled : Bool) (tried : List Text) (state : σ) : σ :=
  if canceled then state else env.storage.noteReads tried state

/-- What becomes of what was built: it is stored if the session writes. -/
def handOver (env : Surroundings σ) (write : Bool) (options : CompileOptions) (state : σ) :
    Except SessionError Built → Except SessionError Delivery × σ
  | .error e => (.error e, state)
  | .ok b =>
    if write then
      let (stored, state) := store env.storage options b state
      (stored.map fun s => ⟨b, s.1, s.2⟩, state)
    else (.ok ⟨b, [], false⟩, state)

/-- The end of a session and the state that it leaves. -/
def conclude (env : Surroundings σ) (write canceled : Bool) (root : Text) (s : Service σ) :
    Except SessionError Delivery × σ :=
  handOver env write s.options (stateAfter env canceled (build env canceled root s).2.tried s.state)
    (built env canceled root s)

/-- What a session is, and what it leaves of the service that it ran in. -/
structure Conducts (env : Surroundings σ) (write canceled : Bool) (root : Text) (s : Service σ)
    (r : Session) (s' : Service σ) : Prop where
  id_eq : r.id = env.identify (s.started + 1)
  root_eq : r.root = Source.resolve [] root
  schema_eq : r.schema = (build env canceled root s).2.schema
  documents_eq : r.documents = (build env canceled root s).2.documents
  sources_eq : r.sources = (build env canceled root s).2.sources
  ends : r.Ends (conclude env write canceled root s).1
  state_eq : s'.state = (conclude env write canceled root s).2
  options_eq : s'.options = s.options
  measured_eq : s'.metrics.isSome = s.metrics.isSome

/-- Delivering is handing over, and counting what was written. -/
theorem deliver_eq (env : Surroundings σ) (write : Bool) (b : Built) (s : Service σ) :
    handOver env write s.options s.state (.ok b) =
        ((deliver env write b s).1.map fun d => ⟨b, d.1, d.2⟩, (deliver env write b s).2.state) ∧
      (deliver env write b s).2.options = s.options ∧
      (deliver env write b s).2.metrics.isSome = s.metrics.isSome := by
  unfold deliver
  cases write with
  | false => exact ⟨rfl, rfl, rfl⟩
  | true =>
      simp only [handOver, if_true]
      rcases store env.storage s.options b s.state with ⟨e | stored, state⟩
      · exact ⟨rfl, rfl, rfl⟩
      · exact ⟨rfl, rfl, Option.isSome_map⟩

theorem conducts_compile (env : Surroundings σ) (write canceled : Bool) (root : Text)
    (s : Service σ) (clock : Clock) :
    Conducts env write canceled root s
      (compile env write canceled (env.identify (s.started + 1)) (Source.resolve [] root)
        { s with clock, started := s.started + 1 }).1
      (compile env write canceled (env.identify (s.started + 1)) (Source.resolve [] root)
        { s with clock, started := s.started + 1 }).2 := by
  rcases hbuild : build env canceled root s with ⟨x, progress⟩
  have hofRoot := hbuild
  unfold build at hofRoot
  simp only [compile, hofRoot]
  cases hbuilt : (env.arrange (s.started + 1)).apply x with
  | error e =>
      have hconclude : conclude env write canceled root s =
          (.error e, stateAfter env canceled progress.tried s.state) := by
        rw [conclude, built, hbuild, hbuilt]
        rfl
      constructor <;> simp only [hbuild, hconclude]
      · exact ⟨rfl, rfl, rfl, rfl, rfl⟩
      · rfl
  | ok b =>
      have hconclude : conclude env write canceled root s =
          handOver env write s.options (stateAfter env canceled progress.tried s.state)
            (.ok b) := by
        rw [conclude, built, hbuild, hbuilt]
      simp only
      -- Counting and reporting leave the state and the options alone.
      generalize hread : measure _ _ = read
      have hstate : read.state = stateAfter env canceled progress.tried s.state := hread ▸ rfl
      have hoptions : read.options = s.options := hread ▸ rfl
      have hmeasured : read.metrics.isSome = s.metrics.isSome := hread ▸ Option.isSome_map
      obtain ⟨hend, hkept, hcounted⟩ := deliver_eq env write b read
      rw [hstate, hoptions, ← hconclude] at hend
      generalize deliver env write b read = delivered at hend hkept hcounted
      obtain ⟨e | ⟨path, written⟩, s'⟩ := delivered
      · constructor <;> simp only [hbuild, hend]
        · exact ⟨rfl, rfl, rfl, rfl, rfl⟩
        · exact hkept.trans hoptions
        · exact hcounted.trans hmeasured
      · constructor <;> simp only [hbuild, hend]
        · exact ⟨rfl, rfl, rfl, rfl, rfl⟩
        · exact hkept.trans hoptions
        · exact hcounted.trans hmeasured

/-- The readings of the clock stand apart from what is compiled between them. -/
theorem conducts_run (env : Surroundings σ) (write canceled : Bool) (root : Text) (s : Service σ) :
    Conducts env write canceled root s (run env write canceled root s).1
      (run env write canceled root s).2 := by
  have hconducts := conducts_compile env write canceled root s s.clock.read.2
  unfold run
  simp only [measure]
  generalize compile env write canceled _ _ _ = compiled at hconducts ⊢
  obtain ⟨r, s'⟩ := compiled
  exact ⟨hconducts.id_eq, hconducts.root_eq, hconducts.schema_eq, hconducts.documents_eq,
    hconducts.sources_eq, hconducts.ends.setDuration _, hconducts.state_eq, hconducts.options_eq,
    Option.isSome_map.trans hconducts.measured_eq⟩

end Service

end RecordSchema
