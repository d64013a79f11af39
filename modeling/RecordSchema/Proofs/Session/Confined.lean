import RecordSchema.Proofs.Model.Rearranged
import RecordSchema.Proofs.Session.Repeated
import RecordSchema.Proofs.Store.Within

/-!
# Where output goes

The schema name of a root document is its base name without the extension. If that is the name of a
directory, output goes to a directory of this name in the one for output, and nothing outside is
touched. A base name of dots may leave `..` instead, which leads out of the directory for output, or
nothing or `.`, which lead nowhere; the root itself leaves a slash.
-/

namespace RecordSchema

open Text

section Names

variable {sep : UInt8} {t before after : Text}

theorem Text.notMem_of_cut? (h : cut? sep t = some (before, after)) : sep ∉ before := by
  induction t generalizing before with
  | nil => cases h
  | cons b rest ih =>
      rw [cut?] at h
      split at h
      · cases h
        exact List.not_mem_nil
      · next hb =>
          obtain ⟨⟨first, second⟩, hcut, heq⟩ := Option.map_eq_some_iff.mp h
          cases heq
          rw [List.mem_cons]
          rintro (hsep | hsep)
          · exact hb hsep.symm
          · exact ih hcut hsep

theorem Text.notMem_of_cut?_eq_none (h : cut? sep t = none) : sep ∉ t := by
  induction t with
  | nil => exact List.not_mem_nil
  | cons b rest ih =>
      rw [cut?] at h
      split at h
      · cases h
      · next hb =>
          rw [List.mem_cons]
          rintro (hsep | hsep)
          · exact hb hsep.symm
          · exact ih (Option.map_eq_none_iff.mp h) hsep

theorem Text.Path.base_eq_slash_or (p : Text) : base p = [slash] ∨ slash ∉ base p := by
  unfold base
  split
  · exact Or.inr (by decide)
  · simp only
    split
    · exact Or.inl rfl
    · right
      unfold cutLast?
      generalize (List.dropWhile (· == slash) (List.reverse p)).reverse = stripped
      cases hcut : cut? slash stripped.reverse with
      | none =>
          have hnot := notMem_of_cut?_eq_none hcut
          simpa using hnot
      | some parts =>
          have hnot := notMem_of_cut? hcut
          simpa using hnot

/-- A schema name is a slash, or there is none in it. -/
theorem Source.schemaName_eq_slash_or (path : Text) :
    schemaName path = [Path.slash] ∨ Path.slash ∉ schemaName path := by
  unfold schemaName
  rcases Path.base_eq_slash_or (path.map fun b => if b = 92 then Path.slash else b) with
    hbase | hbase
  · left
    rw [hbase]
    decide
  · exact Or.inr fun hmem => hbase (List.mem_of_mem_take hmem)

theorem Format.exists_leaf (f : Format) {name : Text}
    (hname : name = [Path.slash] ∨ Path.slash ∉ name) :
    ∃ leaf, Path.IsPlain leaf ∧ Disk.parts (name ++ "." ++ f.extension) = [leaf] ∧
      (Path.slash ∉ name → leaf = name ++ "." ++ f.extension) := by
  have hextension : 3 ≤ f.extension.length ∧ Path.slash ∉ ("." : Text) ++ f.extension := by
    cases f <;> decide
  rcases hname with rfl | hname
  · refine ⟨"." ++ f.extension, ?_, ?_, fun hnot => absurd List.mem_cons_self hnot⟩
    · cases f <;> decide
    · cases f <;> decide
  · have hlength : 3 ≤ (name ++ "." ++ f.extension).length := by
      rw [List.length_append]
      exact Nat.le_trans hextension.1 (Nat.le_add_left _ _)
    have hplain : Path.IsPlain (name ++ "." ++ f.extension) := by
      refine ⟨?_, ?_, ?_, ?_⟩
      · intro heq
        exact absurd (heq ▸ hlength) (by decide)
      · intro heq
        exact absurd (heq ▸ hlength) (by decide)
      · intro heq
        exact absurd (heq ▸ hlength) (by decide)
      · rw [List.append_assoc, List.mem_append]
        exact not_or.mpr ⟨hname, hextension.2⟩
    exact ⟨_, hplain, Disk.parts_of_notMem hplain.1 hplain.2.2.2, fun _ => rfl⟩

end Names

/-- Whether a schema name leads out of the directory that it is joined to. -/
def Text.Path.Strays (directory schema : Text) : Prop :=
  schema = dotdot ∨ schema = [slash] ∧ directory = []

instance (directory schema : Text) : Decidable (Path.Strays directory schema) :=
  inferInstanceAs (Decidable (_ ∨ _))

namespace Disk

variable {directory schema : Text}

/-- A schema name that does not stray leads to its own directory, or nowhere. -/
theorem placeOf_joined_schema (hname : schema = [Path.slash] ∨ Path.slash ∉ schema)
    (h : ¬ Path.Strays directory schema) :
    placeOf (Path.joined [directory, schema]) =
      placeOf directory ++ if Path.IsPlain schema then [schema] else [] := by
  obtain ⟨hup, hroot⟩ := not_or.mp h
  have hrooted : directory ≠ [] ∨ Path.isRooted schema = false := by
    rcases hname with hname | hname
    · exact Or.inl fun hnil => hroot ⟨hname, hnil⟩
    · right
      cases schema with
      | nil => rfl
      | cons b rest => exact beq_eq_false_iff_ne.mpr fun heq => hname (heq ▸ List.mem_cons_self)
  rw [placeOf_joined hrooted]
  split
  · next hplain =>
      rw [parts_of_notMem hplain.1 hplain.2.2.2, List.foldl_cons, List.foldl_nil,
        Place.step_of_isPlain hplain]
  · next hplain =>
      have hstays : schema = [] ∨ schema = Path.dot ∨ schema = [Path.slash] := by
        unfold Path.IsPlain at hplain
        tauto
      rcases hstays with rfl | rfl | rfl
      · exact (List.append_nil _).symm
      · exact (List.append_nil _).symm
      · exact (List.append_nil _).symm

/-- From a name that strays no file below the directory is reached. -/
theorem not_isBelow_of_strays (hdown : IsDownward directory) (h : Path.Strays directory schema)
    (leaf : Text) :
    ¬ Place.IsBelow (placeOf directory) (placeOf (Path.joined [directory, schema]) ++ [leaf]) := by
  rintro ⟨⟨hinside, hle⟩, hne⟩
  rcases h with rfl | ⟨rfl, rfl⟩
  · have hparts := ne_of_mem_placeOf hdown
    rw [placeOf_joined (Or.inr rfl)] at hinside hle hne
    change (Place.parent (placeOf directory) ++ [leaf]).isInside = true at hinside
    change placeOf directory <+: Place.parent (placeOf directory) ++ [leaf] at hle
    change Place.parent (placeOf directory) ++ [leaf] ≠ placeOf directory at hne
    generalize placeOf directory = top at hparts hinside hle hne
    cases top with
    | nil => exact absurd hinside (by simp [Place.parent, Place.root, Place.isInside])
    | cons first rest =>
        obtain ⟨hup, hroot⟩ := hparts first List.mem_cons_self
        have hparent : Place.parent (first :: rest) = (first :: rest).dropLast := by
          simp [Place.parent, Place.root, hup, hroot]
        rw [hparent] at hle hne
        exact hne (hle.eq_of_length (by simp)).symm
  · have hplace : placeOf (Path.joined [[], [Path.slash]]) = Place.root := by decide
    rw [hplace] at hinside
    exact absurd hinside (by simp [Place.root, Place.isInside])

end Disk

namespace Built

variable {source : Source} {options : CompileOptions} {root : Text} {b : Built}

theorem schema_of_ofRoot (h : (ofRoot source options root).1 = .ok b) :
    (ofRoot source options root).2.schema = b.bundle.schema ∧
      b.bundle.schema = Source.schemaName root := by
  obtain ⟨p, m, hstages, _⟩ := stages_of_ofRoot h
  have hschema : b.bundle.schema = m.schema := by
    obtain ⟨_, _, hemit⟩ := bind_eq_ok_iff.mp hstages.emit_eq
    exact (congrArg Bundle.schema (Except.ok.inj hemit)).symm
  constructor
  · have hload : Program.load source root = (.ok p, (Program.load source root).2) := by
      rw [← hstages.load_eq]
    unfold ofRoot
    simp only [hstages.format_eq]
    rw [hload]
    simp only [ofProgram, hstages.resolve_eq, hschema]
  · have hfrom := Program.loadedFrom_of_load hstages.load_eq
    rw [hschema, Model.schema_eq hstages.resolve_eq, (hfrom.loaded.declares hfrom.root_mem).name_eq,
      hfrom.root_path]

/-- The file of output stands in the directory of output. -/
theorem exists_placeOf_path (options : CompileOptions) (b : Built)
    (hname : b.bundle.schema = [Path.slash] ∨ Path.slash ∉ b.bundle.schema) :
    ∃ leaf, Path.IsPlain leaf ∧
      Disk.placeOf (b.path options) = Disk.placeOf (b.directory options) ++ [leaf] ∧
      (Path.slash ∉ b.bundle.schema → leaf = b.bundle.schema ++ "." ++ b.format.extension) := by
  obtain ⟨leaf, hplain, hparts, hleaf⟩ := b.format.exists_leaf hname
  refine ⟨leaf, hplain, ?_, hleaf⟩
  have hrooted : b.directory options ≠ [] ∨
      Path.isRooted (b.bundle.schema ++ "." ++ b.format.extension) = false := by
    by_cases hnil : b.bundle.schema = []
    · right
      rw [hnil]
      rfl
    · left
      have hclean : Path.clean (b.directory options) = b.directory options :=
        Path.clean_joined (List.mem_cons_of_mem _ List.mem_cons_self) hnil
      rw [← hclean]
      exact Path.clean_ne_nil _
  rw [path, Disk.placeOf_joined hrooted, hparts, List.foldl_cons, List.foldl_nil,
    Place.step_of_isPlain hplain]

end Built

/-- What the path of a session has to do with the directory for output. It leads below the
directory unless the schema name strays, and just by way of the schema name if that is the name of
a directory. -/
structure Session.IsPlaced (r : Session) (directory : Text) (f : Format) : Prop where
  schema_eq : r.schema = Source.schemaName r.root
  clean : Path.clean r.path = r.path
  isBelow_iff : Place.IsBelow (Disk.placeOf directory) (Disk.placeOf r.path) ↔
    ¬ Path.Strays directory r.schema
  isNamed_iff : Place.IsBelow (Disk.placeOf directory) (Disk.placeOf r.path) ∧
      Disk.placeOf r.path =
        Disk.placeOf directory ++ [r.schema, r.schema ++ "." ++ f.extension] ↔
    Path.IsPlain r.schema

namespace Built

variable {options : CompileOptions} {b : Built}

section Placed

variable (hdown : Disk.IsDownward options.directory)
  (hname : b.bundle.schema = [Path.slash] ∨ Path.slash ∉ b.bundle.schema)

include hdown hname

/-- What is written for a schema name that does not stray lies below the directory for output. -/
theorem isBelow_path (h : ¬ Path.Strays options.directory b.bundle.schema) :
    Disk.IsDownward (b.directory options) ∧
      Place.IsWithin (Disk.placeOf options.directory) (Disk.placeOf (b.directory options)) ∧
      Place.IsBelow (Disk.placeOf options.directory) (Disk.placeOf (b.path options)) := by
  obtain ⟨leaf, hleaf, hpath, _⟩ := exists_placeOf_path options b hname
  have hdirectory := Disk.placeOf_joined_schema hname h
  have htop := Disk.ne_of_mem_placeOf hdown
  have hparts : ∀ part ∈ Disk.placeOf (b.directory options),
      part ≠ Path.dotdot ∧ part ≠ [Path.slash] := by
    intro part hpart
    rw [directory, hdirectory] at hpart
    rcases List.mem_append.mp hpart with hpart | hpart
    · exact htop part hpart
    · split at hpart
      · next hplain =>
          rw [List.mem_singleton.mp hpart]
          exact hplain.ne
      · cases hpart
  have hall : ∀ part ∈ Disk.placeOf (b.path options), part ≠ Path.dotdot ∧ part ≠ [Path.slash] := by
    rw [hpath, List.forall_mem_append, List.forall_mem_singleton]
    exact ⟨hparts, hleaf.ne⟩
  have hle : Disk.placeOf options.directory <+: Disk.placeOf (b.directory options) := by
    rw [directory, hdirectory]
    exact List.prefix_append _ _
  refine ⟨Disk.isDownward_joined hparts, ⟨Place.isInside_of_forall hparts, hle⟩,
    ⟨Place.isInside_of_forall hall, ?_⟩, ?_⟩
  · rw [hpath]
    exact hle.trans (List.prefix_append _ _)
  · intro heq
    have hlength := hle.length_le
    rw [← heq, hpath, List.length_append, List.length_singleton] at hlength
    omega

theorem isBelow_path_iff :
    Place.IsBelow (Disk.placeOf options.directory) (Disk.placeOf (b.path options)) ↔
      ¬ Path.Strays options.directory b.bundle.schema := by
  constructor
  · intro hbelow hstrays
    obtain ⟨leaf, _, hpath, _⟩ := exists_placeOf_path options b hname
    rw [hpath] at hbelow
    exact Disk.not_isBelow_of_strays hdown hstrays leaf hbelow
  · exact fun h => (isBelow_path hdown hname h).2.2

theorem isNamed_path_iff :
    Place.IsBelow (Disk.placeOf options.directory) (Disk.placeOf (b.path options)) ∧
        Disk.placeOf (b.path options) = Disk.placeOf options.directory ++
          [b.bundle.schema, b.bundle.schema ++ "." ++ b.format.extension] ↔
      Path.IsPlain b.bundle.schema := by
  obtain ⟨leaf, _, hpath, hleaf⟩ := exists_placeOf_path options b hname
  constructor
  · rintro ⟨hbelow, heq⟩
    have hstrays := (isBelow_path_iff hdown hname).mp hbelow
    by_contra hplain
    -- Without a directory of its own the file would stand a step higher.
    rw [hpath, directory, Disk.placeOf_joined_schema hname hstrays, if_neg hplain] at heq
    have hlength := congrArg List.length heq
    simp at hlength
  · intro hplain
    have hstrays : ¬ Path.Strays options.directory b.bundle.schema := by
      rintro (hup | ⟨hroot, _⟩)
      · exact hplain.ne.1 hup
      · exact hplain.ne.2 hroot
    refine ⟨(isBelow_path_iff hdown hname).mpr hstrays, ?_⟩
    rw [hpath, directory, Disk.placeOf_joined_schema hname hstrays, if_pos hplain,
      List.append_assoc, hleaf hplain.2.2.2]
    rfl

end Placed

end Built

namespace Service

variable {σ : Type} {env : Surroundings σ} {same : Place → σ → σ → Prop} {s : Service σ}

/-- Storing keeps to the directory for output. -/
theorem same_store (h : env.storage.Bounds same) {options : CompileOptions} {b : Built}
    (hdown : Disk.IsDownward options.directory)
    (hname : b.bundle.schema = [Path.slash] ∨ Path.slash ∉ b.bundle.schema)
    (hstrays : ¬ Path.Strays options.directory b.bundle.schema) (state : σ) :
    same (Disk.placeOf options.directory) state (store env.storage options b state).2 := by
  obtain ⟨hdirectory, hwithin, hbelow⟩ := Built.isBelow_path hdown hname hstrays
  have hmade := h.ensure state hdirectory hwithin
  have hstores := stores_store env.storage options b state
  generalize store env.storage options b state = stored at hstores
  cases hstores with
  | notMade hensure =>
      rw [hensure] at hmade
      exact hmade
  | @unwritten _ made _ hensure hwrite =>
      have hwritten := h.write b.output made hbelow.1
      rw [hensure] at hmade
      rw [hwrite] at hwritten
      exact h.trans hmade hwritten
  | @done _ made _ hensure hwrite =>
      have hwritten := h.write b.output made hbelow.1
      rw [hensure] at hmade
      rw [hwrite] at hwritten
      exact h.trans hmade hwritten

/-- Nothing but reading and storing changes the state. -/
theorem same_run (env : Surroundings σ) (h : env.storage.Bounds same)
    (hdown : Disk.IsDownward s.options.directory) (canceled : Bool) (root : Text)
    (hstrays : ¬ Path.Strays s.options.directory (run env true canceled root s).1.schema) :
    same (Disk.placeOf s.options.directory) s.state (run env true canceled root s).2.state := by
  have hconducts := conducts_run env true canceled root s
  have hread : same (Disk.placeOf s.options.directory) s.state
      (stateAfter env canceled (build env canceled root s).2.tried s.state) := by
    unfold stateAfter
    split
    · exact h.refl _ _
    · exact h.noteReads _ _ _
  rw [hconducts.schema_eq] at hstrays
  rw [hconducts.state_eq, conclude, built]
  cases hbuild : (build env canceled root s).1 with
  | error e => exact hread
  | ok b =>
      obtain ⟨hschema, hroot⟩ := Built.schema_of_ofRoot hbuild
      have hname : b.bundle.schema = [Path.slash] ∨ Path.slash ∉ b.bundle.schema :=
        hroot ▸ Source.schemaName_eq_slash_or _
      rw [build, hschema] at hstrays
      have hstored :=
        same_store (b := (env.arrange (s.started + 1)).present b) h hdown hname hstrays
      exact h.trans hread (hstored _)

theorem path_of_store {storage : Storage σ} {options : CompileOptions} {b : Built}
    {state state' : σ} {path : Text} {written : Bool}
    (h : store storage options b state = (.ok (path, written), state')) :
    path = b.path options := by
  have hstores := stores_store storage options b state
  rw [h] at hstores
  cases hstores with
  | done _ _ => rfl

theorem isPlaced_run (env : Surroundings σ) (hdown : Disk.IsDownward s.options.directory)
    (canceled : Bool) (root : Text)
    (hok : (run env true canceled root s).1.failure = none) :
    ∃ f, Registry.standard.lookup s.options.format = .ok f ∧
      (run env true canceled root s).1.IsPlaced s.options.directory f := by
  have hconducts := conducts_run env true canceled root s
  obtain ⟨d, hend, hdelivers⟩ := hconducts.ends.exists_delivery hok
  have hconclude : conclude env true canceled root s =
      (.ok d, (conclude env true canceled root s).2) := by
    rw [← hend]
  obtain ⟨rfl, hbuilt, hstore⟩ := conclude_eq_ok hconclude
  have hpath := path_of_store hstore
  obtain ⟨b, hbuild, hpresent⟩ := exists_of_built_eq_ok hbuilt
  obtain ⟨_, _, hstages, _⟩ := Built.stages_of_ofRoot hbuild
  obtain ⟨hschema, hroot⟩ := Built.schema_of_ofRoot hbuild
  have hname : b.bundle.schema = [Path.slash] ∨ Path.slash ∉ b.bundle.schema :=
    hroot ▸ Source.schemaName_eq_slash_or _
  have hshown : (run env true false root s).1.schema = b.bundle.schema :=
    hconducts.schema_eq.trans hschema
  rw [hpresent] at hpath
  refine ⟨b.format, hstages.format_eq, ?_⟩
  constructor
  · rw [hshown, hroot, hconducts.root_eq]
  · rw [hdelivers.path_eq, hpath]
    exact Built.clean_path s.options _
  · rw [hdelivers.path_eq, hpath, hshown]
    exact Built.isBelow_path_iff hdown hname
  · rw [hdelivers.path_eq, hpath, hshown]
    exact Built.isNamed_path_iff hdown hname

/-- How a session keeps to the directory for output: where its file is if it succeeds, and what it
leaves as it is if the schema name does not stray. -/
structure Confines (same : Place → σ → σ → Prop) (s : Service σ) (r : Session) (s' : Service σ) :
    Prop where
  isPlaced : r.failure = none → ∃ f, Registry.standard.lookup s.options.format = .ok f ∧
    r.IsPlaced s.options.directory f
  same_state : ¬ Path.Strays s.options.directory r.schema →
    same (Disk.placeOf s.options.directory) s.state s'.state

/-- A session that succeeds has written its file below the directory for output, unless the schema
name strays, and has named the file and its directory for the schema just if that is the name of a
directory. Whether it succeeds or not, a session whose schema name does not stray leaves all that
lies outside the directory as it is; on a disk it may have made the directories on the way
there. The order in which it gets the entries of maps does not matter. -/
theorem confines_of_run (identify : Nat → Text) (arrange : Nat → Arrangement) (canceled : Bool)
    (root : Text) :
    (∀ {s s' : Service Memory} {r}, Disk.IsDownward s.options.directory →
      run ⟨Storage.memory, identify, arrange⟩ true canceled root s = (r, s') →
        Confines Memory.SameOutside s r s') ∧
    ∀ {s s' : Service Disk} {r}, Disk.IsDownward s.options.directory →
      run ⟨Storage.disk, identify, arrange⟩ true canceled root s = (r, s') →
        Confines Disk.SameOutside s r s' := by
  constructor
  · intro s s' r hdown hrun
    have hplaced := isPlaced_run ⟨Storage.memory, identify, arrange⟩ hdown canceled root
    have hsame :=
      same_run ⟨Storage.memory, identify, arrange⟩ Storage.bounds_memory hdown canceled root
    rw [hrun] at hplaced hsame
    exact ⟨hplaced, hsame⟩
  · intro s s' r hdown hrun
    have hplaced := isPlaced_run ⟨Storage.disk, identify, arrange⟩ hdown canceled root
    have hsame := same_run ⟨Storage.disk, identify, arrange⟩ Storage.bounds_disk hdown canceled root
    rw [hrun] at hplaced hsame
    exact ⟨hplaced, hsame⟩

section Dotted

/-- A document whose base name is two dots before the extension, with the options that its output is
written by. -/
def dottedService {σ : Type} (state : List (Text × Text) → σ) : Service σ :=
  { state := state [("...yaml", "Constant N: 1\n")]
    options := { directory := "out", format := "json" }
    clock := ⟨0, 1⟩ }

/-- The session for it in memory. -/
def dottedMemory : Session × Service Memory :=
  run ⟨Storage.memory, fun _ => "s", fun _ => .asRead⟩ true false "...yaml"
    (dottedService fun documents => { library := .ofList documents })

/-- The session for it on a disk. -/
def dottedDisk : Session × Service Disk :=
  run ⟨Storage.disk, fun _ => "s", fun _ => .asRead⟩ true false "...yaml"
    (dottedService Disk.ofFiles)

theorem confines_of_run_dotted :
    (dottedMemory.1.failure = none ∧ dottedMemory.1.path = "...json" ∧
      dottedMemory.2.state.shelf.paths = ["...json"] ∧
      ¬ Place.IsBelow (Disk.placeOf "out") (Disk.placeOf "...json") ∧
      Confines Memory.SameOutside (dottedService fun documents => { library := .ofList documents })
        dottedMemory.1 dottedMemory.2) ∧
    dottedDisk.1.failure = none ∧ dottedDisk.1.path = "...json" ∧
      (dottedDisk.2.state.read "...json").isOk = true ∧
      Confines Disk.SameOutside (dottedService Disk.ofFiles) dottedDisk.1 dottedDisk.2 := by
  have hdown : Disk.IsDownward "out" := by decide
  have hmemory : dottedMemory.1.failure.isNone = true ∧ dottedMemory.1.path = "...json" ∧
      dottedMemory.2.state.shelf.paths = ["...json"] := by decide +kernel
  have hdisk : dottedDisk.1.failure.isNone = true ∧ dottedDisk.1.path = "...json" ∧
      (dottedDisk.2.state.read "...json").isOk = true := by decide +kernel
  have hconfines := confines_of_run (fun _ => "s") (fun _ => .asRead) false "...yaml"
  have hran : dottedMemory = (dottedMemory.1, dottedMemory.2) := (Prod.eta _).symm
  have hran' : dottedDisk = (dottedDisk.1, dottedDisk.2) := (Prod.eta _).symm
  exact ⟨⟨Option.isNone_iff_eq_none.mp hmemory.1, hmemory.2.1, hmemory.2.2, by decide,
      hconfines.1 hdown hran⟩,
    Option.isNone_iff_eq_none.mp hdisk.1, hdisk.2.1, hdisk.2.2, hconfines.2 hdown hran'⟩

end Dotted

end Service

end RecordSchema
