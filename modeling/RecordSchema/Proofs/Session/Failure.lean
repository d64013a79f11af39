import Mathlib.Data.List.Basic
import RecordSchema.App
import RecordSchema.Proofs.Outcome
import RecordSchema.Proofs.Session.Run
import RecordSchema.Proofs.Store.Disk

/-!
# Sessions that fail

A session reads, builds, makes a directory and writes one file. Whatever gets in its way, it leaves
the output files as they were if it fails, and only a session that succeeds has a bundle to show. A
session that only checks leaves the directories as well.
-/

namespace RecordSchema

open Text

section Output

variable {σ φ ω : Type}

/-- Views of a storage: `files` shows its output files with their contents, `output` these and the
directories. Reading documents is not seen in the output, making directories and failing to write
not in the files. -/
structure Storage.Shows (storage : Storage σ) (files : σ → φ) (output : σ → ω) : Prop where
  files_of_output : ∀ {s t}, output t = output s → files t = files s
  output_noteReads : ∀ paths s, output (storage.noteReads paths s) = output s
  files_ensure : ∀ directory s, files (storage.ensure directory s).2 = files s
  files_write : ∀ {path content s e t}, storage.write path content s = (.error e, t) →
    files t = files s

/-- What gets in the way of a session: documents that cannot be read, directories that cannot be
made and files that cannot be written. If the work is canceled at some point, that is everything
after it. -/
structure Hindrance where
  read : Text → Option ReadError := fun _ => none
  ensure : Text → Option OutputError := fun _ => none
  write : Text → Option OutputError := fun _ => none

/-- A storage with something in the way. -/
def Storage.hindered (h : Hindrance) (storage : Storage σ) : Storage σ where
  source s :=
    { storage.source s with
      read := fun path =>
        match h.read path with
        | some e => .error e
        | none => (storage.source s).read path }
  noteReads := storage.noteReads
  ensure directory s :=
    match h.ensure directory with
    | some e => (.error e, s)
    | none => storage.ensure directory s
  write path content s :=
    match h.write path with
    | some e => (.error e, s)
    | none => storage.write path content s

variable {storage : Storage σ} {files : σ → φ} {output : σ → ω}

theorem Storage.Shows.hindered (hview : storage.Shows files output) (h : Hindrance) :
    (storage.hindered h).Shows files output where
  files_of_output := hview.files_of_output
  output_noteReads := hview.output_noteReads
  files_ensure := by
    intro directory s
    simp only [Storage.hindered]
    cases h.ensure directory with
    | none => exact hview.files_ensure directory s
    | some e => rfl
  files_write := by
    intro path content s e t hwrite
    simp only [Storage.hindered] at hwrite
    cases hpath : h.write path with
    | none =>
        rw [hpath] at hwrite
        exact hview.files_write hwrite
    | some e' =>
        rw [hpath] at hwrite
        cases hwrite
        rfl

end Output

/-- Output in memory. -/
theorem Storage.shows_memory :
    memory.Shows (fun m => m.shelf.files) fun m => m.shelf where
  files_of_output := fun h => congrArg Shelf.files h
  output_noteReads := fun _ _ => rfl
  files_ensure := fun _ _ => rfl
  files_write := by
    intro path content m e t h
    unfold memory Shelf.write at h
    simp only at h
    split_ifs at h with hdirectory hsame
    · cases h
    · cases h
    · cases h
      rfl

namespace Disk

theorem allFiles_set_directory {d : Disk} {p : Place} (h : d.item? p = none) :
    (d.set p .directory).allFiles = d.allFiles := by
  have hnew : ∀ e ∈ d.items, (e.1 != p) = true := by
    unfold item? at h
    split_ifs at h
    intro e he
    rw [bne_iff_ne]
    intro heq
    exact absurd (List.lookup_eq_none_iff.mp h e he) (by simp [heq])
  rw [set, allFiles, allFiles, List.filter_eq_self.mpr hnew]
  rfl

theorem allFiles_makeDir {d d' : Disk} {path : Text} (h : d.makeDir path = .ok d') :
    d'.allFiles = d.allFiles := by
  obtain ⟨p, name, _, _, _, _, _, hnew, rfl⟩ := makeDir_eq_ok h
  exact allFiles_set_directory hnew

theorem allFiles_make (path : Text) (d : Disk) :
    (makeDirs.make path d).2.allFiles = d.allFiles := by
  unfold makeDirs.make
  split
  · next hmake => exact allFiles_makeDir hmake
  · split
    · rfl
    · rfl

/-- Directories are made beside the files, also where a later one is refused. -/
theorem allFiles_makeDirs (d : Disk) (path : Text) : (d.makeDirs path).2.allFiles = d.allFiles := by
  induction hlength : path.length using Nat.strongRecOn generalizing path with
  | ind length ih =>
      rw [makeDirs]
      split
      · rfl
      · rfl
      · split_ifs with hparent
        · exact allFiles_make path d
        · have hshorter := length_parentPath_lt hparent
          have habove := ih _ (hlength ▸ hshorter) (parentPath path) rfl
          split
          · next d' hmade =>
              rw [hmade] at habove
              exact (allFiles_make path d').trans habove
          · next e d' hmade =>
              rw [hmade] at habove
              exact habove

end Disk

/-- Output on a disk. -/
theorem Storage.shows_disk : disk.Shows Disk.allFiles id where
  files_of_output := fun h => congrArg Disk.allFiles h
  output_noteReads := fun _ _ => rfl
  files_ensure := by
    intro directory d
    have hmade := d.allFiles_makeDirs directory
    simp only [disk, Disk.ensure]
    rcases hrun : d.makeDirs directory with ⟨e | _, d'⟩
    · rw [hrun] at hmade
      exact hmade
    · rw [hrun] at hmade
      exact hmade
  files_write := by
    intro path content d e d' h
    have hwrites := d.writes_write path content
    simp only [disk] at h
    rw [h] at hwrites
    cases hwrites with
    | refused _ => rfl

namespace Service

variable {σ φ ω : Type} {storage : Storage σ} {files : σ → φ} {output : σ → ω}

theorem files_store (hview : storage.Shows files output) {options : CompileOptions} {b : Built}
    {state state' : σ} {e : SessionError} (h : store storage options b state = (.error e, state')) :
    files state' = files state := by
  have hmade := hview.files_ensure (b.directory options) state
  have hstores := stores_store storage options b state
  rw [h] at hstores
  cases hstores with
  | notMade hensure =>
      rw [hensure] at hmade
      exact hmade
  | unwritten hensure hwrite =>
      rw [hensure] at hmade
      exact (hview.files_write hwrite).trans hmade

theorem files_handOver {env : Surroundings σ} (hview : env.storage.Shows files output)
    {write : Bool} {options : CompileOptions} {state state' : σ} {built : Except SessionError Built}
    {e : SessionError} (h : handOver env write options state built = (.error e, state')) :
    files state' = files state := by
  cases built with
  | error e' =>
      cases h
      rfl
  | ok b =>
      cases write with
      | false => cases h
      | true =>
          obtain ⟨hmap, rfl⟩ := Prod.mk.inj h
          exact files_store hview (Prod.ext (map_eq_error_iff.mp hmap) rfl)

/-- A session that does not write leaves the state in which it has read. -/
theorem handOver_false (env : Surroundings σ) (options : CompileOptions) (state : σ)
    (built : Except SessionError Built) : (handOver env false options state built).2 = state := by
  cases built with
  | error e => rfl
  | ok b => rfl

theorem output_stateAfter {env : Surroundings σ} (hview : env.storage.Shows files output)
    (canceled : Bool) (tried : List Text) (state : σ) :
    output (stateAfter env canceled tried state) = output state := by
  unfold stateAfter
  cases canceled with
  | true => rfl
  | false => exact hview.output_noteReads tried state

/-- Whether a session that compiles leaves the files if it fails, and one that checks leaves all
output. What fails has nothing to show, and only that. -/
structure LeavesOutput (files : σ → φ) (output : σ → ω) (s : Service σ)
    (compiled checked : Session × Service σ) : Prop where
  files_eq : compiled.1.failure ≠ none → files compiled.2.state = files s.state
  isBlank : compiled.1.failure ≠ none → compiled.1.IsBlank
  exists_bundle : compiled.1.failure = none → ∃ b, compiled.1.bundle = some b
  output_checked : output checked.2.state = output s.state
  isBlank_checked : checked.1.failure ≠ none → checked.1.IsBlank

theorem leavesOutput_of_shows (hview : storage.Shows files output) (h : Hindrance)
    (identify : Nat → Text) (arrange : Nat → Arrangement) (canceled : Bool) (root : Text)
    (s : Service σ) :
    LeavesOutput files output s (run ⟨storage.hindered h, identify, arrange⟩ true canceled root s)
      (run ⟨storage.hindered h, identify, arrange⟩ false canceled root s) := by
  have hview' := hview.hindered h
  have hcompiled := conducts_run ⟨storage.hindered h, identify, arrange⟩ true canceled root s
  have hchecked := conducts_run ⟨storage.hindered h, identify, arrange⟩ false canceled root s
  constructor
  · intro hfailure
    obtain ⟨e, hend, _⟩ := hcompiled.ends.exists_error hfailure
    rw [hcompiled.state_eq]
    exact (files_handOver hview' (Prod.ext hend rfl)).trans
      (hview.files_of_output (output_stateAfter hview' canceled _ s.state))
  · intro hfailure
    obtain ⟨_, _, _, hblank⟩ := hcompiled.ends.exists_error hfailure
    exact hblank
  · intro hok
    obtain ⟨d, _, hdelivers⟩ := hcompiled.ends.exists_delivery hok
    exact ⟨d.built.bundle, hdelivers.bundle_eq⟩
  · rw [hchecked.state_eq, conclude, handOver_false]
    exact output_stateAfter hview' canceled _ s.state
  · intro hfailure
    obtain ⟨_, _, _, hblank⟩ := hchecked.ends.exists_error hfailure
    exact hblank

end Service

namespace App

variable {σ : Type}

/-- Writing the metrics changes the state and the log at most. -/
theorem writeMetrics_eq (machine : Machine σ) (a : App σ) :
    ∃ state log, writeMetrics machine a = { a with service := { a.service with state, log } } := by
  unfold writeMetrics
  simp only
  split
  · exact ⟨_, _, rfl⟩
  · split_ifs
    · exact ⟨_, _, rfl⟩
    · split
      · exact ⟨_, _, rfl⟩
      · exact ⟨_, _, rfl⟩

theorem browser_writeMetrics (machine : Machine σ) (a : App σ) :
    (writeMetrics machine a).browser = a.browser := by
  obtain ⟨state, log, h⟩ := writeMetrics_eq machine a
  rw [h]

/-- Whether a session of an application shows in its browser exactly when it succeeds. -/
structure Publishes (a : App σ) (session : Session) (a' : App σ) : Prop where
  browser_eq : session.failure ≠ none → a'.browser = a.browser
  current_eq : session.failure = none →
    ∃ b updated, session.bundle = some b ∧ a'.browser.current = some ⟨session.id, b, updated⟩

theorem publishes_run (machine : Machine σ) (write canceled : Bool) (root : Text) (a : App σ) :
    Publishes a (run machine write canceled root a).1 (run machine write canceled root a).2 := by
  have hends := (Service.conducts_run machine.toSurroundings write canceled root a.service).ends
  unfold run
  generalize Service.run machine.toSurroundings write canceled root a.service = ran at hends
  obtain ⟨session, service⟩ := ran
  simp only at hends ⊢
  constructor
  · intro hfailure
    rw [browser_writeMetrics]
    cases hcase : session.failure with
    | none => exact absurd hcase hfailure
    | some e => rfl
  · intro hok
    obtain ⟨d, _, hdelivers⟩ := hends.exists_delivery hok
    rw [browser_writeMetrics, hok, hdelivers.bundle_eq]
    exact ⟨d.built.bundle, _, rfl, rfl⟩

end App

/-- Sessions that fail change nothing that can be seen, in whatever order they get the entries of
maps. In memory and on a disk a session that fails leaves the output files with their contents and
has nothing to show, wherever it is hindered or canceled; one that only checks leaves the
directories as well. In an application the browser shows what it showed before, unless the session
succeeds. -/
theorem Service.leavesOutput_and_publishes (h : Hindrance) (identify : Nat → Text)
    (arrange : Nat → Arrangement) (canceled : Bool) (root : Text) :
    (∀ s : Service Memory, LeavesOutput (fun m => m.shelf.files) (fun m => m.shelf) s
        (run ⟨Storage.memory.hindered h, identify, arrange⟩ true canceled root s)
        (run ⟨Storage.memory.hindered h, identify, arrange⟩ false canceled root s)) ∧
      (∀ s : Service Disk, LeavesOutput Disk.allFiles id s
        (run ⟨Storage.disk.hindered h, identify, arrange⟩ true canceled root s)
        (run ⟨Storage.disk.hindered h, identify, arrange⟩ false canceled root s)) ∧
      ∀ {σ : Type} (machine : Machine σ) (write : Bool) (a : App σ),
        a.Publishes (App.run machine write canceled root a).1
          (App.run machine write canceled root a).2 := by
  refine ⟨fun s => ?_, fun s => ?_, fun machine write a => ?_⟩
  · exact leavesOutput_of_shows Storage.shows_memory h identify arrange canceled root s
  · exact leavesOutput_of_shows Storage.shows_disk h identify arrange canceled root s
  · exact App.publishes_run machine write canceled root a

/-- A document whose output is there already in an older form. -/
def stockedService : Service Memory :=
  { state :=
      { library := .ofList [("a.yaml", "Constant N: 3\nObject O:\n x: u8\n")]
        shelf := { files := [("out/a/a.json", "old")] } }
    options := { directory := "out", format := "json" }
    clock := ⟨0, 1⟩ }

/-- A session whose work is canceled between making the directory and writing the file. -/
def canceledLate : Session × Service Memory :=
  Service.run ⟨Storage.memory.hindered { write := fun _ => some .canceled }, fun _ => "s",
    fun _ => .backward⟩ true false "a.yaml" stockedService

theorem Service.leavesOutput_and_publishes_late :
    canceledLate.1.failure ≠ none ∧
      canceledLate.2.state.shelf.directories = [("out/a" : Text)] ∧
      canceledLate.2.state.shelf.files = stockedService.state.shelf.files ∧
      canceledLate.1.IsBlank := by
  have hran : canceledLate.1.failure.isSome = true ∧
      canceledLate.2.state.shelf.directories = [("out/a" : Text)] := by decide +kernel
  have hfailure : canceledLate.1.failure ≠ none := Option.isSome_iff_ne_none.mp hran.1
  have hleaves : LeavesOutput (fun m : Memory => m.shelf.files) (fun m => m.shelf) stockedService
      canceledLate _ :=
    (leavesOutput_and_publishes { write := fun _ => some .canceled } (fun _ => "s")
      (fun _ => .backward) false "a.yaml").1 stockedService
  exact ⟨hfailure, hran.2, hleaves.files_eq hfailure, hleaves.isBlank hfailure⟩

end RecordSchema
