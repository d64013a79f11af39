import RecordSchema.Proofs.Store.Disk
import RecordSchema.Store.Storage

/-!
# Output that is in place

Output that has been written stays until its own path is written again, and writing the same content
once more changes nothing. In memory contents are compared as they are, on a disk by digest.
-/

namespace RecordSchema

open Text

namespace Storage

variable {σ φ : Type}

/-- Whether something that holds in a storage goes on holding as long as no file is changed but
those that do not matter. -/
structure Retains (storage : Storage σ) (spare : Text → Prop) (P : σ → Prop) : Prop where
  noteReads : ∀ paths s, P s → P (storage.noteReads paths s)
  ensure : ∀ directory s, P s → P (storage.ensure directory s).2
  write : ∀ path content s, Path.clean path = path →
    ((storage.write path content s).1 = .ok true → spare path) → P s →
    P (storage.write path content s).2

/-- How output is found again: the text of a file, whether its directory is ready to be written to,
and which texts count as the same content. -/
structure View (σ : Type) where
  file? : Text → σ → Option Text
  ready : (directory path : Text) → σ → Prop
  same : Text → Text → Prop

/-- Whether a text is in place at a path. -/
def View.Holds (v : View σ) (directory path text : Text) (s : σ) : Prop :=
  v.ready directory path s ∧ v.file? path s = some text

/-- How a storage and a view of it go together. `files` shows what writing the same content again
leaves as it is. -/
structure Stocks (storage : Storage σ) (v : View σ) (files : σ → φ) : Prop where
  files_noteReads : ∀ paths s, files (storage.noteReads paths s) = files s
  retains : ∀ {directory path text}, Path.clean path = path →
    storage.Retains (· ≠ path) (v.Holds directory path text)
  exists_holds : ∀ {directory path content s made written t},
    storage.ensure directory s = (.ok (), made) →
      storage.write path content made = (.ok written, t) →
    ∃ text, v.Holds directory path text t ∧ v.same text content ∧ (written = true → text = content)
  write_again : ∀ {directory path text content s}, v.Holds directory path text s →
    v.same text content → ∃ made t, storage.ensure directory s = (.ok (), made) ∧
      storage.write path content made = (.ok false, t) ∧ v.file? path t = some text ∧
        files t = files s
  written_iff : ∀ {directory path text content s made written t}, v.Holds directory path text s →
    storage.ensure directory s = (.ok (), made) →
      storage.write path content made = (.ok written, t) →
    (written = true ↔ ¬ v.same text content)

/-- Whether a file that was changed could have been given any other content. -/
def IsIndifferent (storage : Storage σ) : Prop :=
  ∀ {path content s t}, storage.write path content s = (.ok true, t) →
    ∀ content', ∃ written t', storage.write path content' s = (.ok written, t')

end Storage

namespace Library

theorem documents_countReads (l : Library) (paths : List Text) :
    (l.countReads paths).documents = l.documents := by
  unfold countReads
  induction paths generalizing l with
  | nil => rfl
  | cons path rest ih =>
      rw [List.foldl_cons, ih]
      split
      · rfl
      · rfl

end Library

namespace Shelf

variable {s : Shelf} {path other text content : Text}

/-- Whether the directory of a file has been made. -/
def HasDirectory (s : Shelf) (path : Text) : Prop :=
  s.directories.contains (Path.dir (Path.clean path)) = true

theorem HasDirectory.ensure (h : s.HasDirectory path) (directory : Text) :
    (s.ensure directory).HasDirectory path := by
  unfold HasDirectory Shelf.ensure at *
  rw [List.contains_cons, h, Bool.or_true]

/-- What writing does: the directory is missing, the file has the content, or it is set. -/
inductive Writes (path content : Text) (s : Shelf) : Except OutputError Bool × Shelf → Prop where
  | refused (e : OutputError) : Writes path content s (.error e, s)
  | unchanged (hdirectory : s.HasDirectory path) (hfile : s.file? path = some content) :
      Writes path content s (.ok false, s)
  | set (hdirectory : s.HasDirectory path) (hchanged : s.file? path ≠ some content) :
      Writes path content s
        (.ok true, { s with files := Keyed.set (Path.clean path) content s.files })

theorem writes_write (s : Shelf) (path content : Text) :
    Writes path content s (s.write path content) := by
  unfold write
  simp only
  split_ifs with hdirectory hfile
  · exact .unchanged hdirectory hfile
  · exact .set hdirectory hfile
  · exact .refused _

theorem HasDirectory.exists_write (h : s.HasDirectory path) (content : Text) :
    ∃ written t, s.write path content = (.ok written, t) := by
  unfold HasDirectory at h
  simp only [write, if_pos h]
  split
  · exact ⟨_, _, rfl⟩
  · exact ⟨_, _, rfl⟩

theorem write_of_file? (hdirectory : s.HasDirectory path) (hfile : s.file? path = some content) :
    s.write path content = (.ok false, s) := by
  unfold HasDirectory at hdirectory
  unfold file? at hfile
  simp only [write, if_pos hdirectory, if_pos hfile]

end Shelf

/-- Output in memory. -/
def Memory.view : Storage.View Memory where
  file? path m := m.shelf.file? path
  ready _ path m := m.shelf.HasDirectory path
  same text content := text = content

theorem Storage.stocks_memory : memory.Stocks Memory.view fun m => m.shelf.files where
  files_noteReads := fun _ _ => rfl
  retains := by
    intro directory path text hclean
    constructor
    · exact fun _ _ h => h
    · exact fun other _ h => ⟨h.1.ensure other, h.2⟩
    · rintro other content ⟨library, shelf⟩ hother hwritten h
      simp only [memory] at hwritten ⊢
      have hwrites := shelf.writes_write other content
      generalize shelf.write other content = result at hwrites hwritten
      cases hwrites with
      | refused e => exact h
      | unchanged _ _ => exact h
      | set _ =>
          have hne : Path.clean path ≠ Path.clean other := by
            rw [hclean, hother]
            exact (hwritten rfl).symm
          exact ⟨h.1, (Keyed.lookup_set_of_ne hne content shelf.files).trans h.2⟩
  exists_holds := by
    intro directory path content m made written t _ hwrite
    obtain ⟨library, shelf⟩ := made
    simp only [memory] at hwrite
    have hwrites := shelf.writes_write path content
    generalize shelf.write path content = result at hwrites hwrite
    cases hwrites with
    | refused e => cases hwrite
    | unchanged hdirectory hfile =>
        cases hwrite
        exact ⟨content, ⟨hdirectory, hfile⟩, rfl, fun _ => rfl⟩
    | set hdirectory =>
        cases hwrite
        exact ⟨content, ⟨hdirectory, Keyed.lookup_set_self _ _ _⟩, rfl, fun _ => rfl⟩
  write_again := by
    rintro directory path text _ ⟨library, shelf⟩ ⟨hdirectory, hfile⟩ rfl
    refine ⟨_, ⟨library, shelf.ensure directory⟩, rfl, ?_, hfile, rfl⟩
    simp only [memory]
    rw [Shelf.write_of_file? (hdirectory.ensure directory) hfile]
  written_iff := by
    rintro directory path text content ⟨library, shelf⟩ _ written t ⟨_, hfile⟩ ⟨⟩ hwrite
    have hfile' : (shelf.ensure directory).file? path = some text := hfile
    simp only [memory] at hwrite
    have hwrites := (shelf.ensure directory).writes_write path content
    generalize (shelf.ensure directory).write path content = result at hwrites hwrite
    cases hwrites with
    | refused e => cases hwrite
    | unchanged _ hsame =>
        cases hwrite
        exact iff_of_false Bool.false_ne_true fun h => h (Option.some.inj (hfile'.symm.trans hsame))
    | set _ hchanged =>
        cases hwrite
        exact iff_of_true rfl fun hsame => hchanged (hfile'.trans (congrArg some hsame))

theorem Storage.isIndifferent_memory : memory.IsIndifferent := by
  rintro path content ⟨library, shelf⟩ t hwrite content'
  simp only [memory] at hwrite ⊢
  have hwrites := shelf.writes_write path content
  generalize shelf.write path content = result at hwrites hwrite
  cases hwrites with
  | refused e => cases hwrite
  | unchanged _ _ => cases hwrite
  | set hdirectory _ =>
      obtain ⟨written, shelf', hwrite'⟩ := hdirectory.exists_write content'
      exact ⟨written, ⟨library, shelf'⟩, by rw [hwrite']⟩

/-- Output on a disk. -/
def Disk.view : Storage.View Disk where
  file? path d := (d.read path).toOption
  ready directory _ d := d.stat directory = .ok .directory
  same text content := Digest.ofText text = Digest.ofText content

namespace Disk

variable {d d' : Disk} {directory path text content : Text} {place : Place}

theorem holds_view_iff : view.Holds directory path text d ↔
    d.stat directory = .ok .directory ∧ d.read path = .ok text := by
  simp only [Storage.View.Holds, view]
  constructor
  · exact fun ⟨hready, hfile⟩ => ⟨hready, eq_ok_of_toOption_eq_some hfile⟩
  · rintro ⟨hready, hfile⟩
    exact ⟨hready, by rw [hfile]; rfl⟩

theorem holds_of_keepsBut (h : d.KeepsBut place d') (hplace : placeOf path ≠ place)
    (hd : view.Holds directory path text d) : view.Holds directory path text d' := by
  rw [holds_view_iff] at hd ⊢
  exact ⟨stat_of_keepsBut h (Or.inr rfl) hd.1, read_of_keepsBut h hplace hd.2⟩

theorem keeps_ensure (d : Disk) (directory : Text) : d.Keeps (d.ensure directory).2 := by
  have hkeeps := d.keeps_makeDirs directory
  unfold ensure
  generalize d.makeDirs directory = made at hkeeps
  obtain ⟨e | _, d'⟩ := made
  · exact hkeeps
  · exact hkeeps

theorem stat_ensure (h : d.ensure directory = (.ok (), d')) :
    d'.stat directory = .ok .directory := by
  unfold ensure at h
  rcases hmade : d.makeDirs directory with ⟨e | _, made⟩
  · simp only [hmade] at h
    cases h
  · simp only [hmade] at h
    cases h
    exact stat_makeDirs hmade

/-- A file that is replaced is read first, which works with any content. -/
theorem exists_write (h : d.write path content = (.ok true, d')) (content' : Text) :
    ∃ written d'', d.write path content' = (.ok written, d'') := by
  have hreplace : ∃ replaced,
      d.replace ("." ++ Path.base path ++ ".*") path content' = .ok replaced := by
    unfold write at h
    simp only at h
    split at h
    · cases h
    · cases h
    · split at h
      · next hreplace => exact exists_replace hreplace content'
      · cases h
  obtain ⟨replaced, hreplace⟩ := hreplace
  unfold write at h ⊢
  simp only [hreplace] at h ⊢
  cases hread : d.read path with
  | ok old =>
      simp only
      cases Digest.ofText old == Digest.ofText content' with
      | true => exact ⟨_, _, rfl⟩
      | false => exact ⟨_, _, rfl⟩
  | error e =>
      simp only [hread] at h ⊢
      split_ifs at h ⊢ with hmissing
      · exact ⟨_, _, rfl⟩
      · cases h

/-- A directory that is there is not made again. -/
theorem ensure_of_stat (h : d.stat directory = .ok .directory) :
    d.ensure directory = (.ok (), d) := by
  rw [ensure, makeDirs, h]

end Disk

theorem Storage.stocks_disk : disk.Stocks Disk.view id where
  files_noteReads := fun _ _ => rfl
  retains := by
    intro directory path text hclean
    constructor
    · exact fun _ _ h => h
    · intro other d h
      -- Making directories keeps every item, so any place but that of the file will do.
      have hplace : Disk.placeOf path ≠ Disk.placeOf path ++ [[]] := by simp
      exact Disk.holds_of_keepsBut ((d.keeps_ensure other).but _) hplace h
    · intro other content d hother hwritten h
      simp only [disk] at hwritten ⊢
      have hwrites := d.writes_write other content
      generalize d.write other content = result at hwrites hwritten
      cases hwrites with
      | refused e => exact h
      | unchanged _ _ => exact h
      | replaced hreplace =>
          have hplace : Disk.placeOf path ≠ Disk.placeOf other :=
            fun heq => hwritten rfl (Disk.eq_of_placeOf_eq hother hclean heq.symm)
          exact Disk.holds_of_keepsBut (Disk.keepsBut_replace hreplace) hplace h
  exists_holds := by
    intro directory path content d made written t hensure hwrite
    have hready := Disk.stat_ensure hensure
    simp only [disk] at hwrite
    have hwrites := made.writes_write path content
    generalize made.write path content = result at hwrites hwrite
    cases hwrites with
    | refused e => cases hwrite
    | unchanged hread hdigest =>
        cases hwrite
        exact ⟨_, Disk.holds_view_iff.mpr ⟨hready, hread⟩, hdigest, by rintro ⟨⟩⟩
    | replaced hreplace =>
        cases hwrite
        have hkept := Disk.stat_of_keepsBut (Disk.keepsBut_replace hreplace) (Or.inr rfl) hready
        exact ⟨content, Disk.holds_view_iff.mpr ⟨hkept, Disk.read_replace hreplace⟩, rfl,
          fun _ => rfl⟩
  write_again := by
    intro directory path text content d hd hsame
    obtain ⟨hready, hread⟩ := Disk.holds_view_iff.mp hd
    refine ⟨d, d, Disk.ensure_of_stat hready, ?_, hd.2, rfl⟩
    simp only [disk, Disk.write, hread]
    rw [beq_iff_eq.mpr hsame]
  written_iff := by
    intro directory path text content d made written t hd hensure hwrite
    obtain ⟨hready, hread⟩ := Disk.holds_view_iff.mp hd
    simp only [disk] at hensure hwrite
    rw [Disk.ensure_of_stat hready] at hensure
    cases hensure
    have hwrites := d.writes_write path content
    generalize d.write path content = result at hwrites hwrite
    cases hwrites with
    | refused e => cases hwrite
    | unchanged hread' hdigest =>
        cases hwrite
        cases hread.symm.trans hread'
        exact iff_of_false Bool.false_ne_true fun h => h hdigest
    | replaced _ hchanged =>
        cases hwrite
        exact iff_of_true rfl (hchanged text hread)

theorem Storage.isIndifferent_disk : disk.IsIndifferent := by
  intro path content d d' hwrite content'
  exact Disk.exists_write hwrite content'

end RecordSchema
