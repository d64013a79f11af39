import Mathlib.Data.List.TakeWhile
import RecordSchema.Proofs.Store.Output

/-!
# Keeping to a directory

A path that is joined from two leads on from where the first one leads. Making a directory makes
only directories on the way to it, and writing a file changes that file alone. What lies outside a
directory therefore stays as it is while paths within it are made and written, except that on a disk
the directories on the way to it are made as well.
-/

namespace RecordSchema

open Text

theorem Text.splitOn_append (sep : UInt8) (t rest : Text) :
    splitOn sep (t ++ sep :: rest) = splitOn sep t ++ splitOn sep rest := by
  induction t with
  | nil => simp [splitOn]
  | cons b more ih =>
      rw [List.cons_append, splitOn, splitOn, ih]
      split
      · rfl
      · cases hsplit : splitOn sep more with
        | nil => exact absurd hsplit (splitOn_ne_nil sep more)
        | cons part parts => rfl

/-- Whether a text can be the name of a file or of a directory. -/
def Text.Path.IsPlain (name : Text) : Prop := name ≠ [] ∧ name ≠ dot ∧ name ≠ dotdot ∧ slash ∉ name

instance (name : Text) : Decidable (Path.IsPlain name) := inferInstanceAs (Decidable (_ ∧ _))

theorem Text.Path.IsPlain.ne {name : Text} (h : IsPlain name) : name ≠ dotdot ∧ name ≠ [slash] := by
  refine ⟨h.2.2.1, ?_⟩
  rintro rfl
  exact h.2.2.2 List.mem_cons_self

namespace Place

/-- Whether a place is a directory or lies in it, the working directory being the highest one. -/
def IsWithin (top p : Place) : Prop := p.isInside = true ∧ top <+: p

/-- Whether a place lies in a directory. -/
def IsBelow (top p : Place) : Prop := IsWithin top p ∧ p ≠ top

instance (top p : Place) : Decidable (IsWithin top p) := inferInstanceAs (Decidable (_ ∧ _))

instance (top p : Place) : Decidable (IsBelow top p) := inferInstanceAs (Decidable (_ ∧ _))

variable {top p q : Place}

theorem isInside_iff :
    p.isInside = true ↔ ∀ part ∈ p.head?, part ≠ Path.dotdot ∧ part ≠ [Path.slash] := by
  cases p with
  | nil => simp [isInside]
  | cons part rest => simp [isInside]

theorem isInside_of_forall (h : ∀ part ∈ p, part ≠ Path.dotdot ∧ part ≠ [Path.slash]) :
    p.isInside = true :=
  isInside_iff.mpr fun part hpart => h part (List.mem_of_mem_head? hpart)

theorem isInside_of_isPrefix (h : p <+: q) (hq : q.isInside = true) : p.isInside = true := by
  obtain ⟨rest, rfl⟩ := h
  cases p with
  | nil => rfl
  | cons part more => exact hq

/-- Of the places on the way to one that is within a directory, those within it are not on the way
to the directory itself. -/
theorem isPrefix_of_not_isWithin (hp : p <+: q) (hq : IsWithin top q) (h : ¬ IsWithin top p) :
    p <+: top := by
  rcases List.prefix_or_prefix_of_prefix hp hq.2 with hle | hle
  · exact hle
  · exact absurd ⟨isInside_of_isPrefix hp hq.1, hle⟩ h

theorem step_of_isPlain {name : Text} (h : Path.IsPlain name) (p : Place) :
    p.step name = p ++ [name] := by
  rw [step, if_neg h.2.1, if_neg h.2.2.1]

end Place

namespace Disk

variable {path rest name : Text}

section Paths

theorem parts_append (path rest : Text) :
    parts (path ++ Path.slash :: rest) = parts path ++ parts rest := by
  rw [parts, splitOn_append, List.filter_append]
  rfl

theorem parts_of_notMem (hne : name ≠ []) (h : Path.slash ∉ name) : parts name = [name] := by
  rw [parts, splitOn_of_notMem h, List.filter_cons_of_pos (by simpa using hne), List.filter_nil]

theorem placeOf_clean (path : Text) : placeOf (Path.clean path) = placeOf path := by
  rw [placeOf, Path.isRooted_clean, Path.components_clean, placeOf]

/-- A joined path leads on from the place of the first one. -/
theorem placeOf_joined (h : path ≠ [] ∨ Path.isRooted rest = false) :
    placeOf (Path.joined [path, rest]) = (parts rest).foldl Place.step (placeOf path) := by
  by_cases hpath : path = []
  · have hrooted := h.resolve_left fun hne => hne hpath
    subst hpath
    by_cases hrest : rest = []
    · subst hrest
      decide
    · have hjoined : Path.joined [[], rest] = Path.clean rest := by
        simp [Path.joined, hrest, join]
      have horigin : origin rest = [] := by
        rw [origin, hrooted]
        rfl
      rw [hjoined, placeOf_clean, ← foldl_step_parts, horigin]
      rfl
  · by_cases hrest : rest = []
    · have hjoined : Path.joined [path, rest] = Path.clean path := by
        simp [Path.joined, hpath, hrest, join]
      rw [hjoined, placeOf_clean, hrest]
      rfl
    · have hjoined : Path.joined [path, rest] = Path.clean (path ++ Path.slash :: rest) := by
        simp [Path.joined, hpath, hrest, join]
      have horigin : origin (path ++ Path.slash :: rest) = origin path := by
        cases path with
        | nil => exact absurd rfl hpath
        | cons b more => rfl
      rw [hjoined, placeOf_clean, ← foldl_step_parts, horigin, parts_append, List.foldl_append,
        foldl_step_parts]

/-- Whether a path starts at the working directory and no part of it leads up. -/
def IsDownward (path : Text) : Prop := Path.isRooted path = false ∧ Path.dotdot ∉ parts path

instance (path : Text) : Decidable (IsDownward path) := inferInstanceAs (Decidable (_ ∧ _))

theorem placeOf_of_isDownward (h : IsDownward path) :
    placeOf path = (parts path).filter (· ≠ Path.dot) := by
  have hfold : ∀ (names : List Text) (p : Place), Path.dotdot ∉ names →
      names.foldl Place.step p = p ++ names.filter (· ≠ Path.dot) := by
    intro names
    induction names with
    | nil => exact fun p _ => (List.append_nil p).symm
    | cons part more ih =>
        intro p hup
        obtain ⟨hpart, hmore⟩ := List.ne_and_not_mem_of_not_mem_cons hup
        rw [List.foldl_cons, ih _ hmore]
        by_cases hdot : part = Path.dot
        · rw [Place.step, if_pos hdot, List.filter_cons_of_neg (by simpa using hdot)]
        · rw [Place.step, if_neg hdot, if_neg (Ne.symm hpart),
            List.filter_cons_of_pos (by simpa using hdot), List.append_assoc, List.singleton_append]
  rw [← foldl_step_parts, hfold _ _ h.2, origin, h.1]
  rfl

theorem ne_of_mem_placeOf (h : IsDownward path) :
    ∀ part ∈ placeOf path, part ≠ Path.dotdot ∧ part ≠ [Path.slash] := by
  rw [placeOf_of_isDownward h]
  intro part hpart
  have hmem := List.mem_of_mem_filter hpart
  constructor
  · rintro rfl
    exact h.2 hmem
  · rintro rfl
    exact notMem_of_mem_splitOn (List.mem_of_mem_filter hmem) List.mem_cons_self

theorem mem_parts_clean {part : Text} (hrooted : Path.isRooted path = false)
    (h : part ∈ parts (Path.clean path)) : part = Path.dot ∨ part ∈ placeOf path := by
  have hslash := Path.slash_notMem_of_isStack (Path.isStack_components path)
  rw [Path.clean, hrooted, Path.ofComponents, if_neg Bool.false_ne_true] at h
  split at h
  · exact Or.inl (List.mem_singleton.mp h)
  · next hne =>
      rw [parts, splitOn_join hne hslash] at h
      exact Or.inr (List.mem_append_right _ (List.mem_of_mem_filter h))

/-- A joined path is downward if all the names of its place are. -/
theorem isDownward_joined
    (h : ∀ part ∈ placeOf (Path.joined [path, rest]), part ≠ Path.dotdot ∧ part ≠ [Path.slash]) :
    IsDownward (Path.joined [path, rest]) := by
  by_cases hempty : path = [] ∧ rest = []
  · rw [hempty.1, hempty.2]
    decide
  · have hclean : Path.clean (Path.joined [path, rest]) = Path.joined [path, rest] := by
      by_cases hpath : path = []
      · exact Path.clean_joined (List.mem_cons_of_mem _ List.mem_cons_self) fun hrest =>
          hempty ⟨hpath, hrest⟩
      · exact Path.clean_joined List.mem_cons_self hpath
    have hrooted : Path.isRooted (Path.joined [path, rest]) = false := by
      rw [Bool.eq_false_iff]
      intro hrooted
      exact (h _ (slash_mem_placeOf_iff.mpr hrooted)).2 rfl
    refine ⟨hrooted, fun hup => ?_⟩
    rw [← hclean] at hup
    rcases mem_parts_clean hrooted hup with hdot | hmem
    · exact absurd hdot (by decide)
    · exact (h _ hmem).1 rfl

theorem parts_append_slashes (path slashes : Text) (h : ∀ b ∈ slashes, b = Path.slash) :
    parts (path ++ slashes) = parts path := by
  induction slashes generalizing path with
  | nil => rw [List.append_nil]
  | cons b more ih =>
      obtain ⟨rfl, hmore⟩ := List.forall_mem_cons.mp h
      rw [List.append_cons, ih _ hmore, parts_append]
      exact List.append_nil _

/-- A path is its last part and slashes after it, or has the path above it and a slash in front of
them. -/
theorem exists_parentPath (path : Text) :
    ∃ last slashes, Path.slash ∉ last ∧ (∀ b ∈ slashes, b = Path.slash) ∧
      ((path = last ++ slashes ∧ parentPath path = []) ∨
        last ≠ [] ∧ path = parentPath path ++ Path.slash :: last ++ slashes) := by
  have hslashes : ∀ b ∈ (path.reverse.takeWhile (· == Path.slash)).reverse, b = Path.slash := by
    intro b hb
    simpa using List.mem_takeWhile_imp (List.mem_reverse.mp hb)
  have hpath := List.takeWhile_append_dropWhile (p := (· == Path.slash)) (l := path.reverse)
  have hfirst := List.head?_dropWhile_not (· == Path.slash) path.reverse
  rw [parentPath]
  generalize path.reverse.takeWhile (· == Path.slash) = slashes at hslashes hpath
  generalize path.reverse.dropWhile (· == Path.slash) = r at hpath hfirst ⊢
  -- Read from its end, the path goes on with the last part up to the next slash.
  have hlast : Path.slash ∉ (r.takeWhile (· != Path.slash)).reverse := by
    intro hmem
    simpa using List.mem_takeWhile_imp (List.mem_reverse.mp hmem)
  have hr := List.takeWhile_append_dropWhile (p := (· != Path.slash)) (l := r)
  have hnext := List.head?_dropWhile_not (· != Path.slash) r
  generalize r.takeWhile (· != Path.slash) = last at hlast hr
  generalize r.dropWhile (· != Path.slash) = above at hr hnext ⊢
  subst hr
  rw [← List.reverse_reverse path, ← hpath]
  refine ⟨last.reverse, slashes.reverse, hlast, hslashes, ?_⟩
  cases above with
  | nil => exact Or.inl ⟨by simp, rfl⟩
  | cons b above =>
      obtain rfl : b = Path.slash := by simpa using hnext
      refine Or.inr ⟨?_, by simp⟩
      rintro hnil
      simp [List.reverse_eq_nil_iff.mp hnil] at hfirst

/-- The path above a path has all its parts but the last. -/
theorem parts_parentPath (path : Text) : parts (parentPath path) = (parts path).dropLast := by
  obtain ⟨last, slashes, hlast, hslashes, ⟨hpath, hparent⟩ | ⟨hne, hpath⟩⟩ := exists_parentPath path
  · rw [hparent, hpath, parts_append_slashes _ _ hslashes]
    by_cases hnil : last = []
    · rw [hnil]
      rfl
    · rw [parts_of_notMem hnil hlast]
      rfl
  · conv_rhs =>
      rw [hpath, parts_append_slashes _ _ hslashes, parts_append, parts_of_notMem hne hlast,
        List.dropLast_concat]

theorem IsDownward.parentPath (h : IsDownward path) : IsDownward (parentPath path) := by
  constructor
  · obtain ⟨last, slashes, _, _, ⟨_, hparent⟩ | ⟨_, hpath⟩⟩ := exists_parentPath path
    · rw [hparent]
      rfl
    · have hrooted := h.1
      rw [hpath] at hrooted
      cases habove : Disk.parentPath path with
      | nil => rfl
      | cons b above =>
          rw [habove] at hrooted
          exact hrooted
  · rw [parts_parentPath]
    exact fun hmem => h.2 (List.dropLast_subset _ hmem)

theorem placeOf_parentPath (h : IsDownward path) : placeOf (parentPath path) <+: placeOf path := by
  rw [placeOf_of_isDownward h, placeOf_of_isDownward h.parentPath, parts_parentPath]
  exact (List.dropLast_prefix _).filter _

end Paths

section Directories

variable {d d' d'' : Disk} {way way' top p : Place}

/-- A directory that has been made is at the place of its path, where nothing was before. -/
theorem makeDir_eq_set (h : d.makeDir path = .ok d') :
    d.item? (placeOf path) = none ∧ d' = d.set (placeOf path) .directory := by
  obtain ⟨p, name, _, hname, hp, ⟨hdot, hdotdot⟩, _, hnew, rfl⟩ := makeDir_eq_ok h
  have hplace : placeOf path = p ++ [name] := by
    rw [← foldl_step_parts, ← List.dropLast_append_getLast? name hname, descend_eq_ok hp,
      List.foldl_append, List.foldl_append]
    simp only [List.foldl_cons, List.foldl_nil, Place.step, if_neg hdot, if_neg hdotdot, if_true]
  rw [hplace]
  exact ⟨hnew, rfl⟩

/-- Whether a disk differs from another one in new directories alone that lie on the way to a
place. -/
def MakesWay (way : Place) (d d' : Disk) : Prop :=
  ∀ p, d'.item? p = d.item? p ∨ p <+: way ∧ d.item? p = none ∧ d'.item? p = some .directory

theorem MakesWay.refl (way : Place) (d : Disk) : MakesWay way d d := fun _ => Or.inl rfl

theorem MakesWay.trans (h : MakesWay way d d') (hle : way <+: way') (h' : MakesWay way' d' d'') :
    MakesWay way' d d'' := by
  intro p
  rcases h p with heq | ⟨hp, hnone, hmade⟩
  · rw [← heq]
    exact h' p
  · rcases h' p with heq' | ⟨_, hnone', _⟩
    · exact Or.inr ⟨hp.trans hle, hnone, heq'.trans hmade⟩
    · cases hmade.symm.trans hnone'

theorem makesWay_make (path : Text) (d : Disk) :
    MakesWay (placeOf path) d (makeDirs.make path d).2 := by
  unfold makeDirs.make
  split
  · next d' hmake =>
      obtain ⟨hnew, rfl⟩ := makeDir_eq_set hmake
      intro p
      by_cases hp : p = placeOf path
      · have hground : (placeOf path).isGround = false := by
          rw [Bool.eq_false_iff]
          intro hground
          simp [item?, hground] at hnew
        rw [hp]
        exact Or.inr ⟨List.prefix_refl _, hnew, item?_set_self d hground _⟩
      · exact Or.inl (item?_set_of_ne d hp _)
  · split
    · exact .refl _ d
    · exact .refl _ d

theorem makesWay_makeDirs (d : Disk) (h : IsDownward path) :
    MakesWay (placeOf path) d (d.makeDirs path).2 := by
  induction hlength : path.length using Nat.strongRecOn generalizing path with
  | ind length ih =>
      rw [makeDirs]
      split
      · exact .refl _ d
      · exact .refl _ d
      · split_ifs with hparent
        · exact makesWay_make path d
        · have hway := placeOf_parentPath h
          have habove := ih _ (hlength ▸ length_parentPath_lt hparent) h.parentPath rfl
          split
          · next d' hmade =>
              rw [hmade] at habove
              exact habove.trans hway (makesWay_make path d')
          · next e d' hmade =>
              rw [hmade] at habove
              exact habove.trans hway (.refl _ d')

/-- Whether a disk is the same as another one outside a directory, apart from new directories on
the way to it. -/
def SameOutside (top : Place) (d d' : Disk) : Prop :=
  ∀ p, ¬ Place.IsWithin top p →
    d'.item? p = d.item? p ∨ p <+: top ∧ d.item? p = none ∧ d'.item? p = some .directory

theorem MakesWay.sameOutside (h : MakesWay way d d') (hway : Place.IsWithin top way) :
    SameOutside top d d' := by
  intro p hp
  exact (h p).imp_right fun hmade => ⟨Place.isPrefix_of_not_isWithin hmade.1 hway hp, hmade.2⟩

end Directories

end Disk

/-- Whether memory is the same outside a directory. -/
structure Memory.SameOutside (top : Place) (m m' : Memory) : Prop where
  documents_eq : m'.library.documents = m.library.documents
  file_eq : ∀ path, ¬ Place.IsWithin top (Disk.placeOf path) →
    m'.shelf.file? path = m.shelf.file? path
  directory_iff : ∀ path, ¬ Place.IsWithin top (Disk.placeOf path) →
    (Path.clean path ∈ m'.shelf.directories ↔ Path.clean path ∈ m.shelf.directories)

/-- Whether what lies outside a directory stays the same in a storage while paths within it are
made and written. -/
structure Storage.Bounds {σ : Type} (storage : Storage σ) (same : Place → σ → σ → Prop) : Prop where
  refl : ∀ top s, same top s s
  trans : ∀ {top s s' s''}, same top s s' → same top s' s'' → same top s s''
  noteReads : ∀ top paths s, same top s (storage.noteReads paths s)
  ensure : ∀ {top directory} s, Disk.IsDownward directory →
    Place.IsWithin top (Disk.placeOf directory) → same top s (storage.ensure directory s).2
  write : ∀ {top path} content s, Place.IsWithin top (Disk.placeOf path) →
    same top s (storage.write path content s).2

theorem Storage.bounds_memory : memory.Bounds Memory.SameOutside where
  refl := fun _ _ => ⟨rfl, fun _ _ => rfl, fun _ _ => Iff.rfl⟩
  trans := by
    intro top s s' s'' h h'
    refine ⟨h'.documents_eq.trans h.documents_eq, fun path hpath => ?_, fun path hpath => ?_⟩
    · exact (h'.file_eq path hpath).trans (h.file_eq path hpath)
    · exact (h'.directory_iff path hpath).trans (h.directory_iff path hpath)
  noteReads := fun _ paths m =>
    ⟨m.library.documents_countReads paths, fun _ _ => rfl, fun _ _ => Iff.rfl⟩
  ensure := by
    intro top directory m _ hwithin
    refine ⟨rfl, fun _ _ => rfl, fun path hpath => ?_⟩
    have hne : Path.clean path ≠ Path.clean directory := by
      intro heq
      rw [← Disk.placeOf_clean, heq, Disk.placeOf_clean] at hpath
      exact hpath hwithin
    simp [memory, Shelf.ensure, hne]
  write := by
    rintro top path content ⟨library, shelf⟩ hwithin
    simp only [memory]
    have hwrites := shelf.writes_write path content
    generalize shelf.write path content = result at hwrites
    cases hwrites with
    | refused e => exact ⟨rfl, fun _ _ => rfl, fun _ _ => Iff.rfl⟩
    | unchanged _ _ => exact ⟨rfl, fun _ _ => rfl, fun _ _ => Iff.rfl⟩
    | set _ =>
        refine ⟨rfl, fun other hother => ?_, fun _ _ => Iff.rfl⟩
        have hne : Path.clean other ≠ Path.clean path := by
          intro heq
          rw [← Disk.placeOf_clean, heq, Disk.placeOf_clean] at hother
          exact hother hwithin
        exact Keyed.lookup_set_of_ne hne content shelf.files

theorem Storage.bounds_disk : disk.Bounds Disk.SameOutside where
  refl := fun _ _ _ _ => Or.inl rfl
  trans := by
    intro top d d' d'' h h' p hp
    rcases h p hp with heq | ⟨hle, hnone, hmade⟩
    · rw [← heq]
      exact h' p hp
    · rcases h' p hp with heq' | ⟨_, hnone', _⟩
      · exact Or.inr ⟨hle, hnone, heq'.trans hmade⟩
      · cases hmade.symm.trans hnone'
  noteReads := fun _ _ _ _ _ => Or.inl rfl
  ensure := by
    intro top directory d hdown hwithin
    have hway := d.makesWay_makeDirs hdown
    simp only [disk, Disk.ensure]
    generalize d.makeDirs directory = made at hway
    obtain ⟨e | _, d'⟩ := made
    · exact hway.sameOutside hwithin
    · exact hway.sameOutside hwithin
  write := by
    intro top path content d hwithin p hp
    simp only [disk]
    have hwrites := d.writes_write path content
    generalize d.write path content = result at hwrites
    cases hwrites with
    | refused e => exact Or.inl rfl
    | unchanged _ _ => exact Or.inl rfl
    | replaced hreplace =>
        obtain ⟨_, _, rfl⟩ := Disk.replace_eq_ok hreplace
        refine Or.inl (Disk.item?_set_of_ne d ?_ _)
        rintro rfl
        exact hp hwithin

end RecordSchema
