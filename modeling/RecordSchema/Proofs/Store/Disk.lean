import RecordSchema.Proofs.Store.Source
import RecordSchema.Store.Output

/-!
# What stays on a disk

Making directories takes nothing away, and putting a file at a place changes what is there and
nothing else. A path goes on leading to its place as long as the directories on its way are kept, so
what can be read stays until it is written over.
-/

namespace RecordSchema

open Text

namespace Disk

variable {d d' : Disk} {p q place : Place} {i : DiskItem} {path content : Text}

theorem lookup_filter_ne (items : List (Place × DiskItem)) (h : q ≠ p) :
    (items.filter fun e => e.1 != p).lookup q = items.lookup q := by
  induction items with
  | nil => rfl
  | cons e rest ih =>
      obtain ⟨k, i⟩ := e
      by_cases hk : k = p
      · have hq : (q == k) = false := by simpa [hk] using h
        rw [List.filter_cons_of_neg (by simp [hk]), ih, List.lookup_cons, hq]
      · rw [List.filter_cons_of_pos (by simpa using hk), List.lookup_cons, List.lookup_cons, ih]

theorem item?_set_self (d : Disk) (h : p.isGround = false) (i : DiskItem) :
    (d.set p i).item? p = some i := by
  simp [item?, set, h]

theorem item?_set_of_ne (d : Disk) (h : q ≠ p) (i : DiskItem) :
    (d.set p i).item? q = d.item? q := by
  have hq : (q == p) = false := by simpa using h
  simp only [item?, set, List.lookup_cons, hq, lookup_filter_ne d.items h]

/-- Whether a disk has all that another one has, apart from a file at a place. -/
def KeepsBut (place : Place) (d d' : Disk) : Prop :=
  ∀ p i, p ≠ place ∨ i = .directory → d.item? p = some i → d'.item? p = some i

/-- Whether a disk has all that another one has. -/
def Keeps (d d' : Disk) : Prop := ∀ p i, d.item? p = some i → d'.item? p = some i

theorem Keeps.but (h : d.Keeps d') (place : Place) : d.KeepsBut place d' := fun p i _ => h p i

theorem Keeps.refl (d : Disk) : d.Keeps d := fun _ _ h => h

theorem Keeps.trans {d'' : Disk} (h : d.Keeps d') (h' : d'.Keeps d'') : d.Keeps d'' :=
  fun p i hp => h' p i (h p i hp)

theorem keeps_set (h : d.item? p = none) (i : DiskItem) : d.Keeps (d.set p i) := by
  intro q j hq
  have hne : q ≠ p := by
    rintro rfl
    cases h.symm.trans hq
  rw [item?_set_of_ne d hne, hq]

theorem keepsBut_set (h : d.isDirectory p = false) (i : DiskItem) : d.KeepsBut p (d.set p i) := by
  intro q j hor hq
  have hne : q ≠ p := by
    rcases hor with hne | rfl
    · exact hne
    · rintro rfl
      simp [isDirectory, hq] at h
  rw [item?_set_of_ne d hne, hq]

section Paths

theorem descend_append (d : Disk) (p : Place) (xs ys : List Text) :
    d.descend p (xs ++ ys) = d.descend p xs >>= fun q => d.descend q ys := by
  induction xs generalizing p with
  | nil => rfl
  | cons part rest ih =>
      rw [List.cons_append, descend, descend]
      split
      · rfl
      · rfl
      · split
        · rfl
        · exact ih (p.step part)

theorem descend_singleton (h : d.item? p = some .directory) {part : Text}
    (hpart : part.length ≤ nameLimit) : d.descend p [part] = .ok (p.step part) := by
  rw [descend, h]
  exact if_neg (Nat.not_lt.mpr hpart)

theorem descend_of_keepsBut (h : d.KeepsBut place d') {parts : List Text}
    (hd : d.descend p parts = .ok q) : d'.descend p parts = .ok q := by
  induction parts generalizing p with
  | nil => exact hd
  | cons part rest ih =>
      rw [descend] at hd ⊢
      split at hd
      · cases hd
      · cases hd
      · next hitem =>
          rw [h p .directory (Or.inr rfl) hitem]
          split at hd
          · cases hd
          · next hlength =>
              simp only [if_neg hlength]
              exact ih hd

theorem locate_of_keepsBut (h : d.KeepsBut place d') (hd : d.locate path = .ok q) :
    d'.locate path = .ok q := by
  obtain ⟨u, hcheck, hd⟩ := bind_eq_ok_iff.mp hd
  exact bind_eq_ok_iff.mpr ⟨u, hcheck, descend_of_keepsBut h hd⟩

theorem stat_eq_ok_iff :
    d.stat path = .ok i ↔ d.locate path = .ok (placeOf path) ∧ d.item? (placeOf path) = some i := by
  unfold stat
  rw [bind_eq_ok_iff]
  constructor
  · rintro ⟨q, hq, h⟩
    cases locate_eq_ok hq
    refine ⟨hq, ?_⟩
    split at h
    · next j hj =>
        cases h
        exact hj
    · cases h
  · rintro ⟨hq, hi⟩
    refine ⟨_, hq, ?_⟩
    rw [hi]
    rfl

theorem stat_of_keepsBut (h : d.KeepsBut place d') (hplace : placeOf path ≠ place ∨ i = .directory)
    (hd : d.stat path = .ok i) : d'.stat path = .ok i := by
  obtain ⟨hlocate, hitem⟩ := stat_eq_ok_iff.mp hd
  exact stat_eq_ok_iff.mpr ⟨locate_of_keepsBut h hlocate, h _ _ hplace hitem⟩

theorem read_eq_ok_iff : d.read path = .ok content ↔ d.stat path = .ok (.file content) := by
  unfold read
  rcases d.stat path with e | text | _
  · simp
  · simp
  · simp

theorem read_of_keepsBut (h : d.KeepsBut place d') (hplace : placeOf path ≠ place)
    (hd : d.read path = .ok content) : d'.read path = .ok content :=
  read_eq_ok_iff.mpr (stat_of_keepsBut h (Or.inl hplace) (read_eq_ok_iff.mp hd))

end Paths

section Directories

/-- What making one directory does. -/
theorem makeDir_eq_ok (h : d.makeDir path = .ok d') :
    ∃ p name, checkPath path = .ok () ∧ (parts path).getLast? = some name ∧
      d.descend (origin path) ((parts path).dropLast ++ [Path.dot]) = .ok p ∧
      (name ≠ Path.dot ∧ name ≠ Path.dotdot) ∧ name.length ≤ nameLimit ∧
      d.item? (p ++ [name]) = none ∧ d' = d.set (p ++ [name]) .directory := by
  unfold makeDir at h
  obtain ⟨_, hcheck, h⟩ := bind_eq_ok_iff.mp h
  split at h
  · cases h
  · next name hname =>
      obtain ⟨p, hp, h⟩ := bind_eq_ok_iff.mp h
      split at h
      · cases h
      · next htaken =>
          split at h
          · cases h
          · next hlength =>
              cases h
              simp only [not_or, Option.not_isSome_iff_eq_none] at htaken
              obtain ⟨hdot, hdotdot, hnew⟩ := htaken
              exact ⟨p, name, hcheck, hname, hp, ⟨hdot, hdotdot⟩, Nat.not_lt.mp hlength, hnew, rfl⟩

theorem keeps_makeDir (h : d.makeDir path = .ok d') : d.Keeps d' := by
  obtain ⟨p, name, _, _, _, _, _, hnew, rfl⟩ := makeDir_eq_ok h
  exact keeps_set hnew .directory

/-- The way to a directory that has been made is the way to the directory above it and one step
more. -/
theorem stat_makeDir (h : d.makeDir path = .ok d') : d'.stat path = .ok .directory := by
  have hkeeps := (keeps_makeDir h).but []
  obtain ⟨p, name, hcheck, hname, hp, ⟨hdot, hdotdot⟩, hlength, hnew, rfl⟩ := makeDir_eq_ok h
  have hground : (p ++ [name]).isGround = false := by
    unfold item? at hnew
    split at hnew
    · cases hnew
    · next hground => exact Bool.eq_false_iff.mpr hground
  have hmade := item?_set_self d hground .directory
  rw [descend_append] at hp
  obtain ⟨above, habove, hstep⟩ := bind_eq_ok_iff.mp hp
  have hdirectory : d.item? above = some .directory := by
    rw [descend] at hstep
    split at hstep
    · cases hstep
    · cases hstep
    · next hitem => exact hitem
  have hstay : above.step Path.dot = above := by rw [Place.step, if_pos rfl]
  rw [descend_singleton hdirectory (by decide), hstay] at hstep
  obtain rfl : above = p := Except.ok.inj hstep
  have hname' : above.step name = above ++ [name] := by
    rw [Place.step, if_neg hdot, if_neg hdotdot]
  have hdescend : (d.set (above ++ [name]) .directory).descend (origin path) (parts path) =
      .ok (above ++ [name]) := by
    have hsplit : parts path = (parts path).dropLast ++ [name] :=
      (List.dropLast_append_getLast? name hname).symm
    rw [hsplit, descend_append, descend_of_keepsBut hkeeps habove]
    have hkept := hkeeps above .directory (Or.inr rfl) hdirectory
    exact (descend_singleton hkept hlength).trans (by rw [hname'])
  have hlocate : (d.set (above ++ [name]) .directory).locate path = .ok (above ++ [name]) := by
    refine bind_eq_ok_iff.mpr ⟨(), hcheck, ?_⟩
    simp only
    rw [descend_append, hdescend]
    split
    · exact descend_singleton hmade (by decide)
    · rfl
  have hplace := locate_eq_ok hlocate
  rw [hplace] at hlocate hmade ⊢
  exact stat_eq_ok_iff.mpr ⟨hlocate, hmade⟩

theorem keeps_make (path : Text) (d : Disk) : d.Keeps (makeDirs.make path d).2 := by
  unfold makeDirs.make
  split
  · next hmake => exact keeps_makeDir hmake
  · split
    · exact .refl d
    · exact .refl d

theorem stat_make (h : makeDirs.make path d = (.ok (), d')) : d'.stat path = .ok .directory := by
  unfold makeDirs.make at h
  split at h
  · next hmake =>
      cases h
      exact stat_makeDir hmake
  · split at h
    · next hstat =>
        cases h
        exact hstat
    · cases h

theorem keeps_makeDirs (d : Disk) (path : Text) : d.Keeps (d.makeDirs path).2 := by
  induction hlength : path.length using Nat.strongRecOn generalizing path with
  | ind length ih =>
      rw [makeDirs]
      split
      · exact .refl d
      · exact .refl d
      · split_ifs with hparent
        · exact keeps_make path d
        · have habove := ih _ (hlength ▸ length_parentPath_lt hparent) (parentPath path) rfl
          split
          · next d' hmade =>
              rw [hmade] at habove
              exact habove.trans (keeps_make path d')
          · next e d' hmade =>
              rw [hmade] at habove
              exact habove

theorem stat_makeDirs (h : d.makeDirs path = (.ok (), d')) : d'.stat path = .ok .directory := by
  rw [makeDirs] at h
  split at h
  · next hstat =>
      cases h
      exact hstat
  · cases h
  · split_ifs at h with hparent
    · exact stat_make h
    · split at h
      · exact stat_make h
      · cases h

end Directories

section Files

theorem replace_eq_ok {pattern : Text} (h : d.replace pattern path content = .ok d') :
    d.locate path = .ok (placeOf path) ∧ d.isDirectory (placeOf path) = false ∧
      d' = d.set (placeOf path) (.file content) := by
  unfold replace at h
  simp only at h
  split at h
  · cases h
  · cases h
  · split at h
    · cases h
    · split at h
      · cases h
      · next p hp =>
          cases locate_eq_ok hp
          split at h
          · cases h
          · next hdirectory =>
              cases h
              exact ⟨hp, Bool.eq_false_iff.mpr hdirectory, rfl⟩

/-- Whether a file can be replaced does not depend on its content. -/
theorem exists_replace {pattern : Text} (h : d.replace pattern path content = .ok d')
    (content' : Text) : ∃ d'', d.replace pattern path content' = .ok d'' := by
  unfold replace at h ⊢
  simp only at h ⊢
  split at h
  · cases h
  · cases h
  · split at h
    · cases h
    · next hlong =>
        rw [if_neg hlong]
        split at h
        · cases h
        · split at h
          · cases h
          · next hdirectory => exact ⟨_, if_neg hdirectory⟩

theorem keepsBut_replace {pattern : Text} (h : d.replace pattern path content = .ok d') :
    d.KeepsBut (placeOf path) d' := by
  obtain ⟨_, hfile, rfl⟩ := replace_eq_ok h
  exact keepsBut_set hfile _

/-- A file that is replaced has its new content under every path that leads to it. -/
theorem read_replace_of_placeOf_eq {pattern other : Text}
    (h : d.replace pattern path content = .ok d')
    (hlocate : d.locate other = .ok (placeOf other)) (hplace : placeOf other = placeOf path) :
    d'.read other = .ok content := by
  have hlocate' := locate_of_keepsBut (keepsBut_replace h) hlocate
  obtain ⟨_, hfile, rfl⟩ := replace_eq_ok h
  have hground : (placeOf path).isGround = false := by
    rw [Bool.eq_false_iff]
    intro hground
    simp [isDirectory, item?, hground] at hfile
  refine read_eq_ok_iff.mpr (stat_eq_ok_iff.mpr ⟨hlocate', ?_⟩)
  rw [hplace]
  exact item?_set_self d hground _

theorem read_replace {pattern : Text} (h : d.replace pattern path content = .ok d') :
    d'.read path = .ok content :=
  read_replace_of_placeOf_eq h (replace_eq_ok h).1 rfl

/-- What writing does: it is refused, the file has a content of the same digest, or it is
replaced. -/
inductive Writes (path content : Text) (d : Disk) : Except OutputError Bool × Disk → Prop where
  | refused (e : OutputError) : Writes path content d (.error e, d)
  | unchanged {old : Text} (hread : d.read path = .ok old)
      (hdigest : Digest.ofText old = Digest.ofText content) : Writes path content d (.ok false, d)
  | replaced {pattern : Text} {d' : Disk} (hreplace : d.replace pattern path content = .ok d')
      (hchanged : ∀ old, d.read path = .ok old → Digest.ofText old ≠ Digest.ofText content) :
      Writes path content d (.ok true, d')

theorem writes_write (d : Disk) (path content : Text) :
    Writes path content d (d.write path content) := by
  unfold write
  simp only
  split
  · exact .refused _
  · next hsame =>
      split at hsame
      · next hread => exact .unchanged hread (beq_iff_eq.mp (Except.ok.inj hsame))
      · split at hsame
        · cases hsame
        · cases hsame
  · next hdiffers =>
      split
      · next hreplace =>
          refine .replaced hreplace fun old hread => ?_
          rw [hread] at hdiffers
          exact beq_eq_false_iff_ne.mp (Except.ok.inj hdiffers)
      · exact .refused _

end Files

end Disk

end RecordSchema
