import Mathlib.Data.List.Perm.Subperm
import RecordSchema.Proofs.Keyed
import RecordSchema.Proofs.Outcome
import RecordSchema.Proofs.Text.Path
import RecordSchema.Store.Library

/-!
# How many documents a source holds

References lead to clean paths, and clean paths that differ stand for different documents. In a
library this holds by definition. On a disk the place of a path is where its components lead to from
the working directory or from the root, so that a clean path can be read off its place.
-/

namespace RecordSchema

open Text

namespace Source

theorem clean_resolve (document reference : Text) :
    Path.clean (resolve document reference) = resolve document reference := by
  unfold resolve
  split
  · exact Path.clean_clean reference
  · exact Path.clean_joined List.mem_cons_self (Path.dir_ne_nil document)

/-- Whether no more documents than the size of a source can be read under clean paths. -/
def IsSized (source : Source) : Prop :=
  ∀ paths : List Text, paths.Nodup →
    (∀ path ∈ paths, Path.clean path = path ∧ ∃ text, source.read path = .ok text) →
      paths.length ≤ source.size

/-- A source is sized if each clean path has a key of its own. -/
theorem isSized_of_keys {κ : Type} {source : Source} (keys : List κ) (key : Text → κ)
    (hsize : keys.length = source.size)
    (hmem : ∀ path text, Path.clean path = path → source.read path = .ok text → key path ∈ keys)
    (hinj : ∀ path other, Path.clean path = path → Path.clean other = other →
      key path = key other → path = other) :
    source.IsSized := by
  intro paths hnodup hread
  have hkeys : (paths.map key).Nodup := hnodup.map_on fun path hpath other hother heq =>
    hinj path other (hread path hpath).1 (hread other hother).1 heq
  have hsub : paths.map key ⊆ keys := by
    intro k hk
    obtain ⟨path, hpath, rfl⟩ := List.mem_map.mp hk
    obtain ⟨hclean, text, htext⟩ := hread path hpath
    exact hmem path text hclean htext
  calc paths.length
      = (paths.map key).length := (List.length_map key).symm
    _ ≤ keys.length := (List.subperm_of_subset hkeys hsub).length_le
    _ = source.size := hsize

end Source

theorem Library.isSized_source (l : Library) : l.source.IsSized := by
  apply Source.isSized_of_keys (l.documents.map Prod.fst) Path.clean (List.length_map Prod.fst)
  · intro path text _ hread
    simp only [source] at hread
    split at hread
    · next content hget => exact List.mem_map_of_mem (mem_of_lookup_eq_some hget)
    · cases hread
  · intro path other hpath hother heq
    rw [← hpath, heq, hother]

namespace Disk

/-- The place where a path starts, given whether it is rooted. -/
def start (rooted : Bool) : Place := if rooted then Place.root else []

section Follow

variable {rooted : Bool} {kept : List Text} {part : Text}

theorem start_append_ne_root (h : Path.IsStack rooted kept) (hne : kept ≠ []) :
    start rooted ++ kept.reverse ≠ Place.root := by
  intro heq
  cases rooted with
  | true =>
      have hnil : kept.reverse = [] := List.append_cancel_left (heq.trans (List.append_nil _).symm)
      exact hne (List.reverse_eq_nil_iff.mp hnil)
  | false =>
      have hmem : [Path.slash] ∈ kept := by
        rw [← List.mem_reverse, ← List.nil_append kept.reverse]
        exact heq ▸ List.mem_cons_self
      exact h.slash_notMem _ hmem List.mem_cons_self

theorem parent_append (h : Path.IsStack rooted kept) :
    Place.parent (start rooted ++ kept.reverse) =
      start rooted ++ (Path.push rooted kept Path.dotdot).reverse := by
  cases kept with
  | nil => cases rooted <;> decide
  | cons last before =>
      have hroot := start_append_ne_root h (List.cons_ne_nil _ _)
      rw [Place.parent, if_neg hroot, Path.push_dotdot_cons]
      by_cases hlast : last = Path.dotdot
      · obtain ⟨hrooted, hall⟩ := h.2.2.2.1 hlast
        subst hlast hrooted
        rw [if_pos (by simpa [start] using hall), if_pos rfl]
        simp [start]
      · rw [if_neg, if_neg hlast, List.reverse_cons, ← List.append_assoc, List.dropLast_concat]
        simp only [List.all_eq_true, beq_iff_eq]
        exact fun hall => hlast (hall last (by simp))

theorem step_append (h : Path.IsStack rooted kept) (hne : part ≠ []) :
    Place.step (start rooted ++ kept.reverse) part =
      start rooted ++ (Path.push rooted kept part).reverse := by
  unfold Place.step
  split
  · next hdot => rw [Path.push_of_skip (Or.inr hdot)]
  · next hdot =>
      split
      · next hup =>
          rw [hup]
          exact parent_append h
      · next hup =>
          rw [Path.push_name (not_or.mpr ⟨hne, hdot⟩) hup, List.reverse_cons, List.append_assoc]

/-- Following parts leads to what pushing them leaves. -/
theorem foldl_step (h : Path.IsStack rooted kept) (parts : List Text)
    (hparts : ∀ part ∈ parts, Path.slash ∉ part) :
    (parts.filter fun part => !part.isEmpty).foldl Place.step (start rooted ++ kept.reverse) =
      start rooted ++ (parts.foldl (Path.push rooted) kept).reverse := by
  induction parts generalizing kept with
  | nil => rfl
  | cons part rest ih =>
      obtain ⟨hpart, hrest⟩ := List.forall_mem_cons.mp hparts
      have hnext := ih (h.push hpart) hrest
      by_cases hnil : part = []
      · subst hnil
        rw [Path.push_of_skip (Or.inl rfl)] at hnext
        rw [List.filter_cons_of_neg (by simp), hnext, List.foldl_cons,
          Path.push_of_skip (Or.inl rfl)]
      · rw [List.filter_cons_of_pos (by simpa using hnil), List.foldl_cons, step_append h hnil,
          hnext, List.foldl_cons]

end Follow

/-- The place that the components of a path lead to. -/
def placeOf (path : Text) : Place := start (Path.isRooted path) ++ Path.components path

/-- Only the place of a rooted path has the root in it. -/
theorem slash_mem_placeOf_iff {path : Text} :
    [Path.slash] ∈ placeOf path ↔ Path.isRooted path = true := by
  have hstack := Path.isStack_components path
  have hnot : [Path.slash] ∉ Path.components path := by
    intro hmem
    exact Path.slash_notMem_of_isStack hstack _ hmem List.mem_cons_self
  rw [placeOf, List.mem_append, or_iff_left hnot]
  cases Path.isRooted path with
  | true => exact iff_of_true List.mem_cons_self rfl
  | false => exact iff_of_false List.not_mem_nil Bool.false_ne_true

theorem foldl_step_parts (path : Text) :
    (parts path).foldl Place.step (origin path) = placeOf path := by
  have hempty : Path.IsStack (Path.isRooted path) [] := trivial
  have hfold :=
    foldl_step hempty (splitOn Path.slash path) fun _ hpart => notMem_of_mem_splitOn hpart
  rw [List.reverse_nil, List.append_nil] at hfold
  exact hfold

theorem descend_eq_ok {d : Disk} {parts : List Text} {p q : Place} (h : d.descend p parts = .ok q) :
    q = parts.foldl Place.step p := by
  induction parts generalizing p with
  | nil =>
      cases h
      rfl
  | cons part rest ih =>
      rw [descend] at h
      split at h
      · cases h
      · cases h
      · split at h
        · cases h
        · exact ih h

theorem locate_eq_ok {d : Disk} {path : Text} {q : Place} (h : d.locate path = .ok q) :
    q = placeOf path := by
  obtain ⟨_, _, h⟩ := bind_eq_ok_iff.mp h
  rw [descend_eq_ok h, List.foldl_append, foldl_step_parts]
  split
  · rfl
  · rfl

theorem read_eq_ok {d : Disk} {path text : Text} (h : d.read path = .ok text) :
    d.item? (placeOf path) = some (.file text) := by
  unfold read at h
  split at h
  · next content hstat =>
      cases h
      obtain ⟨q, hq, hitem⟩ := bind_eq_ok_iff.mp hstat
      rw [← locate_eq_ok hq]
      split at hitem
      · next i hi =>
          cases hitem
          exact hi
      · cases hitem
  · cases h
  · cases h

/-- A document that can be read is one of the items. -/
theorem placeOf_mem_of_read {d : Disk} {path text : Text} (h : d.source.read path = .ok text) :
    placeOf path ∈ d.items.map Prod.fst := by
  have hread : d.read path = .ok text := by
    simp only [source] at h
    split at h
    · next content hcontent =>
        cases h
        exact hcontent
    · split at h <;> cases h
  have hitem := read_eq_ok hread
  unfold item? at hitem
  split at hitem
  · cases hitem
  · exact List.mem_map_of_mem (mem_of_lookup_eq_some hitem)

theorem clean_eq_of_placeOf_eq {path other : Text} (h : placeOf path = placeOf other) :
    Path.clean path = Path.clean other := by
  have hrooted : Path.isRooted path = Path.isRooted other := by
    rw [Bool.eq_iff_iff, ← slash_mem_placeOf_iff, ← slash_mem_placeOf_iff, h]
  rw [placeOf, placeOf, hrooted] at h
  rw [Path.clean, Path.clean, hrooted, List.append_cancel_left h]

/-- Clean paths to one place are equal. -/
theorem eq_of_placeOf_eq {path other : Text} (hpath : Path.clean path = path)
    (hother : Path.clean other = other) (h : placeOf path = placeOf other) : path = other := by
  rw [← hpath, ← hother, clean_eq_of_placeOf_eq h]

theorem isSized_source (d : Disk) : d.source.IsSized := by
  apply Source.isSized_of_keys (d.items.map Prod.fst) placeOf (List.length_map Prod.fst)
  · intro path text _ hread
    exact placeOf_mem_of_read hread
  · intro path other hpath hother heq
    exact eq_of_placeOf_eq hpath hother heq

end Disk

namespace Source

/-- The sources that documents are read from: a library, or a disk. -/
inductive IsStore : Source → Prop where
  | library (l : Library) : IsStore l.source
  | disk (d : Disk) : IsStore d.source

theorem IsStore.isSized {source : Source} (h : source.IsStore) : source.IsSized := by
  cases h with
  | library l => exact l.isSized_source
  | disk d => exact d.isSized_source

end Source

end RecordSchema
