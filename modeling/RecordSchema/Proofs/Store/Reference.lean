import RecordSchema.Proofs.Store.Within

/-!
# References and the documents they mean

A reference leads from the directory of the document that makes it, part by part, to a place. It
makes no difference whether parts that take each other away do so on the way or are cleaned away
before. The path that a reference is resolved to is clean and has this place, and a clean path is
known by its place. A reference and its cleaned form are therefore resolved to the same path, on a
disk as well as in a library, and in a library no two such paths denote the same document.
-/

namespace RecordSchema

open Text

namespace Text.Path

variable {rooted : Bool} {kept stack parts : List Text} {part p : Text}

/-- Pushing what a component leaves of a stack has the effect of pushing the stack and the
component. -/
theorem foldl_push_push (h : IsStack false stack) :
    (push false stack part).reverse.foldl (push rooted) kept =
      push rooted (stack.reverse.foldl (push rooted) kept) part := by
  by_cases hskip : part = [] ∨ part = dot
  · rw [push_of_skip hskip, push_of_skip hskip]
  · by_cases hup : part = dotdot
    · subst hup
      cases stack with
      | nil => rfl
      | cons last before =>
          rw [push_dotdot_cons]
          by_cases hlast : last = dotdot
          · rw [if_pos hlast, List.reverse_cons, List.foldl_concat]
          · -- The last component and the way up from it take each other away on either side.
            obtain ⟨hne, hdot, -⟩ := h
            rw [if_neg hlast, List.reverse_cons, List.foldl_concat,
              push_name (not_or.mpr ⟨hne, hdot⟩) hlast, push_dotdot_cons, if_neg hlast]
    · rw [push_name hskip hup, List.reverse_cons, List.foldl_concat]

theorem foldl_push_foldl (h : IsStack false stack) (hparts : ∀ part ∈ parts, slash ∉ part) :
    (parts.foldl (push false) stack).reverse.foldl (push rooted) kept =
      parts.foldl (push rooted) (stack.reverse.foldl (push rooted) kept) := by
  induction parts generalizing stack with
  | nil => rfl
  | cons part rest ih =>
      obtain ⟨hpart, hrest⟩ := List.forall_mem_cons.mp hparts
      rw [List.foldl_cons, ih (h.push hpart) hrest, foldl_push_push h, List.foldl_cons]

/-- Behind other components, a path that is not rooted leads where its cleaned components lead. -/
theorem foldl_push_components (h : isRooted p = false) :
    (components p).foldl (push rooted) kept = (splitOn slash p).foldl (push rooted) kept := by
  rw [components, h]
  exact foldl_push_foldl trivial fun part hpart => notMem_of_mem_splitOn hpart

end Text.Path

namespace Disk

variable {reference : Text}

/-- Following a reference from the place of a path pushes its parts on the components of the
path. -/
theorem foldl_step_placeOf (path reference : Text) :
    (parts reference).foldl Place.step (placeOf path) =
      start (Path.isRooted path) ++
        ((splitOn Path.slash reference).foldl (Path.push (Path.isRooted path))
          (Path.components path).reverse).reverse := by
  have hfold := foldl_step (Path.isStack_components path) (splitOn Path.slash reference)
    fun _ hpart => notMem_of_mem_splitOn hpart
  rw [List.reverse_reverse] at hfold
  exact hfold

theorem foldl_step_clean (h : Path.isRooted reference = false) (path : Text) :
    (parts (Path.clean reference)).foldl Place.step (placeOf path) =
      (parts reference).foldl Place.step (placeOf path) := by
  have hclean := (Path.isRooted_clean reference).trans h
  rw [foldl_step_placeOf, foldl_step_placeOf, ← Path.foldl_push_components hclean,
    Path.components_clean, Path.foldl_push_components h]

end Disk

namespace Library

variable {l : Library} {path other : Text}

theorem get?_put (l : Library) (path text other : Text) :
    (l.put path text).get? other =
      if Path.clean path = Path.clean other then some text else l.get? other := by
  unfold put get?
  split
  · next h => rw [h, Keyed.lookup_set_self]
  · next h => rw [Keyed.lookup_set_of_ne (Ne.symm h)]

/-- Whether two paths denote one document of a library: whatever is put under the one is read under
the other. -/
def SameDocument (l : Library) (path other : Text) : Prop :=
  ∀ text, (l.put path text).source.read other = .ok text

theorem sameDocument_iff : l.SameDocument path other ↔ Path.clean path = Path.clean other := by
  constructor
  · intro h
    by_contra hne
    -- What is put under the path does not reach the other one, which cannot have two texts.
    have hread : ∀ text, (l.put path text).source.read other = l.source.read other := by
      intro text
      simp only [source, get?_put, if_neg hne]
    have hempty := (hread []).symm.trans (h [])
    have hfull := (hread [0]).symm.trans (h [0])
    cases hempty.symm.trans hfull
  · intro h text
    simp only [source, get?_put, if_pos h]

end Library

namespace Source

/-- On a disk, cleaning a joined path by itself changes nothing. -/
theorem resolve_disk (document reference : Text) :
    Disk.resolve document reference = resolve document reference := by
  unfold Disk.resolve resolve
  split
  · rfl
  · exact Path.clean_joined List.mem_cons_self (Path.dir_ne_nil document)

/-- The place that a reference in a document leads to: its parts are followed from the root, or
from the directory of the document if the reference is not rooted. -/
def destination (document reference : Text) : Place :=
  (Disk.parts reference).foldl Place.step
    (if Path.isRooted reference then Place.root else Disk.placeOf (Path.dir document))

theorem destination_of_isRooted (document : Text) {reference : Text}
    (h : Path.isRooted reference = true) :
    destination document reference = Disk.placeOf reference := by
  have horigin : Disk.origin reference = Place.root := if_pos h
  rw [destination, if_pos h, ← horigin, Disk.foldl_step_parts]

theorem placeOf_resolve (document reference : Text) :
    Disk.placeOf (resolve document reference) = destination document reference := by
  unfold resolve
  split
  · next h => rw [Disk.placeOf_clean, destination_of_isRooted document h]
  · next h =>
      rw [destination, if_neg h]
      exact Disk.placeOf_joined (Or.inl (Path.dir_ne_nil document))

/-- A reference and its cleaned form lead to the same place. -/
theorem destination_clean (document reference : Text) :
    destination document (Path.clean reference) = destination document reference := by
  by_cases h : Path.isRooted reference = true
  · have hclean := (Path.isRooted_clean reference).trans h
    rw [destination_of_isRooted document hclean, destination_of_isRooted document h,
      Disk.placeOf_clean]
  · rw [destination, destination, Path.isRooted_clean, if_neg h]
    exact Disk.foldl_step_clean (Bool.eq_false_iff.mpr h) (Path.dir document)

theorem resolve_clean (document reference : Text) :
    resolve document (Path.clean reference) = resolve document reference := by
  apply Disk.eq_of_placeOf_eq (clean_resolve _ _) (clean_resolve _ _)
  rw [placeOf_resolve, placeOf_resolve, destination_clean]

/-- A disk and a library resolve each reference in each document to the same path, the one at which
loading looks for it and which leads where the reference leads. The path is clean, the cleaned
reference is resolved to it as well, and paths that references are resolved to denote one document
of a library only if they are equal. -/
theorem resolve_canonical (document reference : Text) :
    Disk.resolve document reference = Library.resolve document reference ∧
      Library.resolve document reference = resolve document reference ∧
      Disk.placeOf (resolve document reference) = destination document reference ∧
      Path.clean (resolve document reference) = resolve document reference ∧
      resolve document (Path.clean reference) = resolve document reference ∧
      ∀ (l : Library) (document' reference' : Text),
        l.SameDocument (resolve document reference) (resolve document' reference') ↔
          resolve document reference = resolve document' reference' := by
  refine ⟨resolve_disk document reference, rfl, placeOf_resolve document reference,
    clean_resolve document reference, resolve_clean document reference, ?_⟩
  intro l document' reference'
  rw [Library.sameDocument_iff, clean_resolve, clean_resolve]

example : resolve "app/root.yaml" "x/..//../lib/./a.yaml" = "lib/a.yaml" ∧
    resolve "root.yaml" "../../a.yaml" = "../../a.yaml" ∧ resolve "/app/root.yaml" "" = "/app" := by
  decide

end Source

end RecordSchema
