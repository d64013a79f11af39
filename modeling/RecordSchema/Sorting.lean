/-!
# Sorting by keys

The entries of a map come in no order of their own and are sorted by their keys. Sorting promises
the order of the keys only where they have a consistent one, and where two keys are not told apart
either may come first. A result of sorting is any list that keeps this promise.
-/

namespace RecordSchema.Sorting

variable {α : Type}

/-- Whether a comparison orders the elements of a list consistently: of two elements at most one
comes before the other, and what comes before an element comes before those that do not come before
it. -/
def Consistent (less : α → α → Bool) (l : List α) : Prop :=
  (∀ a ∈ l, ∀ b ∈ l, less a b = true → less b a = false) ∧
    ∀ a ∈ l, ∀ b ∈ l, ∀ c ∈ l, less b a = false → less c b = false → less c a = false

instance (less : α → α → Bool) (l : List α) : Decidable (Consistent less l) :=
  inferInstanceAs (Decidable (_ ∧ _))

/-- Whether `r` is a result of sorting `l`. -/
structure Sorts (less : α → α → Bool) (l r : List α) : Prop where
  perm : r.Perm l
  pairwise : Consistent less l → r.Pairwise fun a b => less b a = false

variable {less : α → α → Bool} {l l' r : List α}

theorem Consistent.of_perm (h : Consistent less l) (hperm : l.Perm l') : Consistent less l' := by
  constructor
  · intro a ha b hb
    exact h.1 a (hperm.mem_iff.mpr ha) b (hperm.mem_iff.mpr hb)
  · intro a ha b hb c hc
    exact h.2 a (hperm.mem_iff.mpr ha) b (hperm.mem_iff.mpr hb) c (hperm.mem_iff.mpr hc)

/-- The order in which elements come has no part in what sorting promises. -/
theorem Sorts.of_perm (h : Sorts less l r) (hperm : l.Perm l') : Sorts less l' r where
  perm := h.perm.trans hperm
  pairwise := fun hconsistent => h.pairwise (hconsistent.of_perm hperm.symm)

/-- The sort of the library keeps the promise. It is made for comparisons that are consistent on all
elements of a type, which those of the list are here. -/
theorem sorts_mergeSort (less : α → α → Bool) (l : List α) :
    Sorts less l (l.mergeSort fun a b => !less b a) where
  perm := l.mergeSort_perm _
  pairwise := by
    intro h
    let le (a b : { x // x ∈ l }) : Bool := !less b.1 a.1
    have hsorted : (l.attach.mergeSort le).Pairwise fun a b => le a b = true := by
      apply List.pairwise_mergeSort
      · intro a b c hab hbc
        simp only [le, Bool.not_eq_true'] at hab hbc ⊢
        exact h.2 a a.2 b b.2 c c.2 hab hbc
      · intro a b
        simp only [le]
        cases hab : less a b with
        | false => simp
        | true => simp [h.1 a a.2 b b.2 hab]
    have hmap : (l.attach.mergeSort le).map Subtype.val = l.mergeSort fun a b => !less b a := by
      have hcommutes := List.map_mergeSort (r := le) (s := fun a b => !less b a) (f := Subtype.val)
        (l := l.attach) fun _ _ _ _ => rfl
      rwa [List.attach_map_subtype_val] at hcommutes
    rw [← hmap, List.pairwise_map]
    apply hsorted.imp
    intro a b hab
    exact (Bool.not_eq_true' _).mp hab

end RecordSchema.Sorting
