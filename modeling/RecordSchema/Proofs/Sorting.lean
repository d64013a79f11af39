import Mathlib.Data.List.Forall2
import RecordSchema.Sorting

/-!
# What sorting settles

The elements of a sorted list are written one after another. Where sorting leaves their order open,
the text is nevertheless the same in all cases if and only if the texts of every two elements in
question can change places.
-/

namespace RecordSchema.Sorting

variable {α β : Type} {less : α → α → Bool} {text : α → List β} {l r r' : List α}

/-- Whether texts can change places wherever sorting leaves the order of two elements open: where
neither comes before the other, and everywhere if the elements have no consistent order. -/
def Settles (less : α → α → Bool) (text : α → List β) (l : List α) : Prop :=
  ∀ a ∈ l, ∀ b ∈ l, (Consistent less l → less a b = false ∧ less b a = false) →
    text a ++ text b = text b ++ text a

instance [DecidableEq β] (less : α → α → Bool) (text : α → List β) (l : List α) :
    Decidable (Settles less text l) :=
  inferInstanceAs (Decidable (∀ a ∈ l, _))

section Commuting

theorem append_flatMap_comm {t : List β} (h : ∀ a ∈ l, t ++ text a = text a ++ t) :
    t ++ l.flatMap text = l.flatMap text ++ t := by
  induction l with
  | nil => simp
  | cons a rest ih =>
      have ha := h a List.mem_cons_self
      have hrest := ih fun b hb => h b (List.mem_cons_of_mem a hb)
      calc t ++ (a :: rest).flatMap text
          = (t ++ text a) ++ rest.flatMap text := by rw [List.flatMap_cons, List.append_assoc]
        _ = text a ++ (t ++ rest.flatMap text) := by rw [ha, List.append_assoc]
        _ = (a :: rest).flatMap text ++ t := by rw [hrest, List.flatMap_cons, List.append_assoc]

/-- Two arrangements of the same elements along a relation have one text if elements that are
related both ways can change places. -/
theorem flatMap_eq_of_perm {R : α → α → Prop} (hperm : r.Perm r') (hr : r.Pairwise R)
    (hr' : r'.Pairwise R)
    (hcomm : ∀ a ∈ r, ∀ b ∈ r, R a b → R b a → text a ++ text b = text b ++ text a) :
    r.flatMap text = r'.flatMap text := by
  induction r generalizing r' with
  | nil => rw [hperm.nil_eq]
  | cons a rest ih =>
      -- The first element moves to its place in the other list past elements related to it both
      -- ways.
      obtain ⟨before, after, rfl⟩ := List.append_of_mem (hperm.mem_iff.mp List.mem_cons_self)
      have hrest : rest.Perm (before ++ after) := (hperm.trans List.perm_middle).cons_inv
      obtain ⟨hfirst, hsorted⟩ := List.pairwise_cons.mp hr
      have hpast : ∀ b ∈ before, text a ++ text b = text b ++ text a := by
        intro b hb
        have hmem : b ∈ rest := hrest.mem_iff.mpr (List.mem_append_left after hb)
        have hba : R b a := (List.pairwise_append.mp hr').2.2 b hb a List.mem_cons_self
        exact hcomm a List.mem_cons_self b (List.mem_cons_of_mem a hmem) (hfirst b hmem) hba
      have hothers : rest.flatMap text = (before ++ after).flatMap text := by
        apply ih hrest hsorted
        · exact hr'.sublist (List.Sublist.append_left (List.sublist_cons_self a after) before)
        · intro b hb c hc
          exact hcomm b (List.mem_cons_of_mem a hb) c (List.mem_cons_of_mem a hc)
      calc (a :: rest).flatMap text
          = (text a ++ before.flatMap text) ++ after.flatMap text := by
            rw [List.flatMap_cons, hothers, List.flatMap_append, List.append_assoc]
        _ = (before ++ a :: after).flatMap text := by
            rw [append_flatMap_comm hpast, List.flatMap_append, List.flatMap_cons,
              List.append_assoc]

theorem Settles.flatMap_eq (h : Settles less text l) (hr : Sorts less l r) (hr' : Sorts less l r') :
    r.flatMap text = r'.flatMap text := by
  have hperm := hr.perm.trans hr'.perm.symm
  by_cases hconsistent : Consistent less l
  · apply flatMap_eq_of_perm hperm (hr.pairwise hconsistent) (hr'.pairwise hconsistent)
    intro a ha b hb hab hba
    exact h a (hr.perm.mem_iff.mp ha) b (hr.perm.mem_iff.mp hb) fun _ => ⟨hba, hab⟩
  · apply flatMap_eq_of_perm hperm (List.pairwise_of_forall fun _ _ => trivial)
      (List.pairwise_of_forall fun _ _ => trivial)
    intro a ha b hb _ _
    exact h a (hr.perm.mem_iff.mp ha) b (hr.perm.mem_iff.mp hb) fun h' => absurd h' hconsistent

end Commuting

section Exchange

variable {a b : α}

theorem pairwise_middle {R : α → α → Prop} {before after : List α} (hbefore : before.Pairwise R)
    (hafter : after.Pairwise R) (hab : R a b)
    (hleft : ∀ x ∈ before, R x a ∧ R x b ∧ ∀ y ∈ after, R x y)
    (hright : ∀ y ∈ after, R a y ∧ R b y) : (before ++ a :: b :: after).Pairwise R := by
  refine List.pairwise_append.mpr ⟨hbefore, ?_, ?_⟩
  · simp only [List.pairwise_cons, List.forall_mem_cons]
    exact ⟨⟨hab, fun y hy => (hright y hy).1⟩, fun y hy => (hright y hy).2, hafter⟩
  · simp only [List.forall_mem_cons]
    exact hleft

/-- Two elements whose order is left open stand side by side in two results that differ in nothing
else. -/
theorem exists_sorts_exchanged (ha : a ∈ l) (hb : b ∈ l) (hne : a ≠ b)
    (hopen : Consistent less l → less a b = false ∧ less b a = false) :
    ∃ before after, Sorts less l (before ++ a :: b :: after) ∧
      Sorts less l (before ++ b :: a :: after) := by
  classical
  have hsorted := sorts_mergeSort less l
  generalize l.mergeSort _ = r at hsorted
  have hb' : b ∈ r.erase a :=
    (List.mem_erase_of_ne hne.symm).mpr (hsorted.perm.mem_iff.mpr hb)
  have hsplit : r.Perm (a :: b :: (r.erase a).erase b) :=
    (List.perm_cons_erase (hsorted.perm.mem_iff.mpr ha)).trans ((List.perm_cons_erase hb').cons a)
  have hothers : ((r.erase a).erase b).Sublist r := List.erase_sublist.trans List.erase_sublist
  generalize (r.erase a).erase b = others at hsplit hothers
  have hperm : (a :: b :: others).Perm l := hsplit.symm.trans hsorted.perm
  by_cases hconsistent : Consistent less l
  · obtain ⟨hab, hba⟩ := hopen hconsistent
    have hsorted' := (hsorted.pairwise hconsistent).sublist hothers
    have hmem : ∀ x ∈ others, x ∈ l := fun x hx => hsorted.perm.mem_iff.mp (hothers.subset hx)
    -- The others go to either side of the two, according to how they compare with one of them.
    have hbefore : ∀ x ∈ others.filter (less · a), x ∈ l ∧ less a x = false ∧ less b x = false := by
      intro x hx
      obtain ⟨hx, hxa⟩ := List.mem_filter.mp hx
      have hax := hconsistent.1 x (hmem x hx) a ha hxa
      exact ⟨hmem x hx, hax, hconsistent.2 x (hmem x hx) a ha b hb hax hba⟩
    have hafter : ∀ y ∈ others.filter (fun x => !less x a),
        y ∈ l ∧ less y a = false ∧ less y b = false := by
      intro y hy
      obtain ⟨hy, hya⟩ := List.mem_filter.mp hy
      have hya := (Bool.not_eq_true' _).mp hya
      exact ⟨hmem y hy, hya, hconsistent.2 b hb a ha y (hmem y hy) hab hya⟩
    have hacross : ∀ x ∈ others.filter (less · a), ∀ y ∈ others.filter (fun x => !less x a),
        less y x = false := by
      intro x hx y hy
      exact hconsistent.2 x (hbefore x hx).1 a ha y (hafter y hy).1 (hbefore x hx).2.1
        (hafter y hy).2.1
    have hmiddle :
        (others.filter (less · a) ++ a :: b :: others.filter fun x => !less x a).Perm l :=
      (List.perm_middle.trans ((List.perm_middle.trans
        ((List.filter_append_perm _ others).cons b)).cons a)).trans hperm
    refine ⟨_, _, ⟨hmiddle, fun _ => ?_⟩,
      ⟨((List.Perm.swap a b _).append_left _).trans hmiddle, fun _ => ?_⟩⟩
    · apply pairwise_middle (hsorted'.filter _) (hsorted'.filter _) hba
      · exact fun x hx => ⟨(hbefore x hx).2.1, (hbefore x hx).2.2, hacross x hx⟩
      · exact fun y hy => (hafter y hy).2
    · apply pairwise_middle (hsorted'.filter _) (hsorted'.filter _) hab
      · exact fun x hx => ⟨(hbefore x hx).2.2, (hbefore x hx).2.1, hacross x hx⟩
      · exact fun y hy => (hafter y hy).2.symm
  · refine ⟨[], others, ⟨hperm, fun h => absurd h hconsistent⟩, ?_⟩
    exact ⟨(List.Perm.swap a b _).trans hperm, fun h => absurd h hconsistent⟩

/-- If all results of sorting have one text, texts whose order is open can change places. -/
theorem settles_of_flatMap_eq
    (h : ∀ r r', Sorts less l r → Sorts less l r' → r.flatMap text = r'.flatMap text) :
    Settles less text l := by
  intro a ha b hb hopen
  by_cases hne : a = b
  · rw [hne]
  · obtain ⟨before, after, hab, hba⟩ := exists_sorts_exchanged ha hb hne hopen
    have htexts := h _ _ hab hba
    simp only [List.flatMap_append, List.flatMap_cons] at htexts
    rw [List.append_right_inj, ← List.append_assoc, ← List.append_assoc,
      List.append_left_inj] at htexts
    exact htexts

end Exchange

section Parts

variable {γ : Type} {Part : α → γ → Prop} {part : α → γ} {write : α → γ → List β}

theorem forall₂_map_part (hpart : ∀ a ∈ l, Part a (part a)) : List.Forall₂ Part l (l.map part) :=
  List.forall₂_map_right_iff.mpr (List.forall₂_same.mpr hpart)

theorem flatten_zipWith_map_part :
    (l.zipWith write (l.map part)).flatten = l.flatMap fun a => write a (part a) := by
  rw [List.zipWith_map_right, List.zipWith_self, List.flatMap_def]

variable (write)

/-- Elements with parts that may come in several ways have one text together if and only if each
has. -/
theorem flatten_zipWith_eq_iff (hpart : ∀ a ∈ l, Part a (part a)) :
    (∀ parts, List.Forall₂ Part l parts →
      (l.zipWith write parts).flatten = l.flatMap fun a => write a (part a)) ↔
      ∀ a ∈ l, ∀ w, Part a w → write a w = write a (part a) := by
  induction l with
  | nil =>
      constructor
      · intro _ a ha
        cases ha
      · rintro _ _ ⟨⟩
        rfl
  | cons a rest ih =>
      obtain ⟨ha, hrest⟩ := List.forall_mem_cons.mp hpart
      rw [List.forall_mem_cons, ← ih hrest]
      constructor
      · intro h
        constructor
        · intro w hw
          have htext := h _ (.cons hw (forall₂_map_part hrest))
          rw [List.zipWith_cons_cons, List.flatten_cons, List.flatMap_cons,
            flatten_zipWith_map_part, List.append_left_inj] at htext
          exact htext
        · intro parts hparts
          have htext := h _ (.cons ha hparts)
          rw [List.zipWith_cons_cons, List.flatten_cons, List.flatMap_cons,
            List.append_right_inj] at htext
          exact htext
      · rintro ⟨hfirst, hothers⟩ _ (_ | ⟨hw, hparts⟩)
        rw [List.zipWith_cons_cons, List.flatten_cons, List.flatMap_cons, hfirst _ hw,
          hothers _ hparts]

/-- Sorted elements have one text together if and only if each of them has and sorting settles their
order. -/
theorem flatten_zipWith_sorted_eq_iff (hpart : ∀ a ∈ l, Part a (part a)) :
    (∀ r parts, Sorts less l r → List.Forall₂ Part r parts →
      (r.zipWith write parts).flatten =
        (l.mergeSort fun a b => !less b a).flatMap fun a => write a (part a)) ↔
      (∀ a ∈ l, ∀ w, Part a w → write a w = write a (part a)) ∧
        Settles less (fun a => write a (part a)) l := by
  have hsorted := sorts_mergeSort less l
  have hpart' : ∀ {r}, Sorts less l r → ∀ a ∈ r, Part a (part a) := fun hr a ha =>
    hpart a (hr.perm.mem_iff.mp ha)
  constructor
  · intro h
    constructor
    · intro a ha
      have hparts :=
        (flatten_zipWith_eq_iff write (hpart' hsorted)).mp fun parts => h _ parts hsorted
      exact hparts a (hsorted.perm.mem_iff.mpr ha)
    · apply settles_of_flatMap_eq
      intro r r' hr hr'
      have htext := h r _ hr (forall₂_map_part (hpart' hr))
      have htext' := h r' _ hr' (forall₂_map_part (hpart' hr'))
      rw [flatten_zipWith_map_part] at htext htext'
      exact htext.trans htext'.symm
  · rintro ⟨hunique, hsettles⟩ r parts hr hparts
    have htext := (flatten_zipWith_eq_iff write (hpart' hr)).mpr
      (fun a ha => hunique a (hr.perm.mem_iff.mp ha)) parts hparts
    rw [htext, hsettles.flatMap_eq hr hsorted]

end Parts

end RecordSchema.Sorting
