import RecordSchema.Text.Path

/-!
# Clean paths

Cleaning keeps a stack of components in which every `..` stands at the front, and a path written
from such a stack is split into the same components again. Cleaning a path twice is therefore
cleaning it once, and a clean path is known by whether it is rooted and by its components.
-/

namespace RecordSchema.Text

section Split

variable {sep : UInt8}

theorem notMem_of_mem_splitOn {t part : Text} (h : part ∈ splitOn sep t) : sep ∉ part := by
  induction t generalizing part with
  | nil =>
      rw [List.mem_singleton.mp h]
      exact List.not_mem_nil
  | cons b rest ih =>
      rw [splitOn] at h
      split at h
      · rcases List.mem_cons.mp h with rfl | h
        · exact List.not_mem_nil
        · exact ih h
      · next hb =>
          split at h
          · next hnil => exact absurd hnil (splitOn_ne_nil sep rest)
          · next first more heq =>
              rw [heq] at ih
              rcases List.mem_cons.mp h with rfl | h
              · rw [List.mem_cons]
                rintro (hsep | hsep)
                · exact hb hsep.symm
                · exact ih List.mem_cons_self hsep
              · exact ih (List.mem_cons_of_mem _ h)

theorem splitOn_of_notMem {part : Text} (h : sep ∉ part) : splitOn sep part = [part] := by
  induction part with
  | nil => rfl
  | cons b rest ih =>
      obtain ⟨hb, hrest⟩ := List.ne_and_not_mem_of_not_mem_cons h
      rw [splitOn, if_neg (Ne.symm hb), ih hrest]

theorem splitOn_append_cons {part : Text} (h : sep ∉ part) (t : Text) :
    splitOn sep (part ++ sep :: t) = part :: splitOn sep t := by
  induction part with
  | nil => simp [splitOn]
  | cons b rest ih =>
      obtain ⟨hb, hrest⟩ := List.ne_and_not_mem_of_not_mem_cons h
      rw [List.cons_append, splitOn, if_neg (Ne.symm hb), ih hrest]

/-- Splitting undoes joining where the separator does not occur in the parts. -/
theorem splitOn_join {parts : List Text} (hne : parts ≠ []) (h : ∀ part ∈ parts, sep ∉ part) :
    splitOn sep (join [sep] parts) = parts := by
  induction parts with
  | nil => exact absurd rfl hne
  | cons part rest ih =>
      obtain ⟨hpart, hrest⟩ := List.forall_mem_cons.mp h
      cases rest with
      | nil => simpa [join] using splitOn_of_notMem hpart
      | cons next more =>
          have hjoin : join [sep] (part :: next :: more) =
              part ++ sep :: join [sep] (next :: more) := by
            simp [join]
          rw [hjoin, splitOn_append_cons hpart, ih (List.cons_ne_nil _ _) hrest]

end Split

namespace Path

/-- Whether components, the last of which comes first, are those of a clean path: `..` stands only
at the front, and not at all after the root. -/
def IsStack (rooted : Bool) : List Text → Prop
  | [] => True
  | part :: before =>
    part ≠ [] ∧ part ≠ dot ∧ slash ∉ part ∧
      (part = dotdot → rooted = false ∧ ∀ other ∈ before, other = dotdot) ∧ IsStack rooted before

variable {rooted : Bool} {kept parts : List Text} {part p : Text}

theorem push_of_skip (h : part = [] ∨ part = dot) : push rooted kept part = kept := by
  unfold push
  rw [if_pos h]

theorem push_name (hskip : ¬ (part = [] ∨ part = dot)) (hup : part ≠ dotdot) :
    push rooted kept part = part :: kept := by
  unfold push
  rw [if_neg hskip, if_neg hup]

theorem push_dotdot_cons (last : Text) (before : List Text) :
    push rooted (last :: before) dotdot =
      if last = dotdot then dotdot :: last :: before else before := by
  unfold push
  rw [if_neg (by decide), if_pos rfl]

theorem IsStack.slash_notMem (h : IsStack rooted kept) : ∀ part ∈ kept, slash ∉ part := by
  induction kept with
  | nil => exact fun part hpart => absurd hpart List.not_mem_nil
  | cons part before ih => exact List.forall_mem_cons.mpr ⟨h.2.2.1, ih h.2.2.2.2⟩

theorem IsStack.ne_nil (h : IsStack rooted kept) : ∀ part ∈ kept, part ≠ [] := by
  induction kept with
  | nil => exact fun part hpart => absurd hpart List.not_mem_nil
  | cons part before ih => exact List.forall_mem_cons.mpr ⟨h.1, ih h.2.2.2.2⟩

theorem IsStack.push (h : IsStack rooted kept) (hpart : slash ∉ part) :
    IsStack rooted (push rooted kept part) := by
  unfold Path.push
  split
  · exact h
  · next hskip =>
      obtain ⟨hne, hdot⟩ := not_or.mp hskip
      split
      · next hup =>
          subst hup
          split
          · next last before =>
              split
              · next hlast =>
                  refine ⟨hne, hdot, hpart, fun _ => ?_, h⟩
                  obtain ⟨hrooted, hall⟩ := h.2.2.2.1 hlast
                  exact ⟨hrooted, List.forall_mem_cons.mpr ⟨hlast, hall⟩⟩
              · exact h.2.2.2.2
          · split
            · trivial
            · next hrooted =>
                refine ⟨hne, hdot, hpart, fun _ => ?_, trivial⟩
                exact ⟨Bool.eq_false_iff.mpr hrooted, fun _ hmem => absurd hmem List.not_mem_nil⟩
      · next hup => exact ⟨hne, hdot, hpart, fun heq => absurd heq hup, h⟩

theorem IsStack.foldl_push (h : IsStack rooted kept) (hparts : ∀ part ∈ parts, slash ∉ part) :
    IsStack rooted (parts.foldl (Path.push rooted) kept) := by
  induction parts generalizing kept with
  | nil => exact h
  | cons part rest ih =>
      obtain ⟨hpart, hrest⟩ := List.forall_mem_cons.mp hparts
      exact ih (h.push hpart) hrest

/-- The components of a stack lead to the stack again. -/
theorem IsStack.foldl_reverse (h : IsStack rooted kept) :
    kept.reverse.foldl (Path.push rooted) [] = kept := by
  induction kept with
  | nil => rfl
  | cons part before ih =>
      obtain ⟨hne, hdot, _, hup, hbefore⟩ := h
      rw [List.reverse_cons, List.foldl_append, ih hbefore, List.foldl_cons, List.foldl_nil]
      by_cases hdotdot : part = dotdot
      · obtain ⟨hrooted, hall⟩ := hup hdotdot
        subst hdotdot hrooted
        cases before with
        | nil => rfl
        | cons last more => rw [push_dotdot_cons, if_pos (hall last List.mem_cons_self)]
      · exact push_name (not_or.mpr ⟨hne, hdot⟩) hdotdot

theorem isStack_components (p : Text) : IsStack (isRooted p) (components p).reverse := by
  rw [components, List.reverse_reverse]
  exact IsStack.foldl_push trivial fun part hpart => notMem_of_mem_splitOn hpart

section OfComponents

variable (h : IsStack rooted parts.reverse)

include h

theorem slash_notMem_of_isStack : ∀ part ∈ parts, slash ∉ part :=
  fun part hpart => h.slash_notMem part (List.mem_reverse.mpr hpart)

theorem isRooted_ofComponents : isRooted (ofComponents rooted parts) = rooted := by
  unfold ofComponents
  split
  · next hrooted => rw [hrooted, isRooted, beq_self_eq_true]
  · next hrooted =>
      rw [Bool.eq_false_iff.mpr hrooted]
      cases parts with
      | nil => decide
      | cons part rest =>
          have hmem : part ∈ (part :: rest).reverse := by simp
          cases part with
          | nil => exact absurd rfl (h.ne_nil [] hmem)
          | cons b more =>
              have hb : b ≠ slash := by
                intro heq
                exact h.slash_notMem _ hmem (heq ▸ List.mem_cons_self)
              cases rest <;> simp [join, isRooted, hb]

theorem components_ofComponents : components (ofComponents rooted parts) = parts := by
  have hslash := slash_notMem_of_isStack h
  have hfold : parts.foldl (Path.push rooted) [] = parts.reverse := by
    simpa using h.foldl_reverse
  rw [components, isRooted_ofComponents h]
  by_cases hnil : parts = []
  · subst hnil
    cases rooted <;> decide
  · rw [ofComponents, if_neg hnil]
    split
    · have hsplit : splitOn slash (slash :: join [slash] parts) = [] :: parts := by
        rw [splitOn, if_pos rfl, splitOn_join hnil hslash]
      rw [hsplit, List.foldl_cons, push_of_skip (Or.inl rfl), hfold, List.reverse_reverse]
    · rw [splitOn_join hnil hslash, hfold, List.reverse_reverse]

end OfComponents

theorem isRooted_clean (p : Text) : isRooted (clean p) = isRooted p :=
  isRooted_ofComponents (isStack_components p)

theorem components_clean (p : Text) : components (clean p) = components p :=
  components_ofComponents (isStack_components p)

theorem clean_clean (p : Text) : clean (clean p) = clean p := by
  rw [clean, isRooted_clean, components_clean, clean]

theorem clean_ne_nil (p : Text) : clean p ≠ [] := by
  intro h
  have htwice := clean_clean p
  rw [h] at htwice
  exact absurd htwice (by decide)

/-- Joined parts make a clean path if one of them is not empty. -/
theorem clean_joined (hmem : part ∈ parts) (hne : part ≠ []) :
    clean (joined parts) = joined parts := by
  unfold joined
  split
  · next hnil =>
      have hfilter : part ∈ parts.filter (· ≠ []) := List.mem_filter.mpr ⟨hmem, by simpa using hne⟩
      rw [hnil] at hfilter
      exact absurd hfilter List.not_mem_nil
  · exact clean_clean _

theorem dir_ne_nil (p : Text) : dir p ≠ [] := by
  unfold dir
  split
  · exact clean_ne_nil _
  · decide

end Path

end RecordSchema.Text
