import RecordSchema.Proofs.Sorting
import RecordSchema.Yaml.Order

/-!
# Documents in one order

A value has one document, whatever order the entries of its maps come in, if and only if `isSettled`
holds of it: in each of its maps, entries whose keys leave their order open can change places
without being seen.
-/

namespace RecordSchema.Yaml.Write

open Text

mutual

/-- Whether a collection has one text as a block. -/
def isSettled (indent : Nat) : Value → Bool
  | .list items => isSettledItems indent items
  | .map _ entries =>
    isSettledEntries indent entries &&
      decide (Sorting.Settles (fun a b => KeyOrder.less a.1 b.1)
        (fun e => (entry indent e (block (indent + 2) e.2)).ended) entries)
  | .record fields => isSettledFields indent fields
  | _ => true

def isSettledItems (indent : Nat) : List Value → Bool
  | [] => true
  | v :: rest => isSettled (indent + 2) v && isSettledItems indent rest

/-- A value that cannot be looked up is not seen. -/
def isSettledEntries (indent : Nat) : List (Value × Value) → Bool
  | [] => true
  | (k, v) :: rest => (isLost k || isSettled (indent + 2) v) && isSettledEntries indent rest

def isSettledFields (indent : Nat) : List (Text × Value) → Bool
  | [] => true
  | (_, v) :: rest => isSettled (indent + 2) v && isSettledFields indent rest

end

section Lines

variable {parts parts' : List Written} {w : Written} {indent : Nat} {v : Value}

theorem ended_lines (h : parts ≠ []) : (lines parts).ended = parts.flatMap Written.ended := by
  induction parts with
  | nil => exact absurd rfl h
  | cons w rest ih =>
      cases rest with
      | nil => simp [lines]
      | cons w' rest =>
          rw [List.flatMap_cons, ← ih (List.cons_ne_nil w' rest)]
          rw [lines]
          · generalize lines (w' :: rest) = more
            obtain ⟨text, closed⟩ := more
            unfold Written.ended
            cases w.closed <;> cases closed <;> simp
          · exact List.cons_ne_nil w' rest

theorem ended_lines_eq_iff (h : parts.length = parts'.length) :
    (lines parts).ended = (lines parts').ended ↔
      parts.flatMap Written.ended = parts'.flatMap Written.ended := by
  by_cases hparts : parts = []
  · have hparts' : parts' = [] := List.eq_nil_of_length_eq_zero (by rw [← h, hparts]; rfl)
    rw [hparts, hparts']
    exact iff_of_true rfl rfl
  · have hparts' : parts' ≠ [] := by
      rintro rfl
      exact hparts (List.eq_nil_of_length_eq_zero h)
    rw [ended_lines hparts, ended_lines hparts']

theorem text_prefix_lines (w : Written) (rest : List Written) :
    w.text <+: (lines (w :: rest)).text := by
  cases rest with
  | nil => exact List.prefix_rfl
  | cons w' rest =>
      simp only [lines, List.append_assoc]
      exact List.prefix_append _ _

theorem pad_prefix_key (indent : Nat) (k : PlainForm) : pad indent <+: key indent k := by
  unfold key
  split <;> simp only [List.append_assoc] <;> exact List.prefix_append _ _

theorem pad_prefix_afterKey (indent : Nat) (k : PlainForm) (v : Value) (below : Written) :
    pad indent <+: (afterKey indent k v below).text := by
  have hkey := pad_prefix_key indent k
  unfold afterKey inline
  repeat' split
  all_goals
    simp only [List.append_assoc]
    exact hkey.trans (List.prefix_append _ _)

theorem pad_prefix_item (indent : Nat) (v : Value) (below : Written) :
    pad indent <+: (item indent v below).text := by
  unfold item inline
  repeat' split
  all_goals
    simp only [List.append_assoc]
    exact List.prefix_append _ _

theorem length_pad (indent : Nat) : (pad indent).length = indent := List.length_replicate

theorem pad_append_drop_ended (h : pad indent <+: w.text) :
    pad indent ++ w.ended.drop indent = w.ended := by
  have hended : pad indent <+: w.ended := by
    unfold Written.ended
    split
    · exact h
    · exact h.trans (List.prefix_append _ _)
  obtain ⟨rest, hrest⟩ := hended
  rw [← hrest, List.drop_left' (length_pad indent)]

theorem drop_ended_eq_iff {w' : Written} (h : pad indent <+: w.text) (h' : pad indent <+: w'.text) :
    w.ended.drop indent = w'.ended.drop indent ↔ w.ended = w'.ended := by
  constructor
  · intro heq
    rw [← pad_append_drop_ended h, ← pad_append_drop_ended h', heq]
  · intro heq
    rw [heq]

theorem ended_append (w : Written) (lead : Text) :
    Written.ended { w with text := lead ++ w.text } = lead ++ w.ended := by
  unfold Written.ended
  cases w.closed with
  | true => rfl
  | false => simp

theorem ended_append_drop (h : pad indent <+: w.text) (lead : Text) :
    Written.ended { w with text := lead ++ w.text.drop indent } = lead ++ w.ended.drop indent := by
  have hlength : indent ≤ w.text.length := by
    have hle := h.length_le
    rwa [length_pad] at hle
  unfold Written.ended
  cases w.closed with
  | true => rfl
  | false => simp [List.drop_append_of_le_length hlength]

end Lines

section Shows

variable {indent : Nat} {v : Value} {w below below' : Written}

/-- What is not written as a block has an empty one. -/
theorem eq_of_shows_of_ofValue?_eq_some {f : PlainForm} (hf : PlainForm.ofValue? v = some f)
    (h : Shows indent v w) : w = ⟨[], false⟩ := by
  cases h with
  | scalar _ => rfl
  | @list _ items _ _ _ =>
      cases items with
      | nil => rfl
      | cons _ _ => cases hf
  | @map _ _ entries _ _ hsorted _ _ =>
      cases entries with
      | nil =>
          cases hsorted.perm.eq_nil
          rfl
      | cons _ _ => cases hf
  | @record _ fields _ _ _ =>
      cases fields with
      | nil => rfl
      | cons _ _ => cases hf

theorem pad_prefix_lines {α : Type} {l : List α} {below : List Written}
    {put : α → Written → Written} (hput : ∀ a w, pad indent <+: (put a w).text)
    (hlength : below.length = l.length) (hl : l ≠ []) :
    pad indent <+: (lines (l.zipWith put below)).text := by
  cases l with
  | nil => exact absurd rfl hl
  | cons a rest =>
      cases below with
      | nil => cases hlength
      | cons w below => exact (hput a w).trans (text_prefix_lines _ _)

/-- A block starts with its indentation. -/
theorem pad_prefix_of_shows (hf : PlainForm.ofValue? v = none) (h : Shows indent v w) :
    pad indent <+: w.text := by
  cases h with
  | scalar h => cases v <;> first | cases hf | cases h
  | list hlength h =>
      apply pad_prefix_lines (pad_prefix_item indent) hlength
      rintro rfl
      cases hf
  | map hsorted hlength h =>
      apply pad_prefix_lines (fun e w => pad_prefix_afterKey indent _ _ w) hlength
      rintro rfl
      cases hsorted.perm.nil_eq
      cases hf
  | record hlength h =>
      apply pad_prefix_lines (fun f w => pad_prefix_afterKey indent _ _ w) hlength
      rintro rfl
      cases hf

theorem ended_item_eq_iff (h : Shows (indent + 2) v below) (h' : Shows (indent + 2) v below') :
    (item indent v below).ended = (item indent v below').ended ↔ below.ended = below'.ended := by
  unfold item
  cases hf : PlainForm.ofValue? v with
  | some f =>
      rw [eq_of_shows_of_ofValue?_eq_some hf h, eq_of_shows_of_ofValue?_eq_some hf h']
      exact iff_of_true rfl rfl
  | none =>
      have hpad := pad_prefix_of_shows hf h
      have hpad' := pad_prefix_of_shows hf h'
      rw [ended_append_drop hpad, ended_append_drop hpad', List.append_right_inj,
        drop_ended_eq_iff hpad hpad']

theorem ended_afterKey_eq_iff (k : PlainForm) (h : Shows (indent + 2) v below)
    (h' : Shows (indent + 2) v below') :
    (afterKey indent k v below).ended = (afterKey indent k v below').ended ↔
      below.ended = below'.ended := by
  unfold afterKey
  cases hf : PlainForm.ofValue? v with
  | some f =>
      rw [eq_of_shows_of_ofValue?_eq_some hf h, eq_of_shows_of_ofValue?_eq_some hf h']
      exact iff_of_true rfl rfl
  | none =>
      simp only
      split
      · rw [ended_append, ended_append, List.append_right_inj]
      · have hpad := pad_prefix_of_shows hf h
        have hpad' := pad_prefix_of_shows hf h'
        rw [ended_append_drop hpad, ended_append_drop hpad', List.append_right_inj,
          drop_ended_eq_iff hpad hpad']

/-- A value is seen behind its key unless it cannot be looked up. -/
theorem ended_entry_eq_iff {e : Value × Value} (h : Shows (indent + 2) e.2 below)
    (h' : Shows (indent + 2) e.2 below') :
    (entry indent e below).ended = (entry indent e below').ended ↔
      (isLost e.1 = false → below.ended = below'.ended) := by
  unfold entry
  cases isLost e.1 with
  | true => exact iff_of_true rfl (by rintro ⟨⟩)
  | false =>
      rw [if_neg Bool.false_ne_true, ended_afterKey_eq_iff _ h h']
      exact ⟨fun heq _ => heq, fun heq => heq rfl⟩

end Shows

section Exact

variable {indent : Nat}

/-- Whether a collection has one text as a block, by all that it may be written as. -/
def HasOneText (indent : Nat) (v : Value) : Prop :=
  ∀ w, Shows indent v w → w.ended = (block indent v).ended

section Parallel

variable {α : Type} {l r : List α} {value : α → Value} {below : List Written}
  {put : α → Written → Written}

theorem forall₂_shows_iff :
    (below.length = l.length ∧ ∀ p ∈ l.zip below, Shows (indent + 2) (value p.1) p.2) ↔
      List.Forall₂ (fun a w => Shows (indent + 2) (value a) w) l below := by
  rw [List.forall₂_iff_zip, eq_comm]
  exact and_congr_right fun _ => ⟨fun h a w hp => h (a, w) hp, fun h p hp => h hp⟩

theorem ended_lines_zipWith_eq_iff (hlength : below.length = l.length) (hr : r.length = l.length) :
    (lines (l.zipWith put below)).ended =
        (lines (r.map fun a => put a (block (indent + 2) (value a)))).ended ↔
      (l.zipWith (fun a w => (put a w).ended) below).flatten =
        r.flatMap fun a => (put a (block (indent + 2) (value a))).ended := by
  rw [ended_lines_eq_iff (by rw [List.length_zipWith, hlength, Nat.min_self, List.length_map, hr]),
    List.flatMap_def, List.map_zipWith, List.flatMap_map]

variable {seen : α → Prop}
  (hput : ∀ {a w w'}, Shows (indent + 2) (value a) w → Shows (indent + 2) (value a) w' →
    ((put a w).ended = (put a w').ended ↔ (seen a → w.ended = w'.ended)))

include hput

theorem forall_ended_put_eq_iff :
    (∀ a ∈ l, ∀ w, Shows (indent + 2) (value a) w →
      (put a w).ended = (put a (block (indent + 2) (value a))).ended) ↔
      ∀ a ∈ l, seen a → HasOneText (indent + 2) (value a) := by
  refine forall₂_congr fun a _ => ⟨fun h hseen w hw => ?_, fun h w hw => ?_⟩
  · exact (hput hw (shows_block _ _)).mp (h w hw) hseen
  · exact (hput hw (shows_block _ _)).mpr fun hseen => h hseen w hw

variable (value put seen)

/-- Values in parallel have one text together if and only if each of them has that is seen. -/
theorem forall_ended_lines_eq_iff :
    (∀ {below : List Written}, below.length = l.length →
      (∀ p ∈ l.zip below, Shows (indent + 2) (value p.1) p.2) →
      (lines (l.zipWith put below)).ended =
        (lines (l.map fun a => put a (block (indent + 2) (value a)))).ended) ↔
      ∀ a ∈ l, seen a → HasOneText (indent + 2) (value a) := by
  rw [← forall_ended_put_eq_iff hput,
    ← Sorting.flatten_zipWith_eq_iff (fun a w => (put a w).ended)
      fun a _ => shows_block (indent + 2) (value a)]
  constructor
  · intro h below hbelow
    obtain ⟨hlength, hshows⟩ := forall₂_shows_iff.mpr hbelow
    exact (ended_lines_zipWith_eq_iff hlength rfl).mp (h hlength hshows)
  · intro h below hlength hshows
    exact (ended_lines_zipWith_eq_iff hlength rfl).mpr
      (h below (forall₂_shows_iff.mp ⟨hlength, hshows⟩))

/-- Values that are sorted have one text together if moreover sorting settles their order. -/
theorem forall_ended_lines_sorted_eq_iff (less : α → α → Bool) :
    (∀ {r : List α} {below : List Written}, Sorting.Sorts less l r → below.length = r.length →
      (∀ p ∈ r.zip below, Shows (indent + 2) (value p.1) p.2) →
      (lines (r.zipWith put below)).ended =
        (lines ((l.mergeSort fun a b => !less b a).map fun a =>
          put a (block (indent + 2) (value a)))).ended) ↔
      (∀ a ∈ l, seen a → HasOneText (indent + 2) (value a)) ∧
        Sorting.Settles less (fun a => (put a (block (indent + 2) (value a))).ended) l := by
  have hsorted : ∀ {r}, Sorting.Sorts less l r →
      (l.mergeSort fun a b => !less b a).length = r.length := by
    intro r hr
    rw [List.length_mergeSort, hr.perm.length_eq]
  rw [← forall_ended_put_eq_iff hput,
    ← Sorting.flatten_zipWith_sorted_eq_iff (fun a w => (put a w).ended)
      fun a _ => shows_block (indent + 2) (value a)]
  constructor
  · intro h r below hr hbelow
    obtain ⟨hlength, hshows⟩ := forall₂_shows_iff.mpr hbelow
    exact (ended_lines_zipWith_eq_iff hlength (hsorted hr)).mp (h hr hlength hshows)
  · intro h r below hr hlength hshows
    exact (ended_lines_zipWith_eq_iff hlength (hsorted hr)).mpr
      (h r below hr (forall₂_shows_iff.mp ⟨hlength, hshows⟩))

end Parallel

theorem hasOneText_list_iff {items : List Value} :
    HasOneText indent (.list items) ↔ ∀ v ∈ items, HasOneText (indent + 2) v := by
  have hitems := forall_ended_lines_eq_iff (l := items) id (item indent) (fun _ => True)
    fun hw hw' => (ended_item_eq_iff hw hw').trans true_imp_iff.symm
  simp only [true_imp_iff, id_eq, ← blockItems_eq_map] at hitems
  rw [← hitems]
  constructor
  · exact fun h below hlength hshows => h _ (.list hlength hshows)
  · intro h w hw
    cases hw with
    | scalar hscalar => cases hscalar
    | list hlength hshows => exact h hlength hshows

theorem hasOneText_record_iff {fields : List (Text × Value)} :
    HasOneText indent (.record fields) ↔ ∀ f ∈ fields, HasOneText (indent + 2) f.2 := by
  have hfields := forall_ended_lines_eq_iff (l := fields) Prod.snd (field indent) (fun _ => True)
    fun hw hw' => (ended_afterKey_eq_iff _ hw hw').trans true_imp_iff.symm
  simp only [true_imp_iff, ← blockFields_eq_map] at hfields
  rw [← hfields]
  constructor
  · exact fun h below hlength hshows => h _ (.record hlength hshows)
  · intro h w hw
    cases hw with
    | scalar hscalar => cases hscalar
    | record hlength hshows => exact h hlength hshows

theorem hasOneText_map_iff {general : Bool} {entries : List (Value × Value)} :
    HasOneText indent (.map general entries) ↔
      (∀ e ∈ entries, isLost e.1 = false → HasOneText (indent + 2) e.2) ∧
        Sorting.Settles (fun a b => KeyOrder.less a.1 b.1)
          (fun e => (entry indent e (block (indent + 2) e.2)).ended) entries := by
  have hentries := forall_ended_lines_sorted_eq_iff (l := entries) Prod.snd (entry indent)
    (fun e => isLost e.1 = false) (fun hw hw' => ended_entry_eq_iff hw hw')
    fun a b => KeyOrder.less a.1 b.1
  simp only [← block_map _ general] at hentries
  rw [← hentries]
  constructor
  · exact fun h r below hr hlength hshows => h _ (.map hr hlength hshows)
  · intro h w hw
    cases hw with
    | scalar hscalar => cases hscalar
    | map hr hlength hshows => exact h hr hlength hshows

mutual

theorem isSettled_iff (indent : Nat) : ∀ v : Value, isSettled indent v = true ↔ HasOneText indent v
  | .list items => by rw [isSettled, isSettledItems_iff, hasOneText_list_iff]
  | .map general entries => by
      rw [isSettled, Bool.and_eq_true, isSettledEntries_iff, decide_eq_true_iff, hasOneText_map_iff]
  | .record fields => by rw [isSettled, isSettledFields_iff, hasOneText_record_iff]
  | .null => iff_of_true rfl (by rintro _ ⟨⟩; rfl)
  | .bool _ => iff_of_true rfl (by rintro _ ⟨⟩; rfl)
  | .int _ => iff_of_true rfl (by rintro _ ⟨⟩; rfl)
  | .float _ => iff_of_true rfl (by rintro _ ⟨⟩; rfl)
  | .time _ => iff_of_true rfl (by rintro _ ⟨⟩; rfl)
  | .text _ => iff_of_true rfl (by rintro _ ⟨⟩; rfl)

theorem isSettledItems_iff (indent : Nat) : ∀ items : List Value,
    isSettledItems indent items = true ↔ ∀ v ∈ items, HasOneText (indent + 2) v
  | [] => iff_of_true rfl (List.forall_mem_nil _)
  | v :: rest => by
      rw [isSettledItems, Bool.and_eq_true, isSettled_iff (indent + 2) v,
        isSettledItems_iff indent rest, List.forall_mem_cons]

theorem isSettledEntries_iff (indent : Nat) : ∀ entries : List (Value × Value),
    isSettledEntries indent entries = true ↔
      ∀ e ∈ entries, isLost e.1 = false → HasOneText (indent + 2) e.2
  | [] => iff_of_true rfl (List.forall_mem_nil _)
  | (k, v) :: rest => by
      rw [isSettledEntries, Bool.and_eq_true, Bool.or_eq_true, isSettled_iff (indent + 2) v,
        isSettledEntries_iff indent rest, List.forall_mem_cons, or_iff_not_imp_left,
        Bool.not_eq_true]

theorem isSettledFields_iff (indent : Nat) : ∀ fields : List (Text × Value),
    isSettledFields indent fields = true ↔ ∀ f ∈ fields, HasOneText (indent + 2) f.2
  | [] => iff_of_true rfl (List.forall_mem_nil _)
  | (_, v) :: rest => by
      rw [isSettledFields, Bool.and_eq_true, isSettled_iff (indent + 2) v,
        isSettledFields_iff indent rest, List.forall_mem_cons]

end

/-- A value has one document if and only if it is settled. -/
theorem showsDocument_eq_iff {v : Value} :
    (∀ text, ShowsDocument v text → text = document v) ↔ isSettled 0 v = true := by
  rw [isSettled_iff]
  unfold ShowsDocument document
  cases hf : PlainForm.ofValue? v with
  | some f =>
      refine iff_of_true (fun text htext => ?_) fun w hw => ?_
      · simpa only [document, hf] using htext
      · rw [eq_of_shows_of_ofValue?_eq_some hf hw,
          eq_of_shows_of_ofValue?_eq_some hf (shows_block 0 v)]
  | none =>
      constructor
      · exact fun h w hw => h _ ⟨w, hw, rfl⟩
      · rintro h _ ⟨w, hw, rfl⟩
        exact h w hw

end Exact

end RecordSchema.Yaml.Write
