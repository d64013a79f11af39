import RecordSchema.Sorting
import RecordSchema.Yaml.Write

/-!
# The order of entries in YAML

The entries of a map come in no order of their own, and sorting them by their keys does not always
give one. `Shows` says all that a collection may be written as. The block of a collection is one of
it, in whatever order its maps list their entries.
-/

namespace RecordSchema.Yaml.Write

/-- What a collection may be written as; `below` are the blocks of the values in it. -/
inductive Shows : Nat → Value → Written → Prop where
  | list {indent : Nat} {items : List Value} {below : List Written}
      (hlength : below.length = items.length)
      (h : ∀ p ∈ items.zip below, Shows (indent + 2) p.1 p.2) :
      Shows indent (.list items) (lines (items.zipWith (item indent) below))
  | map {indent : Nat} {general : Bool} {entries sorted : List (Value × Value)}
      {below : List Written}
      (hsorted : Sorting.Sorts (fun a b => KeyOrder.less a.1 b.1) entries sorted)
      (hlength : below.length = sorted.length)
      (h : ∀ p ∈ sorted.zip below, Shows (indent + 2) p.1.2 p.2) :
      Shows indent (.map general entries) (lines (sorted.zipWith (entry indent) below))
  | record {indent : Nat} {fields : List (Text × Value)} {below : List Written}
      (hlength : below.length = fields.length)
      (h : ∀ p ∈ fields.zip below, Shows (indent + 2) p.1.2 p.2) :
      Shows indent (.record fields) (lines (fields.zipWith (field indent) below))
  | scalar {indent : Nat} {v : Value} (h : v.isCollection = false) :
      Shows indent v ⟨[], false⟩

/-- Whether a text may be written as the document of a value. -/
def ShowsDocument (v : Value) (text : Text) : Prop :=
  match PlainForm.ofValue? v with
  | some _ => text = document v
  | none => ∃ w, Shows 0 v w ∧ text = w.ended

section Block

variable {indent : Nat}

theorem blockItems_eq_map (indent : Nat) (items : List Value) :
    blockItems indent items = items.map fun v => item indent v (block (indent + 2) v) := by
  induction items with
  | nil => rfl
  | cons v rest ih => rw [blockItems, ih, List.map_cons]

theorem blockEntries_eq_map (indent : Nat) (entries : List (Value × Value)) :
    blockEntries indent entries =
      entries.map fun e => (e.1, entry indent e (block (indent + 2) e.2)) := by
  induction entries with
  | nil => rfl
  | cons e rest ih => rw [blockEntries, ih, List.map_cons]

theorem blockFields_eq_map (indent : Nat) (fields : List (Text × Value)) :
    blockFields indent fields = fields.map fun f => field indent f (block (indent + 2) f.2) := by
  induction fields with
  | nil => rfl
  | cons f rest ih => rw [blockFields, ih, List.map_cons]

/-- What keeps the keys may be done to the entries before or after sorting them. -/
theorem mergeSort_map {β : Type} (f : Value × Value → β) (entries : List (Value × Value)) :
    ((entries.map fun e => (e.1, f e)).mergeSort fun a b => !KeyOrder.less b.1 a.1) =
      (entries.mergeSort fun a b => !KeyOrder.less b.1 a.1).map fun e => (e.1, f e) := by
  symm
  apply List.map_mergeSort
  intro _ _ _ _
  rfl

theorem block_map (indent : Nat) (general : Bool) (entries : List (Value × Value)) :
    block indent (.map general entries) =
      lines ((entries.mergeSort fun a b => !KeyOrder.less b.1 a.1).map fun e =>
        entry indent e (block (indent + 2) e.2)) := by
  rw [block, blockEntries_eq_map, mergeSort_map, List.map_map]
  rfl

end Block

section Shows

variable {indent : Nat}

section Parallel

variable {α : Type} {below : α → Written} {l : List α}

theorem shows_of_mem_zip (value : α → Value) (h : ∀ a ∈ l, Shows (indent + 2) (value a) (below a)) :
    ∀ p ∈ l.zip (l.map below), Shows (indent + 2) (value p.1) p.2 := by
  intro p hp
  rw [← List.map_prod_left_eq_zip] at hp
  obtain ⟨a, ha, rfl⟩ := List.mem_map.mp hp
  exact h a ha

theorem zipWith_map_self (below : α → Written) (put : α → Written → Written) :
    l.zipWith put (l.map below) = l.map fun a => put a (below a) := by
  rw [List.zipWith_map_right, List.zipWith_self]

end Parallel

theorem shows_list {items : List Value} (below : Value → Written)
    (h : ∀ v ∈ items, Shows (indent + 2) v (below v)) :
    Shows indent (.list items) (lines (items.map fun v => item indent v (below v))) := by
  rw [← zipWith_map_self below]
  exact .list (List.length_map below) (shows_of_mem_zip id h)

theorem shows_map {general : Bool} {entries sorted : List (Value × Value)} (below : Value → Written)
    (hsorted : Sorting.Sorts (fun a b => KeyOrder.less a.1 b.1) entries sorted)
    (h : ∀ e ∈ entries, Shows (indent + 2) e.2 (below e.2)) :
    Shows indent (.map general entries)
      (lines (sorted.map fun e => entry indent e (below e.2))) := by
  rw [← zipWith_map_self fun e : Value × Value => below e.2]
  refine .map hsorted (List.length_map _) (shows_of_mem_zip Prod.snd fun e he => ?_)
  exact h e (hsorted.perm.mem_iff.mp he)

theorem shows_record {fields : List (Text × Value)} (below : Value → Written)
    (h : ∀ f ∈ fields, Shows (indent + 2) f.2 (below f.2)) :
    Shows indent (.record fields) (lines (fields.map fun f => field indent f (below f.2))) := by
  rw [← zipWith_map_self fun f : Text × Value => below f.2]
  exact .record (List.length_map _) (shows_of_mem_zip Prod.snd h)

mutual

/-- The block of a collection is one of those that it may be written as. -/
theorem shows_block (indent : Nat) : ∀ v : Value, Shows indent v (block indent v)
  | .list items => by
      rw [block, blockItems_eq_map]
      exact shows_list _ (shows_blockItems (indent + 2) items)
  | .map general entries => by
      rw [block_map]
      exact shows_map _ (Sorting.sorts_mergeSort _ entries)
        (shows_blockEntries (indent + 2) entries)
  | .record fields => by
      rw [block, blockFields_eq_map]
      exact shows_record _ (shows_blockFields (indent + 2) fields)
  | .null => .scalar rfl
  | .bool _ => .scalar rfl
  | .int _ => .scalar rfl
  | .float _ => .scalar rfl
  | .time _ => .scalar rfl
  | .text _ => .scalar rfl

theorem shows_blockItems (indent : Nat) :
    ∀ items : List Value, ∀ v ∈ items, Shows indent v (block indent v)
  | v :: rest => List.forall_mem_cons.mpr ⟨shows_block indent v, shows_blockItems indent rest⟩
  | [] => List.forall_mem_nil _

theorem shows_blockEntries (indent : Nat) :
    ∀ entries : List (Value × Value), ∀ e ∈ entries, Shows indent e.2 (block indent e.2)
  | (_, v) :: rest =>
      List.forall_mem_cons.mpr ⟨shows_block indent v, shows_blockEntries indent rest⟩
  | [] => List.forall_mem_nil _

theorem shows_blockFields (indent : Nat) :
    ∀ fields : List (Text × Value), ∀ f ∈ fields, Shows indent f.2 (block indent f.2)
  | (_, v) :: rest =>
      List.forall_mem_cons.mpr ⟨shows_block indent v, shows_blockFields indent rest⟩
  | [] => List.forall_mem_nil _

end

theorem showsDocument_document (v : Value) : ShowsDocument v (document v) := by
  unfold ShowsDocument
  split
  · rfl
  · next hf =>
    refine ⟨_, shows_block 0 v, ?_⟩
    rw [document, hf]

end Shows

section Reversed

theorem ofValue?_reversed (v : Value) : PlainForm.ofValue? v.reversed = PlainForm.ofValue? v := by
  cases v with
  | list items => cases items <;> rfl
  | record fields => cases fields <;> rfl
  | map general entries =>
    cases entries with
    | nil => rfl
    | cons e rest => simp [Value.reversed, Value.reversedEntries, PlainForm.ofValue?]
  | _ => rfl

theorem isCollection_reversed (v : Value) : v.reversed.isCollection = v.isCollection := by
  cases v <;> rfl

theorem afterKey_reversed (indent : Nat) (k : PlainForm) (v : Value) (below : Written) :
    afterKey indent k v.reversed below = afterKey indent k v below := by
  simp only [afterKey, inline, ofValue?_reversed, isCollection_reversed]

theorem item_reversed (indent : Nat) (v : Value) (below : Written) :
    item indent v.reversed below = item indent v below := by
  simp only [item, inline, ofValue?_reversed, isCollection_reversed]

theorem entry_reversed (indent : Nat) (e : Value × Value) (below : Written) :
    entry indent (e.1, e.2.reversed) below = entry indent e below := by
  unfold entry
  split
  · rfl
  · exact afterKey_reversed indent _ e.2 below

theorem reversedItems_eq_map (items : List Value) :
    Value.reversedItems items = items.map Value.reversed := by
  induction items with
  | nil => rfl
  | cons v rest ih => rw [Value.reversedItems, ih, List.map_cons]

theorem reversedEntries_eq_map (entries : List (Value × Value)) :
    Value.reversedEntries entries = entries.map fun e => (e.1, e.2.reversed) := by
  induction entries with
  | nil => rfl
  | cons e rest ih => rw [Value.reversedEntries, ih, List.map_cons]

theorem reversedFields_eq_map (fields : List (Text × Value)) :
    Value.reversedFields fields = fields.map fun f => (f.1, f.2.reversed) := by
  induction fields with
  | nil => rfl
  | cons f rest ih => rw [Value.reversedFields, ih, List.map_cons]

mutual

/-- So is the block of the collection with its maps listed backwards. -/
theorem shows_block_reversed (indent : Nat) :
    ∀ v : Value, Shows indent v (block indent v.reversed)
  | .list items => by
      rw [Value.reversed, block, blockItems_eq_map, reversedItems_eq_map, List.map_map]
      simp only [Function.comp_def, item_reversed]
      exact shows_list (fun v => block (indent + 2) v.reversed)
        (shows_reversedItems (indent + 2) items)
  | .map general entries => by
      rw [Value.reversed, block_map, reversedEntries_eq_map, ← List.map_reverse, mergeSort_map,
        List.map_map]
      simp only [Function.comp_def, entry_reversed]
      exact shows_map (fun v => block (indent + 2) v.reversed)
        ((Sorting.sorts_mergeSort _ entries.reverse).of_perm entries.reverse_perm)
        (shows_reversedEntries (indent + 2) entries)
  | .record fields => by
      rw [Value.reversed, block, blockFields_eq_map, reversedFields_eq_map, List.map_map]
      simp only [Function.comp_def, field, afterKey_reversed]
      exact shows_record (fun v => block (indent + 2) v.reversed)
        (shows_reversedFields (indent + 2) fields)
  | .null => .scalar rfl
  | .bool _ => .scalar rfl
  | .int _ => .scalar rfl
  | .float _ => .scalar rfl
  | .time _ => .scalar rfl
  | .text _ => .scalar rfl

theorem shows_reversedItems (indent : Nat) :
    ∀ items : List Value, ∀ v ∈ items, Shows indent v (block indent v.reversed)
  | v :: rest =>
      List.forall_mem_cons.mpr ⟨shows_block_reversed indent v, shows_reversedItems indent rest⟩
  | [] => List.forall_mem_nil _

theorem shows_reversedEntries (indent : Nat) :
    ∀ entries : List (Value × Value), ∀ e ∈ entries, Shows indent e.2 (block indent e.2.reversed)
  | (_, v) :: rest =>
      List.forall_mem_cons.mpr ⟨shows_block_reversed indent v, shows_reversedEntries indent rest⟩
  | [] => List.forall_mem_nil _

theorem shows_reversedFields (indent : Nat) :
    ∀ fields : List (Text × Value), ∀ f ∈ fields, Shows indent f.2 (block indent f.2.reversed)
  | (_, v) :: rest =>
      List.forall_mem_cons.mpr ⟨shows_block_reversed indent v, shows_reversedFields indent rest⟩
  | [] => List.forall_mem_nil _

end

/-- A value is a document in whatever order its maps list their entries. -/
theorem showsDocument_reversed (v : Value) : ShowsDocument v (document v.reversed) := by
  unfold ShowsDocument
  split
  · next f hf =>
    unfold document
    rw [ofValue?_reversed, hf, isCollection_reversed]
  · next hf =>
    refine ⟨_, shows_block_reversed 0 v, ?_⟩
    rw [document, ofValue?_reversed, hf]

end Reversed

end RecordSchema.Yaml.Write
