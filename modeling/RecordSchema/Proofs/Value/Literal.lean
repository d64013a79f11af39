import RecordSchema.Proofs.Sorting
import RecordSchema.Value.Literal

/-!
# Values that messages show in one way

A message shows a value in one way, whatever order the entries of its maps come in, if and only if
`isTold` holds of it: in each of its maps, entries whose keys leave their order open can change
places without being seen.
-/

namespace RecordSchema

open Text

namespace Text

theorem join_append (sep : Text) {parts : List Text} (h : parts ≠ []) :
    join sep parts ++ sep = parts.flatMap (· ++ sep) := by
  induction parts with
  | nil => exact absurd rfl h
  | cons part rest ih =>
      cases rest with
      | nil => simp [join]
      | cons next rest =>
          rw [List.flatMap_cons, ← ih (List.cons_ne_nil next rest)]
          simp [join]

theorem join_eq_iff (sep : Text) {parts parts' : List Text} (h : parts.length = parts'.length) :
    join sep parts = join sep parts' ↔ parts.flatMap (· ++ sep) = parts'.flatMap (· ++ sep) := by
  by_cases hparts : parts = []
  · have hparts' : parts' = [] := List.eq_nil_of_length_eq_zero (by rw [← h, hparts]; rfl)
    rw [hparts, hparts']
    exact iff_of_true rfl rfl
  · have hparts' : parts' ≠ [] := by
      rintro rfl
      exact hparts (List.eq_nil_of_length_eq_zero h)
    rw [← join_append sep hparts, ← join_append sep hparts', List.append_left_inj]

end Text

namespace Value

mutual

/-- Whether a message shows a value in one way. -/
def isTold : Value → Bool
  | list items => isToldItems items
  | map _ entries =>
    isToldEntries entries &&
      decide (Sorting.Settles (fun a b => !shownBefore b.1 a.1)
        (fun e => literalEntry e e.2.literal ++ ofString ", ") entries)
  | record fields => isToldFields fields
  | _ => true

def isToldItems : List Value → Bool
  | [] => true
  | v :: rest => isTold v && isToldItems rest

def isToldEntries : List (Value × Value) → Bool
  | [] => true
  | (_, v) :: rest => isTold v && isToldEntries rest

def isToldFields : List (Text × Value) → Bool
  | [] => true
  | (_, v) :: rest => isTold v && isToldFields rest

end

section Literal

theorem literals_eq_map (items : List Value) : literals items = items.map literal := by
  induction items with
  | nil => rfl
  | cons v rest ih => rw [literals, ih, List.map_cons]

theorem literalFields_eq_map (fields : List (Text × Value)) :
    literalFields fields = fields.map fun f => literalField f f.2.literal := by
  induction fields with
  | nil => rfl
  | cons f rest ih =>
      rw [literalFields, ih, List.map_cons]
      rfl

theorem literalEntries_eq_map (entries : List (Value × Value)) :
    literalEntries entries = entries.map fun e => (e.1, literalEntry e e.2.literal) := by
  induction entries with
  | nil => rfl
  | cons e rest ih =>
      rw [literalEntries, ih, List.map_cons]
      rfl

/-- Sorting what is shown for the entries is showing the sorted entries. -/
theorem literal_map (general : Bool) (entries : List (Value × Value)) :
    (map general entries).literal =
      literalMap general ((entries.mergeSort fun a b => !!shownBefore a.1 b.1).map fun e =>
        literalEntry e e.2.literal) := by
  have hsorted := List.map_mergeSort (l := entries) (r := fun a b => shownBefore a.1 b.1)
    (s := fun a b => shownBefore a.1 b.1) (f := fun e => (e.1, literalEntry e e.2.literal))
    fun _ _ _ _ => rfl
  simp only [Bool.not_not]
  rw [literal, literalEntries_eq_map, ← hsorted, List.map_map]
  rfl

theorem tells_of_mem_zip {α : Type} {l : List α} (value : α → Value)
    (h : ∀ a ∈ l, Tells (value a) (value a).literal) :
    ∀ p ∈ l.zip (l.map fun a => (value a).literal), Tells (value p.1) p.2 := by
  intro p hp
  rw [← List.map_prod_left_eq_zip] at hp
  obtain ⟨a, ha, rfl⟩ := List.mem_map.mp hp
  exact h a ha

theorem zipWith_map_literal {α : Type} {l : List α} (value : α → Value) (put : α → Text → Text) :
    l.zipWith put (l.map fun a => (value a).literal) = l.map fun a => put a (value a).literal := by
  rw [List.zipWith_map_right, List.zipWith_self]

mutual

/-- A value may be shown as it is in the order of the document. -/
theorem tells_literal : ∀ v : Value, Tells v v.literal
  | list items => by
      rw [literal, literals_eq_map]
      exact .list (List.length_map _) (tells_of_mem_zip id (tells_literals items))
  | map general entries => by
      have hsorted := Sorting.sorts_mergeSort (fun a b => !shownBefore b.1 a.1) entries
      rw [literal_map, ← zipWith_map_literal Prod.snd]
      refine .map hsorted (List.length_map _) (tells_of_mem_zip Prod.snd fun e he => ?_)
      exact tells_literalEntries entries e (hsorted.perm.mem_iff.mp he)
  | record fields => by
      rw [literal, literalFields_eq_map, ← zipWith_map_literal Prod.snd]
      exact .record (List.length_map _) (tells_of_mem_zip Prod.snd (tells_literalFields fields))
  | null => .scalar rfl
  | bool _ => .scalar rfl
  | int _ => .scalar rfl
  | float _ => .scalar rfl
  | time _ => .scalar rfl
  | text _ => .scalar rfl

theorem tells_literals : ∀ items : List Value, ∀ v ∈ items, Tells v v.literal
  | v :: rest => List.forall_mem_cons.mpr ⟨tells_literal v, tells_literals rest⟩
  | [] => List.forall_mem_nil _

theorem tells_literalEntries :
    ∀ entries : List (Value × Value), ∀ e ∈ entries, Tells e.2 e.2.literal
  | (_, v) :: rest => List.forall_mem_cons.mpr ⟨tells_literal v, tells_literalEntries rest⟩
  | [] => List.forall_mem_nil _

theorem tells_literalFields : ∀ fields : List (Text × Value), ∀ f ∈ fields, Tells f.2 f.2.literal
  | (_, v) :: rest => List.forall_mem_cons.mpr ⟨tells_literal v, tells_literalFields rest⟩
  | [] => List.forall_mem_nil _

end

end Literal

/-- Whether a message shows a value in one way, by all that it may show. -/
def HasOneLiteral (v : Value) : Prop := ∀ text, Tells v text → text = v.literal

section Exact

section Parallel

variable {α : Type} {l r : List α} {value : α → Value} {parts : List Text} {put : α → Text → Text}

theorem forall₂_tells_iff :
    (parts.length = l.length ∧ ∀ p ∈ l.zip parts, Tells (value p.1) p.2) ↔
      List.Forall₂ (fun a t => Tells (value a) t) l parts := by
  rw [List.forall₂_iff_zip, eq_comm]
  exact and_congr_right fun _ => ⟨fun h a t hp => h (a, t) hp, fun h p hp => h hp⟩

theorem join_zipWith_eq_iff (hlength : parts.length = l.length) (hr : r.length = l.length) :
    join ", " (l.zipWith put parts) = join ", " (r.map fun a => put a (value a).literal) ↔
      (l.zipWith (fun a t => put a t ++ ofString ", ") parts).flatten =
        r.flatMap fun a => put a (value a).literal ++ ofString ", " := by
  rw [join_eq_iff _ (by rw [List.length_zipWith, hlength, Nat.min_self, List.length_map, hr]),
    List.flatMap_def, List.map_zipWith, List.flatMap_map]

variable (hput : ∀ a t t', put a t = put a t' ↔ t = t')

include hput

theorem forall_put_eq_iff :
    (∀ a ∈ l, ∀ t, Tells (value a) t →
      put a t ++ ofString ", " = put a (value a).literal ++ ofString ", ") ↔
      ∀ a ∈ l, HasOneLiteral (value a) := by
  simp only [List.append_left_inj, hput, HasOneLiteral]

variable (value put)

/-- Values in parallel are shown in one way together if and only if each of them is. -/
theorem forall_join_eq_iff :
    (∀ {parts : List Text}, parts.length = l.length → (∀ p ∈ l.zip parts, Tells (value p.1) p.2) →
      join ", " (l.zipWith put parts) = join ", " (l.map fun a => put a (value a).literal)) ↔
      ∀ a ∈ l, HasOneLiteral (value a) := by
  rw [← forall_put_eq_iff hput,
    ← Sorting.flatten_zipWith_eq_iff (fun a t => put a t ++ ofString ", ")
      fun a _ => tells_literal (value a)]
  constructor
  · intro h parts hparts
    obtain ⟨hlength, htells⟩ := forall₂_tells_iff.mpr hparts
    exact (join_zipWith_eq_iff hlength rfl).mp (h hlength htells)
  · intro h parts hlength htells
    exact (join_zipWith_eq_iff hlength rfl).mpr (h parts (forall₂_tells_iff.mp ⟨hlength, htells⟩))

/-- Values that are sorted are shown in one way together if moreover sorting settles their order. -/
theorem forall_join_sorted_eq_iff (less : α → α → Bool) :
    (∀ {r : List α} {parts : List Text}, Sorting.Sorts less l r → parts.length = r.length →
      (∀ p ∈ r.zip parts, Tells (value p.1) p.2) →
      join ", " (r.zipWith put parts) =
        join ", " ((l.mergeSort fun a b => !less b a).map fun a => put a (value a).literal)) ↔
      (∀ a ∈ l, HasOneLiteral (value a)) ∧
        Sorting.Settles less (fun a => put a (value a).literal ++ ofString ", ") l := by
  have hsorted : ∀ {r}, Sorting.Sorts less l r →
      (l.mergeSort fun a b => !less b a).length = r.length := by
    intro r hr
    rw [List.length_mergeSort, hr.perm.length_eq]
  rw [← forall_put_eq_iff hput,
    ← Sorting.flatten_zipWith_sorted_eq_iff (fun a t => put a t ++ ofString ", ")
      fun a _ => tells_literal (value a)]
  constructor
  · intro h r parts hr hparts
    obtain ⟨hlength, htells⟩ := forall₂_tells_iff.mpr hparts
    exact (join_zipWith_eq_iff hlength (hsorted hr)).mp (h hr hlength htells)
  · intro h r parts hr hlength htells
    exact (join_zipWith_eq_iff hlength (hsorted hr)).mpr
      (h r parts hr (forall₂_tells_iff.mp ⟨hlength, htells⟩))

end Parallel

theorem zipWith_second {α β : Type} {l : List α} {r : List β} (h : r.length = l.length) :
    l.zipWith (fun _ b => b) r = r := by
  have hsecond := List.map_snd_zip (Nat.le_of_eq h)
  rwa [List.zip, List.map_zipWith] at hsecond

theorem hasOneLiteral_list_iff {items : List Value} :
    HasOneLiteral (list items) ↔ ∀ v ∈ items, HasOneLiteral v := by
  have hitems := forall_join_eq_iff (l := items) id (fun _ t => t) fun _ _ _ => Iff.rfl
  simp only [id_eq] at hitems
  rw [← hitems]
  have hliteral : (list items).literal = literalList (items.map literal) := by
    rw [literal, literals_eq_map]
  constructor
  · intro h parts hlength htells
    have htext := h _ (.list hlength htells)
    rw [hliteral, literalList, literalList, List.append_left_inj, List.append_right_inj] at htext
    rw [zipWith_second hlength, htext]
  · intro h text htext
    cases htext with
    | scalar hscalar => cases hscalar
    | list hlength htells =>
        have hjoin := h hlength htells
        rw [zipWith_second hlength] at hjoin
        rw [hliteral, literalList, hjoin, literalList]

theorem hasOneLiteral_record_iff {fields : List (Text × Value)} :
    HasOneLiteral (record fields) ↔ ∀ f ∈ fields, HasOneLiteral f.2 := by
  rw [← forall_join_eq_iff Prod.snd literalField fun f t t' => List.append_right_inj _]
  have hliteral : (record fields).literal =
      literalRecord (fields.map fun f => literalField f f.2.literal) := by
    rw [literal, literalFields_eq_map]
  constructor
  · intro h parts hlength htells
    have htext := h _ (.record hlength htells)
    rw [hliteral, literalRecord, literalRecord, List.append_left_inj,
      List.append_right_inj] at htext
    exact htext
  · intro h text htext
    cases htext with
    | scalar hscalar => cases hscalar
    | record hlength htells => rw [hliteral, literalRecord, h hlength htells, literalRecord]

theorem hasOneLiteral_map_iff {general : Bool} {entries : List (Value × Value)} :
    HasOneLiteral (map general entries) ↔
      (∀ e ∈ entries, HasOneLiteral e.2) ∧
        Sorting.Settles (fun a b => !shownBefore b.1 a.1)
          (fun e => literalEntry e e.2.literal ++ ofString ", ") entries := by
  have hentries := forall_join_sorted_eq_iff (l := entries) Prod.snd literalEntry
    (fun e t t' => List.append_right_inj _) fun a b => !shownBefore b.1 a.1
  rw [← hentries]
  constructor
  · intro h r parts hr hlength htells
    have htext := h _ (.map hr hlength htells)
    rw [literal_map, literalMap, literalMap, List.append_left_inj, List.append_right_inj] at htext
    exact htext
  · intro h text htext
    cases htext with
    | scalar hscalar => cases hscalar
    | map hr hlength htells => rw [literal_map, literalMap, h hr hlength htells, literalMap]

mutual

theorem isTold_iff : ∀ v : Value, isTold v = true ↔ HasOneLiteral v
  | list items => by rw [isTold, isToldItems_iff, hasOneLiteral_list_iff]
  | map general entries => by
      rw [isTold, Bool.and_eq_true, isToldEntries_iff, decide_eq_true_iff, hasOneLiteral_map_iff]
  | record fields => by rw [isTold, isToldFields_iff, hasOneLiteral_record_iff]
  | null => iff_of_true rfl (by rintro _ ⟨⟩; rfl)
  | bool _ => iff_of_true rfl (by rintro _ ⟨⟩; rfl)
  | int _ => iff_of_true rfl (by rintro _ ⟨⟩; rfl)
  | float _ => iff_of_true rfl (by rintro _ ⟨⟩; rfl)
  | time _ => iff_of_true rfl (by rintro _ ⟨⟩; rfl)
  | text _ => iff_of_true rfl (by rintro _ ⟨⟩; rfl)

theorem isToldItems_iff : ∀ items : List Value,
    isToldItems items = true ↔ ∀ v ∈ items, HasOneLiteral v
  | [] => iff_of_true rfl (List.forall_mem_nil _)
  | v :: rest => by
      rw [isToldItems, Bool.and_eq_true, isTold_iff v, isToldItems_iff rest, List.forall_mem_cons]

theorem isToldEntries_iff : ∀ entries : List (Value × Value),
    isToldEntries entries = true ↔ ∀ e ∈ entries, HasOneLiteral e.2
  | [] => iff_of_true rfl (List.forall_mem_nil _)
  | (_, v) :: rest => by
      rw [isToldEntries, Bool.and_eq_true, isTold_iff v, isToldEntries_iff rest,
        List.forall_mem_cons]

theorem isToldFields_iff : ∀ fields : List (Text × Value),
    isToldFields fields = true ↔ ∀ f ∈ fields, HasOneLiteral f.2
  | [] => iff_of_true rfl (List.forall_mem_nil _)
  | (_, v) :: rest => by
      rw [isToldFields, Bool.and_eq_true, isTold_iff v, isToldFields_iff rest, List.forall_mem_cons]

end

end Exact

end Value

end RecordSchema
