import RecordSchema.Json.Write
import RecordSchema.Proofs.Outcome

/-!
# Values with a JSON form

A value can be written as JSON exactly if nothing inside it is a number that is not finite, a map
with other keys than texts or a time with an offset of a day or more. The layout does not matter.
-/

namespace RecordSchema

open Text

namespace Value

/-- Whether a value is another one or is held by it. -/
inductive Part : Value → Value → Prop where
  | self (v : Value) : Part v v
  | item {w v : Value} {items : List Value} (hv : v ∈ items) (h : Part w v) : Part w (.list items)
  | entry {w : Value} {p : Value × Value} {general : Bool} {entries : List (Value × Value)}
      (hp : p ∈ entries) (h : Part w p.2) : Part w (.map general entries)
  | field {w : Value} {p : Text × Value} {fields : List (Text × Value)} (hp : p ∈ fields)
      (h : Part w p.2) : Part w (.record fields)

/-- Whether a value has a JSON form, apart from the values that it holds. -/
def IsPlain : Value → Prop
  | .float d => d.isFinite = true
  | .time t => t.offsetIsStrict = true
  | .map general _ => general = false
  | _ => True

/-- Whether a value has a JSON form. -/
def Representable (v : Value) : Prop := ∀ w, Part w v → w.IsPlain

theorem representable_list {items : List Value} :
    Representable (.list items) ↔ ∀ v ∈ items, v.Representable := by
  constructor
  · intro h v hv w hw
    exact h w (.item hv hw)
  · intro h w hw
    cases hw with
    | self => trivial
    | item hv hw => exact h _ hv w hw

theorem representable_map {general : Bool} {entries : List (Value × Value)} :
    Representable (.map general entries) ↔
      general = false ∧ ∀ p ∈ entries, p.2.Representable := by
  constructor
  · intro h
    exact ⟨h _ (.self _), fun p hp w hw => h w (.entry hp hw)⟩
  · rintro ⟨hgeneral, h⟩ w hw
    cases hw with
    | self => exact hgeneral
    | entry hp hw => exact h _ hp w hw

theorem representable_record {fields : List (Text × Value)} :
    Representable (.record fields) ↔ ∀ p ∈ fields, p.2.Representable := by
  constructor
  · intro h p hp w hw
    exact h w (.field hp hw)
  · intro h w hw
    cases hw with
    | self => trivial
    | field hp hw => exact h _ hp w hw

/-- A value that holds no others has a JSON form by itself. -/
theorem representable_iff_isPlain {v : Value} (h : ∀ w, Part w v → w = v) :
    v.Representable ↔ v.IsPlain := by
  constructor
  · exact fun hv => hv v (.self v)
  · intro hv w hw
    rwa [h w hw]

@[simp]
theorem representable_null : Representable .null :=
  (representable_iff_isPlain fun _ hw => by cases hw; rfl).mpr trivial

@[simp]
theorem representable_bool (b : Bool) : Representable (.bool b) :=
  (representable_iff_isPlain fun _ hw => by cases hw; rfl).mpr trivial

@[simp]
theorem representable_int (n : Int) : Representable (.int n) :=
  (representable_iff_isPlain fun _ hw => by cases hw; rfl).mpr trivial

@[simp]
theorem representable_text (t : Text) : Representable (.text t) :=
  (representable_iff_isPlain fun _ hw => by cases hw; rfl).mpr trivial

theorem representable_float {d : Double} : Representable (.float d) ↔ d.isFinite = true :=
  representable_iff_isPlain fun _ hw => by cases hw; rfl

theorem representable_time {t : Timestamp} : Representable (.time t) ↔ t.offsetIsStrict = true :=
  representable_iff_isPlain fun _ hw => by cases hw; rfl

end Value

namespace Json

open Value

mutual

/-- A value can be written exactly if it has a JSON form. -/
theorem exists_write_iff (l : Layout) (level : Nat) (v : Value) :
    (∃ t, write l level v = .ok t) ↔ v.Representable := by
  match v with
  | .null => simp [write]
  | .bool b => simp [write]
  | .int n => simp [write]
  | .text t => simp [write]
  | .float d =>
      rw [write, representable_float]
      split
      · next h => exact iff_of_true ⟨_, rfl⟩ h
      · next h => exact iff_of_false (by rintro ⟨_, h⟩; cases h) h
  | .time t =>
      rw [write, representable_time]
      split
      · next h => exact iff_of_true ⟨_, rfl⟩ h
      · next h => exact iff_of_false (by rintro ⟨_, h⟩; cases h) h
  | .list items =>
      rw [write, representable_list, ← exists_writeItems_iff l (level + 1) items]
      exact exists_bind_pure_eq_ok_iff
  | .map general entries =>
      rw [write, representable_map, ← forall_writeEntries_iff l (level + 1) entries]
      cases general with
      | true => exact iff_of_false (by rintro ⟨_, h⟩; cases h) (fun h => Bool.noConfusion h.1)
      | false =>
          -- The order in which the entries are written does not matter.
          have hsorted : ∀ p, p ∈ (writeEntries l (level + 1) entries).mergeSort
              (fun a b => Text.le a.1 b.1) ↔ p ∈ writeEntries l (level + 1) entries :=
            fun p => List.mem_mergeSort
          rw [if_neg Bool.false_ne_true, exists_bind_pure_eq_ok_iff, exists_mapM_eq_ok_iff]
          simp only [exists_bind_pure_eq_ok_iff, hsorted, true_and]
  | .record fields =>
      rw [write, representable_record, ← exists_writeFields_iff l (level + 1) fields]
      exact exists_bind_pure_eq_ok_iff

theorem exists_writeItems_iff (l : Layout) (level : Nat) (items : List Value) :
    (∃ ts, writeItems l level items = .ok ts) ↔ ∀ v ∈ items, v.Representable := by
  match items with
  | [] => simp [writeItems]
  | v :: rest =>
      rw [writeItems, List.forall_mem_cons, ← exists_write_iff l level v,
        ← exists_writeItems_iff l level rest]
      exact exists_bind_bind_eq_ok_iff

theorem forall_writeEntries_iff (l : Layout) (level : Nat) (entries : List (Value × Value)) :
    (∀ p ∈ writeEntries l level entries, ∃ t, p.2 = .ok t) ↔ ∀ p ∈ entries, p.2.Representable := by
  match entries with
  | [] => simp [writeEntries]
  | (k, v) :: rest =>
      obtain ⟨key, hcons⟩ : ∃ key, writeEntries l level ((k, v) :: rest) =
          (key, write l level v) :: writeEntries l level rest := ⟨_, rfl⟩
      rw [hcons, List.forall_mem_cons, List.forall_mem_cons, exists_write_iff l level v,
        forall_writeEntries_iff l level rest]

theorem exists_writeFields_iff (l : Layout) (level : Nat) (fields : List (Text × Value)) :
    (∃ ts, writeFields l level fields = .ok ts) ↔ ∀ p ∈ fields, p.2.Representable := by
  match fields with
  | [] => simp [writeFields]
  | (k, v) :: rest =>
      rw [writeFields, List.forall_mem_cons, ← exists_write_iff l level v,
        ← exists_writeFields_iff l level rest]
      exact exists_bind_bind_eq_ok_iff

end

end Json

end RecordSchema
