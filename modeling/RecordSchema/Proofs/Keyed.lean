import Mathlib.Data.List.Find
import Mathlib.Data.List.Nodup

/-!
# Looking keys up in lists

A key is found exactly when it is one of the keys of the list, and in a list without repeated keys
what is found is the only value of the key, in whatever order the list is.
-/

namespace RecordSchema

variable {α β : Type} [BEq α] [LawfulBEq α]

theorem lookup_eq_none_iff_not_mem {key : α} {entries : List (α × β)} :
    entries.lookup key = none ↔ key ∉ entries.map Prod.fst := by
  rw [List.lookup_eq_none_iff]
  simp only [bne_iff_ne, ne_eq, List.mem_map, not_exists, not_and]
  constructor
  · intro h p hp he
    exact h p hp he.symm
  · intro h p hp he
    exact h p hp he.symm

theorem mem_of_lookup_eq_some {key : α} {value : β} {entries : List (α × β)}
    (h : entries.lookup key = some value) : (key, value) ∈ entries := by
  obtain ⟨before, after, rfl, _⟩ := List.lookup_eq_some_iff.mp h
  simp

theorem lookup_eq_some_of_mem {key : α} {value : β} {entries : List (α × β)}
    (hkeys : (entries.map Prod.fst).Nodup) (h : (key, value) ∈ entries) :
    entries.lookup key = some value := by
  cases hl : entries.lookup key with
  | none =>
      exact absurd (List.mem_map_of_mem (f := Prod.fst) h) (lookup_eq_none_iff_not_mem.mp hl)
  | some other =>
      have heq := List.inj_on_of_nodup_map hkeys (mem_of_lookup_eq_some hl) h rfl
      rw [(Prod.mk.inj heq).2]

theorem lookup_map_key {γ : Type} (key : γ → α) (value : γ → β) (values : List γ) (k : α) :
    (values.map fun v => (key v, value v)).lookup k =
      (values.find? fun v => key v == k).map value := by
  induction values with
  | nil => rfl
  | cons v rest ih =>
      rw [List.map_cons, List.lookup_cons, List.find?_cons, ih, BEq.comm]
      cases key v == k with
      | true => rfl
      | false => rfl

theorem find?_key_eq_some {γ : Type} {key : γ → α} {values : List γ}
    (h : (values.map key).Nodup) {v : γ} (hv : v ∈ values) :
    (values.find? fun w => key w == key v) = some v := by
  cases hf : values.find? fun w => key w == key v with
  | none =>
      have hnone := List.find?_eq_none.mp hf v hv
      simp at hnone
  | some w =>
      have hkey : key w = key v := by simpa using List.find?_some hf
      rw [List.inj_on_of_nodup_map h (List.mem_of_find?_eq_some hf) hv hkey]

theorem find?_key_of_perm {γ : Type} {key : γ → α} {values values' : List γ}
    (hperm : values'.Perm values) (h : (values.map key).Nodup) (k : α) :
    (values'.find? fun v => key v == k) = values.find? fun v => key v == k := by
  refine (List.find?_eq_find?_of_perm hperm.symm ?_).symm
  rintro v ⟨hv, hkey⟩ w ⟨hw, hkey'⟩
  exact List.inj_on_of_nodup_map h hv hw ((beq_iff_eq.mp hkey).trans (beq_iff_eq.mp hkey').symm)

end RecordSchema
