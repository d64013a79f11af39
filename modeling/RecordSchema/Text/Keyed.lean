import RecordSchema.Text.Basic

/-!
# Values by text

A list of keys with values, in the order in which the keys were set first.
-/

namespace RecordSchema

/-- Values by key. -/
abbrev Keyed (α : Type) := List (Text × α)

namespace Keyed

variable {α : Type}

/-- Sets the value of a key. -/
def set (key : Text) (value : α) : Keyed α → Keyed α
  | [] => [(key, value)]
  | (k, v) :: rest => if k = key then (k, value) :: rest else (k, v) :: set key value rest

@[simp] theorem lookup_set_self (key : Text) (value : α) (entries : Keyed α) :
    (set key value entries).lookup key = some value := by
  induction entries with
  | nil => simp [set]
  | cons e rest ih =>
    obtain ⟨k, v⟩ := e
    by_cases h : k = key
    · simp [set, h]
    · have hk : (key == k) = false := by simpa using fun e => h e.symm
      simp [set, h, List.lookup_cons, hk, ih]

theorem lookup_set_of_ne {key other : Text} (h : other ≠ key) (value : α) (entries : Keyed α) :
    (set key value entries).lookup other = entries.lookup other := by
  have ho : (other == key) = false := by simpa using h
  induction entries with
  | nil => simp [set, List.lookup_cons, ho]
  | cons e rest ih =>
    obtain ⟨k, v⟩ := e
    by_cases hk : k = key
    · subst hk
      simp [set, List.lookup_cons, ho]
    · simp [set, hk, List.lookup_cons, ih]

end Keyed

end RecordSchema
