import RecordSchema.Proofs.Outcome
import RecordSchema.Schema.Document

/-!
# Where errors point to

An error of a schema points to a place in a document. The errors of a computation are traced to the
places that it is given, step by step; reading a document points into that document alone.
-/

namespace RecordSchema

open Text

namespace SchemaError

/-- The documents that an error is about: that of its place, or those of an import cycle. -/
def documents : SchemaError → List Text
  | malformed place _ => [place.document]
  | permission place _ _ => [place.document]
  | tagConflict place _ _ _ => [place.document]
  | unresolvedType place _ => [place.document]
  | cyclic _ => []
  | importCycle chain => chain

/-- Whether an error is no import cycle, and points to a place with a property if it points to
any. -/
def IsAt (P : Location → Prop) : SchemaError → Prop
  | malformed place _ => P place
  | permission place _ _ => P place
  | tagConflict place _ _ _ => P place
  | unresolvedType place _ => P place
  | cyclic _ => True
  | importCycle _ => False

variable {P Q : Location → Prop} {e : SchemaError}

theorem IsAt.mono (h : e.IsAt P) (hPQ : ∀ l, P l → Q l) : e.IsAt Q := by
  cases e with
  | cyclic names => trivial
  | importCycle chain => exact h
  | _ => exact hPQ _ h

theorem IsAt.of_mem_documents {D : Text → Prop} (h : e.IsAt fun l => D l.document) :
    ∀ path ∈ e.documents, D path := by
  intro path hpath
  cases e with
  | cyclic names => cases hpath
  | importCycle chain => cases h
  | _ =>
      cases List.mem_singleton.mp hpath
      exact h

end SchemaError

/-- Whether the errors of a computation point to places with a property only. -/
def Blames {α : Type} (P : Location → Prop) (x : Except SchemaError α) : Prop :=
  ∀ e, x = .error e → e.IsAt P

namespace Blames

variable {α β : Type} {P Q : Location → Prop}

theorem ok (a : α) : Blames P (.ok a : Except SchemaError α) := by
  intro e h
  cases h

theorem error {e : SchemaError} (h : e.IsAt P) : Blames P (.error e : Except SchemaError α) := by
  intro e' h'
  cases h'
  exact h

theorem bind {x : Except SchemaError α} {f : α → Except SchemaError β} (hx : Blames P x)
    (hf : ∀ a, x = .ok a → Blames P (f a)) : Blames P (x >>= f) := by
  intro e h
  rcases bind_eq_error_iff.mp h with h | ⟨a, ha, h⟩
  · exact hx e h
  · exact hf a ha e h

theorem map {x : Except SchemaError α} {f : α → β} (hx : Blames P x) : Blames P (x.map f) :=
  fun e h => hx e (map_eq_error_iff.mp h)

theorem mono {x : Except SchemaError α} (hx : Blames P x) (hPQ : ∀ l, P l → Q l) : Blames Q x :=
  fun e h => (hx e h).mono hPQ

theorem mapM {l : List α} {f : α → Except SchemaError β} (h : ∀ a ∈ l, Blames P (f a)) :
    Blames P (l.mapM f) := by
  induction l with
  | nil => exact ok []
  | cons a rest ih =>
      obtain ⟨ha, hrest⟩ := List.forall_mem_cons.mp h
      rw [List.mapM_cons]
      exact ha.bind fun b _ => (ih hrest).bind fun bs _ => ok _

end Blames

section Reading

variable {path text : Text}

theorem Document.blames_readEntries {seen : List (Key × Nat)}
    {pairs : List (Yaml.Tree × Yaml.Tree)} :
    Blames (fun l => l.document = path) (readEntries path seen pairs) := by
  induction pairs generalizing seen with
  | nil => exact .ok []
  | cons pair rest ih =>
      have hentry : Blames (fun l => l.document = path) (readEntry path seen pair) := by
        unfold readEntry
        simp only
        split
        · exact .error rfl
        · split
          · split
            · exact .ok _
            · exact .error rfl
          · exact .ok _
      rw [readEntries]
      exact hentry.bind fun e _ => ih.bind fun more _ => .ok _

theorem Document.blames_parse : Blames (fun l => l.document = path) (parse path text) := by
  unfold parse
  split
  · exact .error rfl
  · unfold ofRoot
    split
    · exact .ok _
    · split
      · exact .error rfl
      · exact blames_readEntries.bind fun es _ => .ok _

theorem Entry.blames_imports (e : Entry) :
    Blames (fun l => l.document = path) (e.imports path) := by
  unfold imports
  simp only
  split
  · exact .error rfl
  · split
    · exact .ok _
    · split
      · exact .ok _
      · exact .error rfl
    · exact .error rfl

end Reading

end RecordSchema
