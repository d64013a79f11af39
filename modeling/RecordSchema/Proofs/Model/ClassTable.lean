import RecordSchema.Model.Declaration
import RecordSchema.Proofs.Threaded
import RecordSchema.Text.Keyed

/-!
# Classes that are read once

The declarations of a namespace can share a table of the classes that have been read, so that a
class is read for the first of its declarations alone. A class that is missing or cannot be read is
not entered, so that each declaration that names it fails at its own place. Declarations that are
read in this way, one after the other, have the attributes that each of them has by itself.
-/

namespace RecordSchema

open Text Yaml

/-- The attributes of classes that have been read, by name. -/
abbrev ClassTable := Keyed Attributes

namespace Namespace

/-- The attributes of the class that a body names, from the table if it has them. Only a class that
can be read is entered. -/
def sharedClassOf (n : Namespace) (place : Location) (own : Attributes) :
    StateM ClassTable (Except SchemaError Attributes) := fun table =>
  let name := own.className.getD defaultClass
  match table.lookup name with
  | some a => (.ok a, table)
  | none =>
    match n.lookup? .attributeClass name with
    | none =>
      (if own.className.isSome then .error (.malformed place (.unknownClass name)) else .ok {},
        table)
    | some d =>
      match Attributes.ofClass (some d.body) with
      | .ok a => (.ok a, (name, a) :: table)
      | .error e => (.error (.malformed d.place (.body e)), table)

/-- Whether a table has nothing but classes of the namespace. -/
def Reflects (n : Namespace) (table : ClassTable) : Prop :=
  ∀ name a, table.lookup name = some a → ∃ d, n.lookup? .attributeClass name = some d ∧
    Attributes.ofClass (some d.body) = .ok a

variable {n : Namespace} {table : ClassTable}

theorem reflects_nil (n : Namespace) : n.Reflects [] := by
  rintro _ _ ⟨⟩

theorem Reflects.cons (h : n.Reflects table) {name : Text} {d : Definition} {a : Attributes}
    (hd : n.lookup? .attributeClass name = some d) (ha : Attributes.ofClass (some d.body) = .ok a) :
    n.Reflects ((name, a) :: table) := by
  intro other b hb
  rw [List.lookup_cons] at hb
  split at hb
  · next heq =>
      cases hb
      rw [beq_iff_eq.mp heq]
      exact ⟨d, hd, ha⟩
  · exact h other b hb

/-- The table makes no difference to what is found, and stays one of the namespace. -/
theorem Reflects.sharedClassOf (h : n.Reflects table) (place : Location) (own : Attributes) :
    ((n.sharedClassOf place own).run table).1 = n.classOf place own ∧
      n.Reflects ((n.sharedClassOf place own).run table).2 := by
  unfold Namespace.sharedClassOf classOf
  simp only [StateT.run]
  cases hlookup : table.lookup (own.className.getD defaultClass) with
  | some a =>
      obtain ⟨d, hd, ha⟩ := h _ a hlookup
      simp only [hd, ha, true_and]
      exact h
  | none =>
      cases hd : n.lookup? .attributeClass (own.className.getD defaultClass) with
      | none => exact ⟨rfl, h⟩
      | some d =>
          simp only
          cases ha : Attributes.ofClass (some d.body) with
          | error e => exact ⟨rfl, h⟩
          | ok a => exact ⟨rfl, h.cons hd ha⟩

end Namespace

namespace Declared

/-- Reads the body of a declaration, with its class from a table. -/
def readSharedBody (n : Namespace) (place : Location) (body : Tree) :
    StateM ClassTable (Except SchemaError Attributes) :=
  match Body.read (some body) with
  | .error e => pure (.error (.malformed place (.body e)))
  | .ok b => do
    let base ← n.sharedClassOf place b.attributes
    return base.map b.attributes.inherit

variable {n : Namespace} {table : ClassTable}

theorem reflects_readSharedBody (h : n.Reflects table) (place : Location) (body : Tree) :
    ((readSharedBody n place body).run table).1 = readBody n place body ∧
      n.Reflects ((readSharedBody n place body).run table).2 := by
  unfold readSharedBody readBody
  cases Body.read (some body) with
  | error e => exact ⟨rfl, h⟩
  | ok b =>
      obtain ⟨hclass, hkept⟩ := h.sharedClassOf place b.attributes
      refine ⟨?_, hkept⟩
      calc ((n.sharedClassOf place b.attributes).run table).1.map b.attributes.inherit
          = (n.classOf place b.attributes).map b.attributes.inherit := by rw [hclass]
        _ = (do return b.attributes.inherit (← n.classOf place b.attributes)) := by
            cases n.classOf place b.attributes with
            | error e => rfl
            | ok base => rfl

/-- Declarations that are read one after the other with a table of their classes, empty at first,
have the attributes that each of them has by itself. -/
theorem mapM_readSharedBody (n : Namespace) (declarations : List (Location × Tree)) :
    ((declarations.mapM fun d => readSharedBody n d.1 d.2).run []).1 =
        declarations.map (fun d => readBody n d.1 d.2) ∧
      n.Reflects ((declarations.mapM fun d => readSharedBody n d.1 d.2).run []).2 := by
  have hstep : ∀ d ∈ declarations, ∀ table result table', n.Reflects table →
      StepOf (fun d => readSharedBody n d.1 d.2) d table result table' →
      result = readBody n d.1 d.2 ∧ n.Reflects table' := by
    intro d _ table result table' htable hrun
    have hread := reflects_readSharedBody htable d.1 d.2
    rw [show (readSharedBody n d.1 d.2).run table = (result, table') from hrun] at hread
    exact hread
  have hrun :=
    threaded_mapM (fun d : Location × Tree => readSharedBody n d.1 d.2) declarations []
  obtain ⟨hresults, hkept⟩ := hrun.imp hstep (Namespace.reflects_nil n)
  exact ⟨hresults.eq_map, hkept⟩

end Declared

end RecordSchema
