import RecordSchema.Text.Basic

/-!
# Dependency order

Vertices are taken in rounds: every round takes, by name, all vertices whose dependencies have been
taken. Dependencies on the vertex itself or on unknown keys never hold a vertex back. When a round
takes nothing, what is left cannot be ordered.
-/

namespace RecordSchema

/-- A vertex with the keys of the vertices it depends on. -/
structure Vertex where
  key : Text
  name : Text
  dependencies : List Text
  deriving DecidableEq, Repr

namespace Vertex

/-- The vertices of a list, where the last one with a key counts. -/
def distinct : List Vertex → List Vertex
  | [] => []
  | v :: rest => if rest.any fun w => w.key == v.key then distinct rest else v :: distinct rest

/-- Whether a vertex depends on another one that is pending. -/
def isBlocked (pending : List Vertex) (v : Vertex) : Bool :=
  pending.any fun w => w.key != v.key && v.dependencies.contains w.key

/-- By name, and by key among equal names. -/
def precedes (v w : Vertex) : Bool :=
  if v.name = w.name then Text.le v.key w.key else Text.le v.name w.name

/-- What a round takes. -/
def ready (pending : List Vertex) : List Vertex :=
  (pending.filter fun v => !isBlocked pending v).mergeSort precedes

/-- What a round leaves. -/
def remaining (pending : List Vertex) : List Vertex := pending.filter (isBlocked pending)

/-- The rounds, or the vertices that are left when one takes nothing. -/
def rounds : Nat → List Vertex → Except (List Vertex) (List Vertex)
  | 0, pending => if pending.isEmpty then .ok [] else .error pending
  | fuel + 1, pending =>
    if pending.isEmpty then .ok []
    else if (ready pending).isEmpty then .error pending
    else (rounds fuel (remaining pending)).map (ready pending ++ ·)

/-- Vertices in dependency order, or those that cannot be ordered. -/
def order (vs : List Vertex) : Except (List Vertex) (List Vertex) :=
  rounds vs.length (distinct vs)

end Vertex

end RecordSchema
