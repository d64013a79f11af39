import RecordSchema.Yaml.Scalar
import RecordSchema.Yaml.Token

/-!
# Nodes

A document is a tree of nodes in which an alias stands for the node that carries its anchor.
Anchored nodes are kept in a table and aliases name their place in it, so that a node may hold an
alias of itself.
-/

namespace RecordSchema.Yaml

/-- A node with the line it starts on, counted from one. -/
inductive Node where
  | scalar (line : Nat) (tag : Text) (style : ScalarStyle) (value : Text)
  | sequence (line : Nat) (tag : Text) (items : List Node)
  | mapping (line : Nat) (tag : Text) (pairs : List (Node × Node))
  /-- An alias with its place in the stream, the name of its anchor and the number of the anchor. -/
  | reference (line : Nat) (place : Nat) (name : Text) (anchor : Nat)
  deriving Repr, Inhabited

namespace Node

def line : Node → Nat
  | scalar line _ _ _ => line
  | sequence line _ _ => line
  | mapping line _ _ => line
  | reference line _ _ _ => line

/-- The scalar's text, the alias's name, and nothing for a collection. -/
def value : Node → Text
  | scalar _ _ _ value => value
  | reference _ _ name _ => name
  | _ => []

/-- Whether two keys of a mapping are written alike. -/
def sameShape : Node → Node → Bool
  | scalar _ _ _ a, scalar _ _ _ b => a == b
  | sequence _ _ _, sequence _ _ _ => true
  | mapping _ _ _, mapping _ _ _ => true
  | reference _ _ a _, reference _ _ b _ => a == b
  | _, _ => false

end Node

/-- The anchored nodes of a document, by number. -/
structure Anchors where
  nodes : Array Node := #[]
  /-- A bound on the length of a path from a node down to a leaf that takes no alias twice. -/
  depth : Nat := 0
  deriving Repr, Inhabited

/-- A node together with the anchors of its document. -/
structure Tree where
  node : Node
  anchors : Anchors
  deriving Repr, Inhabited

namespace Tree

/-- A node of the same document. -/
def other (t : Tree) (node : Node) : Tree := { t with node }

/-- The node that an alias stands for, and any other node itself. -/
def target (t : Tree) : Tree :=
  match t.node with
  | .reference _ _ _ anchor => t.other (t.anchors.nodes.getD anchor t.node)
  | _ => t

/-- The tag of a node; an alias has that of its target. -/
def tag (t : Tree) : Text :=
  match t.target.node with
  | .scalar _ tag _ _ => tag
  | .sequence _ tag _ => tag
  | .mapping _ tag _ => tag
  | .reference _ _ _ _ => []

/-- Whether a node is a scalar that stands for nothing. -/
def isNull (t : Tree) : Bool :=
  match t.node with
  | .scalar _ tag _ _ => tag == Tag.null
  | _ => false

def line (t : Tree) : Nat := t.node.line

/-- The pairs of a mapping in document order, with aliases replaced by their targets. A node that
stands for nothing is an empty mapping; other nodes are none. -/
def pairs? (t : Tree) : Option (List (Tree × Tree)) :=
  let t := t.target
  if t.isNull then some []
  else
    match t.node with
    | .mapping _ _ pairs =>
      some (pairs.map fun p => ((t.other p.1).target, (t.other p.2).target))
    | _ => none

end Tree

end RecordSchema.Yaml
