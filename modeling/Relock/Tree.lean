import Relock.Source.Text

/-!
# Concrete syntax trees

The trees a Go grammar produces. Every node has a kind, a range of the source, and the name of the
field under which its parent holds it. Lowering asks three questions of a node: its named children,
its children under a field, and its first child of a kind.
-/

namespace Relock

/-- What a node of a concrete tree says of itself. -/
structure Label where
  kind : String
  span : Span
  text : String
  /-- The field of the parent that holds the node; empty when no field does. -/
  field : String := ""
  /-- A named node stands for a rule of the grammar, the others for its punctuation. -/
  named : Bool := true
  /-- An extra node may stand anywhere, as comments do. -/
  extra : Bool := false
deriving DecidableEq, Repr, Inhabited

/-- A concrete syntax tree. -/
inductive Tree where
  | node (label : Label) (children : List Tree)
deriving Repr, Inhabited

namespace Tree

/-- What the root says of itself. -/
def label : Tree → Label
  | node label _ => label

/-- The trees directly below the root. -/
def children : Tree → List Tree
  | node _ children => children

/-- The rule of the grammar that made the root. -/
def kind (tree : Tree) : String := tree.label.kind

/-- One row of a listing of a tree in pre-order: a node and its distance from the root. -/
structure Row where
  depth : Nat
  label : Label
deriving Repr, Inhabited

/-- The trees listed by rows in pre-order, each with its depth. A row takes as children the finished
trees that follow it and stand deeper, up to the first that does not. -/
def gather : List Row → List (Nat × Tree)
  | [] => []
  | row :: rows =>
      let finished := gather rows
      let below := finished.takeWhile fun entry => row.depth < entry.1
      let beside := finished.dropWhile fun entry => row.depth < entry.1
      (row.depth, node row.label (below.map (·.2))) :: beside

/-- The tree listed by rows in pre-order, the root first. -/
def ofRows (rows : List Row) : Option Tree :=
  (gather rows).head?.map (·.2)

end Tree

end Relock
