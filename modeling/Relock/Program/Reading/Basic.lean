import Relock.Program.Basic
import Relock.Tree

/-!
# Readings of concrete trees

The same concrete tree means different things in different positions: a type, an expression, a
sequence of statements. A `Reading` is a concrete tree in which every node carries what it means in
each of these positions. Meanings are computations that draw node numbers, so that only the meaning
that is asked for uses numbers, in the order in which it is asked for.
-/

namespace Relock

/-- A computation that draws numbers for the nodes of a file. -/
abbrev Numbered := StateM Nat

/-- Draw the next node of a file. -/
def fresh (file : Nat) : Numbered NodeId :=
  modifyGet fun next => (⟨file, next⟩, next + 1)

/-- A concrete tree with the meaning of each node in each position. -/
structure Reading where
  label : Label
  children : List Reading
  /-- The node as a type. -/
  type : Numbered TypeExpr
  /-- The node as an expression. -/
  expr : Numbered Expr
  /-- The node as a part of a sequence of statements. -/
  stmts : Numbered (List Stmt)
  /-- The node as a declaration of variables or constants. -/
  specs : Numbered (List ValueSpec)
  /-- The node as a declaration of imports. -/
  imports : List Import

namespace Reading

/-- The rule of the grammar that made the node. -/
def kind (reading : Reading) : String := reading.label.kind

/-- The source range of the node. -/
def span (reading : Reading) : Span := reading.label.span

/-- The source text of the node. -/
def text (reading : Reading) : String := reading.label.text

/-- The nodes that stand for rules of the grammar, without comments and the like. -/
def named (nodes : List Reading) : List Reading :=
  nodes.filter fun node => node.label.named && !node.label.extra

/-- The nodes that their parent holds under a field. -/
def allUnder (field : String) (nodes : List Reading) : List Reading :=
  nodes.filter fun node => node.label.field == field

/-- The first node that its parent holds under a field. -/
def under? (field : String) (nodes : List Reading) : Option Reading :=
  nodes.find? fun node => node.label.field == field

/-- The first node of a kind. -/
def ofKind? (kind : String) (nodes : List Reading) : Option Reading :=
  nodes.find? fun node => node.kind == kind

/-- The node as an occurrence of a name. -/
def ident (file : Nat) (node : Reading) : Numbered Ident := do
  return ⟨← fresh file, node.text, node.span⟩

/-- The name that a declaration holds under its field `name`, or a nameless one. -/
def declaredName (file : Nat) (label : Label) (children : List Reading) : Numbered Ident :=
  match under? "name" children with
  | some node => node.ident file
  | none => return ⟨← fresh file, "", label.span⟩

/-- The type under the field `type`. -/
def declaredType (children : List Reading) : Numbered TypeExpr :=
  match under? "type" children with
  | some node => node.type
  | none => return .other

/-- The expressions of a list in order. -/
def exprs (nodes : List Reading) : Numbered (List Expr) :=
  nodes.mapM Reading.expr

/-- The statements of a list of nodes, one after the other. -/
def body (nodes : List Reading) : Numbered (List Stmt) :=
  return (← nodes.mapM Reading.stmts).flatten

/-- The node as a comma-separated list of expressions. -/
def exprList (node : Reading) : Numbered (List Expr) :=
  if node.kind == "expression_list" then
    exprs (named node.children)
  else
    return [← node.expr]

/-- The expressions in the list under a field; none when the field is absent. -/
def exprsUnder (field : String) (children : List Reading) : Numbered (List Expr) :=
  match under? field children with
  | some node => node.exprList
  | none => return []

end Reading

end Relock
