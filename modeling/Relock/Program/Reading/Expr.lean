import Relock.Program.Reading.Signature

/-!
# Expressions

How concrete trees are read as expressions. Constructs of no interest of their own become `other`
expressions over their named children.
-/

namespace Relock

/-- The ways in which a node can be read as an expression. -/
inductive ExprForm where
  | name
  | selector
  | call
  | closure
  | paren
  | unary
  | composite
  /-- An element of a composite literal, read as its first named child. -/
  | element
  /-- An element with a key, read as its value, the last named child. -/
  | keyedElement
  | other
deriving DecidableEq, Repr, Inhabited

namespace ExprForm

/-- The kinds of nodes that are not read as `other`. -/
def table : List (String × ExprForm) :=
  [("identifier", name), ("type_identifier", name), ("field_identifier", name),
    ("package_identifier", name), ("selector_expression", selector), ("call_expression", call),
    ("func_literal", closure), ("parenthesized_expression", paren), ("unary_expression", unary),
    ("composite_literal", composite), ("literal_element", element), ("element", element),
    ("keyed_element", keyedElement)]

/-- How nodes of a kind are read. -/
def ofKind (kind : String) : ExprForm := (table.lookup kind).getD other

end ExprForm

namespace Reading

/-- A node as an expression of its kind over all its named children. -/
def otherOf (label : Label) (children : List Reading) : Numbered Expr :=
  return .other label.kind (← exprs (named children)) label.span

/-- A selector; its number is drawn before its parts are looked for. -/
def selectorOf (file : Nat) (label : Label) (children : List Reading) : Numbered Expr := do
  let id ← fresh file
  match under? "operand" children, under? "field" children with
  | some operand, some field =>
      let base ← operand.expr
      return .selector id base (← field.ident file) label.span
  | _, _ => otherOf label children

/-- A call; its number is drawn before its parts are looked for. -/
def callOf (file : Nat) (label : Label) (children : List Reading) : Numbered Expr := do
  let id ← fresh file
  match under? "function" children with
  | some function =>
      let callee ← function.expr
      let args ← match under? "arguments" children with
        | some list => exprs (named list.children)
        | none => pure []
      return .call id callee args label.span
  | none => otherOf label children

/-- A closure literal; without a body it has an empty one that covers the whole literal. -/
def closureOf (file : Nat) (label : Label) (children : List Reading) : Numbered Expr := do
  let id ← fresh file
  let params ← paramsOf file children
  let result ← resultOf file children
  match under? "body" children with
  | some block =>
      let stmts ← body (named block.children)
      return .literal id params result stmts block.span label.span
  | none => return .literal id params result [] label.span label.span

/-- A parenthesised expression. -/
def parenOf (label : Label) (children : List Reading) : Numbered Expr :=
  match (named children).head? with
  | some inner => return .paren (← inner.expr) label.span
  | none => otherOf label children

/-- An operator applied to one operand. -/
def unaryOf (label : Label) (children : List Reading) : Numbered Expr :=
  match under? "operand" children with
  | some operand => return .unary (textUnder "operator" children) (← operand.expr) label.span
  | none => otherOf label children

/-- A composite literal: its type and its elements. -/
def compositeOf (label : Label) (children : List Reading) : Numbered Expr := do
  let type ← declaredType children
  let elements ← match under? "body" children with
    | some list => exprs (named list.children)
    | none => pure []
  return .composite type elements label.span

/-- A node read as one of its children. -/
def soleOf (label : Label) (children : List Reading) (child : Option Reading) : Numbered Expr :=
  match child with
  | some child => child.expr
  | none => otherOf label children

/-- A node as an expression. -/
def exprOf (file : Nat) (label : Label) (children : List Reading) : Numbered Expr :=
  match ExprForm.ofKind label.kind with
  | .name => return .ident ⟨← fresh file, label.text, label.span⟩
  | .selector => selectorOf file label children
  | .call => callOf file label children
  | .closure => closureOf file label children
  | .paren => parenOf label children
  | .unary => unaryOf label children
  | .composite => compositeOf label children
  | .element => soleOf label children (named children).head?
  | .keyedElement => soleOf label children (named children).getLast?
  | .other => otherOf label children

end Reading

end Relock
