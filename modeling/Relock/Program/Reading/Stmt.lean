import Relock.Program.Reading.Expr

/-!
# Statements

How concrete trees are read as statements. Constructs of no interest of their own become `compound`
statements over their named children.
-/

namespace Relock

/-- The ways in which a node can be read as part of a sequence of statements. -/
inductive StmtForm where
  /-- A sequence of statements, which becomes part of the surrounding one. -/
  | sequence
  | labeled
  /-- An expression that stands for itself. -/
  | expression
  | assignment (define : Bool)
  /-- A clause that takes values from a collection or a channel, with targets or without. -/
  | clause
  | deferred
  | spawned
  | return
  | declaration
  | block
  | typeSwitch
  /-- A statement without calls. -/
  | silent
  | compound
  /-- An expression in the place of a statement, such as a condition. -/
  | bare
deriving DecidableEq, Repr, Inhabited

namespace StmtForm

/-- The kinds of nodes with a reading of their own. -/
def table : List (String × StmtForm) :=
  [("statement_list", sequence), ("labeled_statement", labeled),
    ("expression_statement", expression), ("short_var_declaration", assignment true),
    ("assignment_statement", assignment false), ("range_clause", clause),
    ("receive_statement", clause), ("defer_statement", deferred), ("go_statement", spawned),
    ("return_statement", StmtForm.return), ("var_declaration", declaration),
    ("const_declaration", declaration), ("block", block), ("type_switch_statement", typeSwitch),
    ("empty_statement", silent), ("break_statement", silent), ("continue_statement", silent),
    ("goto_statement", silent), ("fallthrough_statement", silent), ("type_declaration", silent),
    ("comment", silent), ("for_clause", compound), ("expression_case", compound),
    ("default_case", compound), ("communication_case", compound), ("type_case", compound)]

/-- The grammar calls the remaining kinds of nodes statements or declarations. -/
def isStatementKind (kind : String) : Bool :=
  "_statement".toList.isSuffixOf kind.toList || "_declaration".toList.isSuffixOf kind.toList

/-- How nodes of a kind are read. -/
def ofKind (kind : String) : StmtForm :=
  (table.lookup kind).getD (if isStatementKind kind then compound else bare)

end StmtForm

namespace Reading

/-- One declaration of variables or constants. -/
def spec (file : Nat) (node : Reading) : Numbered ValueSpec := do
  let id ← fresh file
  let names ← (allUnder "name" node.children).mapM (ident file)
  let type ← (under? "type" node.children).mapM Reading.type
  return ⟨id, names, type, ← exprsUnder "value" node.children, node.span⟩

/-- The declarations of variables or constants among the children of a node, in groups or alone. -/
def specsOf (file : Nat) (children : List Reading) : Numbered (List ValueSpec) := do
  let groups ← (named children).mapM fun node =>
    match node.kind with
    | "var_spec" | "const_spec" => return [← node.spec file]
    | "var_spec_list" | "const_spec_list" => node.specs
    | _ => return []
  return groups.flatten

/-- An assignment; its number is drawn before its parts are read. -/
def assignmentOf (file : Nat) (label : Label) (children : List Reading) (define : Bool) :
    Numbered Stmt := do
  let id ← fresh file
  let targets ← exprsUnder "left" children
  return .assign id targets (← exprsUnder "right" children) define label.span

/-- A statement over all named children of a node. -/
def compoundOf (label : Label) (children : List Reading) : Numbered Stmt :=
  return .compound label.kind (← body (named children)) label.span

/-- What a type switch does before its cases. The value is read before the name bound to it. -/
def guardOf (file : Nat) (children : List Reading) : Numbered (List Stmt) := do
  let value ← (under? "value" children).mapM Reading.expr
  match under? "alias" children, value with
  | some name, some value => do
      let id ← fresh file
      return [.assign id (← name.exprList) [value] true name.span]
  | none, some value => return [.expr value]
  | _, none => return []

/-- A type switch: its initial statement, its guard and its cases. -/
def typeSwitchOf (file : Nat) (label : Label) (children : List Reading) : Numbered Stmt := do
  let initial ← match under? "initializer" children with
    | some node => node.stmts
    | none => pure []
  let guard ← guardOf file children
  let cases ← ((named children).filter fun node =>
    node.kind == "type_case" || node.kind == "default_case").mapM
      fun node => compoundOf node.label node.children
  return .compound label.kind (initial ++ guard ++ cases) label.span

/-- A statement that runs a call later or elsewhere. What is not a call is an ordinary
expression. -/
def launched (wrap : NodeId → Expr → List Expr → Span → Span → Stmt) (span : Span) : Expr → Stmt
  | .call id callee args callSpan => wrap id callee args callSpan span
  | expr => .expr expr

/-- A deferred or spawned call, read from the first named child. -/
def launchedOf (label : Label) (children : List Reading)
    (wrap : NodeId → Expr → List Expr → Span → Span → Stmt) : Numbered (List Stmt) :=
  match (named children).head? with
  | some inner => return [launched wrap label.span (← inner.expr)]
  | none => return []

/-- A clause that takes values: an assignment when it has targets. -/
def clauseOf (file : Nat) (label : Label) (children : List Reading) : Numbered (List Stmt) :=
  match under? "left" children, under? "right" children with
  | some _, _ => return [← assignmentOf file label children (ofKind? ":=" children).isSome]
  | none, some right => return [.expr (← right.expr)]
  | none, none => return []

/-- A node as part of a sequence of statements. -/
def stmtsOf (file : Nat) (label : Label) (children : List Reading) : Numbered (List Stmt) :=
  match StmtForm.ofKind label.kind with
  | .sequence => body (named children)
  | .labeled => body ((named children).filter fun node => node.kind != "label_name")
  | .expression =>
      match (named children).head? with
      | some inner => return [.expr (← inner.expr)]
      | none => return []
  | .assignment define => return [← assignmentOf file label children define]
  | .clause => clauseOf file label children
  | .deferred => launchedOf label children .defer
  | .spawned => launchedOf label children .go
  | .return => do
      let results ← match (named children).head? with
        | some list => list.exprList
        | none => pure []
      return [.return results label.span]
  | .declaration => do
      return (← specsOf file children).map fun spec =>
        .var spec.id spec.names spec.type spec.values spec.span
  | .block => return [.block (← body (named children)) label.span]
  | .typeSwitch => return [← typeSwitchOf file label children]
  | .silent => return []
  | .compound => return [← compoundOf label children]
  | .bare => return [.expr (← exprOf file label children)]

end Reading

end Relock
