import Relock.Program.Binding
import Relock.Proofs.Program.Parts

/-!
# Files under other numbers

The number of a file is its position, so a file that moves takes its constructs with it: their
numbers change in the number of the file and nowhere else. What is computed from the syntax alone
moves in the same way.
-/

namespace Relock

variable (file : Nat → Nat)

/-! ## Syntax -/

namespace NodeId

/-- The number of a construct when its file has another number. -/
def renumber (id : NodeId) : NodeId := ⟨file id.file, id.index⟩

theorem renumber_injective {file : Nat → Nat} (injective : Function.Injective file) :
    Function.Injective (renumber file) := by
  rintro ⟨left, index⟩ ⟨right, other⟩ same
  simp only [renumber, NodeId.mk.injEq] at same
  rw [injective same.1, same.2]

end NodeId

namespace Ident

/-- The occurrence of a name in the renumbered file. -/
def renumber (ident : Ident) : Ident := { ident with id := ident.id.renumber file }

@[simp]
theorem name_renumber (ident : Ident) : (ident.renumber file).name = ident.name := rfl

@[simp]
theorem id_renumber (ident : Ident) : (ident.renumber file).id = ident.id.renumber file := rfl

@[simp]
theorem span_renumber (ident : Ident) : (ident.renumber file).span = ident.span := rfl

@[simp]
theorem isBlank_renumber (ident : Ident) : (ident.renumber file).isBlank = ident.isBlank := rfl

end Ident

namespace Param

/-- Parameters in the renumbered file. -/
def renumber (param : Param) : Param :=
  { param with names := param.names.map (Ident.renumber file) }

theorem idents_renumber (params : List Param) :
    idents (params.map (renumber file)) =
      (idents params).map (Option.map (Ident.renumber file)) := by
  rw [idents, idents, List.flatMap_map, List.map_flatMap]
  congr 1
  funext param
  cases names : param.names <;> simp [renumber, names]

end Param

mutual

/-- An expression in the renumbered file. -/
def Expr.renumber : Expr → Expr
  | .ident ident => .ident (ident.renumber file)
  | .selector id base member span =>
      .selector (id.renumber file) base.renumber (member.renumber file) span
  | .call id callee args span => .call (id.renumber file) callee.renumber (renumberExprs args) span
  | .literal id params result body bodySpan span =>
      .literal (id.renumber file) (params.map (Param.renumber file)) result (renumberStmts body)
        bodySpan span
  | .paren inner span => .paren inner.renumber span
  | .unary operator operand span => .unary operator operand.renumber span
  | .composite type elements span => .composite type (renumberExprs elements) span
  | .other kind parts span => .other kind (renumberExprs parts) span

/-- Expressions in the renumbered file. -/
def renumberExprs : List Expr → List Expr
  | [] => []
  | expr :: exprs => expr.renumber :: renumberExprs exprs

/-- A statement in the renumbered file. -/
def Stmt.renumber : Stmt → Stmt
  | .expr expr => .expr expr.renumber
  | .defer id callee args callSpan span =>
      .defer (id.renumber file) callee.renumber (renumberExprs args) callSpan span
  | .go id callee args callSpan span =>
      .go (id.renumber file) callee.renumber (renumberExprs args) callSpan span
  | .return results span => .return (renumberExprs results) span
  | .assign id targets values define span =>
      .assign (id.renumber file) (renumberExprs targets) (renumberExprs values) define span
  | .var id names type values span =>
      .var (id.renumber file) (names.map (Ident.renumber file)) type (renumberExprs values) span
  | .block body span => .block (renumberStmts body) span
  | .compound kind parts span => .compound kind (renumberStmts parts) span

/-- Statements in the renumbered file. -/
def renumberStmts : List Stmt → List Stmt
  | [] => []
  | stmt :: stmts => stmt.renumber :: renumberStmts stmts

end

theorem renumberExprs_eq_map (exprs : List Expr) :
    renumberExprs file exprs = exprs.map (Expr.renumber file) := by
  induction exprs with
  | nil => simp [renumberExprs]
  | cons expr exprs ih => simp [renumberExprs, ih]

theorem renumberStmts_eq_map (stmts : List Stmt) :
    renumberStmts file stmts = stmts.map (Stmt.renumber file) := by
  induction stmts with
  | nil => simp [renumberStmts]
  | cons stmt stmts ih => simp [renumberStmts, ih]

namespace Expr

theorem unparen_renumber (expr : Expr) :
    (expr.renumber file).unparen = expr.unparen.renumber file := by
  induction expr using Expr.unparen.induct with
  | case1 inner span ih => rw [renumber, unparen, unparen, ih]
  | case2 expr noParen =>
      cases expr with
      | paren inner span => exact absurd rfl (noParen inner span)
      | _ => simp [renumber, unparen]

end Expr

/-- A call in the renumbered file. -/
def Call.renumber (call : Call) : Call :=
  ⟨call.id.renumber file, call.callee.renumber file, renumberExprs file call.args, call.span⟩

/-- A block in the renumbered file. -/
def Block.renumber (block : Block) : Block := ⟨renumberStmts file block.body, block.span⟩

/-- A closure literal in the renumbered file. -/
def Closure.renumber (literal : Closure) : Closure :=
  ⟨literal.id.renumber file, literal.params.map (Param.renumber file), literal.result,
    literal.body.renumber file, literal.span⟩

/-- An assignment in the renumbered file. -/
def Assignment.renumber (assignment : Assignment) : Assignment :=
  ⟨assignment.id.renumber file, renumberExprs file assignment.targets,
    renumberExprs file assignment.values, assignment.define, assignment.span⟩

/-- A declaration of variables in the renumbered file. -/
def ValueSpec.renumber (spec : ValueSpec) : ValueSpec :=
  ⟨spec.id.renumber file, spec.names.map (Ident.renumber file), spec.type,
    renumberExprs file spec.values, spec.span⟩

/-- A receiver in the renumbered file. -/
def Receiver.renumber (receiver : Receiver) : Receiver :=
  { receiver with name := receiver.name.map (Ident.renumber file) }

/-- A function or method in the renumbered file. -/
def FuncDecl.renumber (decl : FuncDecl) : FuncDecl where
  id := decl.id.renumber file
  name := decl.name.renumber file
  receiver := decl.receiver.map (Receiver.renumber file)
  params := decl.params.map (Param.renumber file)
  result := decl.result
  body := decl.body.map (Block.renumber file)
  span := decl.span

@[simp]
theorem FuncDecl.isMethod_renumber (decl : FuncDecl) :
    (decl.renumber file).isMethod = decl.isMethod := by
  simp [FuncDecl.isMethod, FuncDecl.renumber]

theorem FuncDecl.receiver_renumber (decl : FuncDecl) :
    (decl.renumber file).receiver.bind Receiver.name =
      (decl.receiver.bind Receiver.name).map (Ident.renumber file) := by
  cases receiver : decl.receiver <;> simp [FuncDecl.renumber, receiver, Receiver.renumber]

/-- Fields in the renumbered file. -/
def FieldDecl.renumber (field : FieldDecl) : FieldDecl :=
  { field with names := field.names.map (Ident.renumber file) }

/-- The right-hand side of a type declaration in the renumbered file. -/
def TypeBody.renumber : TypeBody → TypeBody
  | struct fields => struct (fields.map (FieldDecl.renumber file))
  | interface methods => interface (methods.map (Ident.renumber file))
  | other type => other type

/-- A type declaration in the renumbered file. -/
def TypeSpec.renumber (spec : TypeSpec) : TypeSpec :=
  ⟨spec.name.renumber file, spec.body.renumber file, spec.span⟩

/-- A declaration in the renumbered file. -/
def Decl.renumber : Decl → Decl
  | func decl => func (decl.renumber file)
  | var spec => var (spec.renumber file)
  | type spec => type (spec.renumber file)

/-- The file under its new number. -/
def File.renumber (source : File) : File :=
  { source with id := file source.id, decls := source.decls.map (Decl.renumber file) }

namespace File

variable (source : File)

theorem functions_renumber :
    (source.renumber file).functions = source.functions.map (FuncDecl.renumber file) := by
  simp only [functions, renumber, List.filterMap_map, List.map_filterMap]
  congr 1
  funext decl
  cases decl <;> rfl

theorem vars_renumber :
    (source.renumber file).vars = source.vars.map (ValueSpec.renumber file) := by
  simp only [vars, renumber, List.filterMap_map, List.map_filterMap]
  congr 1
  funext decl
  cases decl <;> rfl

theorem types_renumber :
    (source.renumber file).types = source.types.map (TypeSpec.renumber file) := by
  simp only [types, renumber, List.filterMap_map, List.map_filterMap]
  congr 1
  funext decl
  cases decl <;> rfl

end File

/-! ## Files that keep their numbers -/

@[simp]
theorem ident_renumber_id : Ident.renumber id = id := rfl

@[simp]
theorem param_renumber_id : Param.renumber id = id :=
  funext fun param => by simp [Param.renumber]

mutual

theorem Expr.renumber_id : ∀ expr : Expr, expr.renumber id = expr
  | .ident _ => by simp [Expr.renumber]
  | .selector _ base _ _ => by simp [Expr.renumber, base.renumber_id, NodeId.renumber]
  | .call _ callee args _ => by
      simp [Expr.renumber, callee.renumber_id, renumberExprs_id args, NodeId.renumber]
  | .literal _ _ _ body _ _ => by simp [Expr.renumber, renumberStmts_id body, NodeId.renumber]
  | .paren inner _ => by simp [Expr.renumber, inner.renumber_id]
  | .unary _ operand _ => by simp [Expr.renumber, operand.renumber_id]
  | .composite _ elements _ => by simp [Expr.renumber, renumberExprs_id elements]
  | .other _ parts _ => by simp [Expr.renumber, renumberExprs_id parts]

theorem renumberExprs_id : ∀ exprs : List Expr, renumberExprs id exprs = exprs
  | [] => by simp [renumberExprs]
  | expr :: exprs => by simp [renumberExprs, expr.renumber_id, renumberExprs_id exprs]

theorem Stmt.renumber_id : ∀ stmt : Stmt, stmt.renumber id = stmt
  | .expr expr => by simp [Stmt.renumber, expr.renumber_id]
  | .defer _ callee args _ _ | .go _ callee args _ _ => by
      simp [Stmt.renumber, callee.renumber_id, renumberExprs_id args, NodeId.renumber]
  | .return results _ => by simp [Stmt.renumber, renumberExprs_id results]
  | .assign _ targets values _ _ => by
      simp [Stmt.renumber, renumberExprs_id targets, renumberExprs_id values, NodeId.renumber]
  | .var _ _ _ values _ => by simp [Stmt.renumber, renumberExprs_id values, NodeId.renumber]
  | .block body _ => by simp [Stmt.renumber, renumberStmts_id body]
  | .compound _ parts _ => by simp [Stmt.renumber, renumberStmts_id parts]

theorem renumberStmts_id : ∀ stmts : List Stmt, renumberStmts id stmts = stmts
  | [] => by simp [renumberStmts]
  | stmt :: stmts => by simp [renumberStmts, stmt.renumber_id, renumberStmts_id stmts]

end

theorem funcDecl_renumber_id (decl : FuncDecl) : decl.renumber id = decl := by
  have receiver : Receiver.renumber id = id := funext fun receiver => by simp [Receiver.renumber]
  have block : Block.renumber id = id :=
    funext fun block => by simp [Block.renumber, renumberStmts_id]
  simp [FuncDecl.renumber, receiver, block, NodeId.renumber]

theorem file_renumber_id (source : File) : source.renumber id = source := by
  have field : FieldDecl.renumber id = id := funext fun field => by simp [FieldDecl.renumber]
  have decls : Decl.renumber id = id := by
    funext decl
    cases decl with
    | func decl => simp [Decl.renumber, funcDecl_renumber_id]
    | var spec => simp [Decl.renumber, ValueSpec.renumber, renumberExprs_id, NodeId.renumber]
    | type spec =>
        obtain ⟨name, body, span⟩ := spec
        cases body <;> simp [Decl.renumber, TypeSpec.renumber, TypeBody.renumber, field]
  simp [File.renumber, decls]

/-! ## Streams and bindings -/

namespace Node

/-- A construct in the renumbered file. -/
def renumber : Node → Node
  | func decl => func (decl.renumber file)
  | closure literal => closure (literal.renumber file)
  | call site => call (site.renumber file)
  | defer site span => defer (site.renumber file) span
  | .return span => .return span

@[simp]
theorem span_renumber (node : Node) : (node.renumber file).span = node.span := by
  cases node <;> rfl

end Node

namespace Binding

/-- A binding in the renumbered file. -/
def renumber : Binding → Binding
  | assign assignment => assign (assignment.renumber file)
  | declare spec => declare (spec.renumber file)

@[simp]
theorem id_renumber (binding : Binding) :
    (binding.renumber file).id = binding.id.renumber file := by
  cases binding <;> rfl

theorem targetName?_renumber (target : Expr) :
    targetName? (target.renumber file) = (targetName? target).map (Ident.renumber file) := by
  unfold targetName?
  rw [Expr.unparen_renumber]
  cases target.unparen <;> simp [Expr.renumber]

theorem names_renumber (binding : Binding) :
    (binding.renumber file).names = binding.names.map (Option.map (Ident.renumber file)) := by
  cases binding with
  | assign assignment =>
      simp [renumber, names, Assignment.renumber, renumberExprs_eq_map, targetName?_renumber]
  | declare spec => simp [renumber, names, ValueSpec.renumber, Function.comp_def]

theorem values_renumber (binding : Binding) :
    (binding.renumber file).values = binding.values.map (Expr.renumber file) := by
  cases binding <;>
    simp [renumber, values, Assignment.renumber, ValueSpec.renumber, renumberExprs_eq_map]

end Binding

theorem binding_renumber_id (binding : Binding) : binding.renumber id = binding := by
  cases binding with
  | assign assignment =>
      simp [Binding.renumber, Assignment.renumber, renumberExprs_id, NodeId.renumber]
  | declare spec => simp [Binding.renumber, ValueSpec.renumber, renumberExprs_id, NodeId.renumber]

namespace Construct

/-- A construct in the renumbered file. -/
def renumber : Construct → Construct
  | expr inner => expr (inner.renumber file)
  | stmt inner => stmt (inner.renumber file)

theorem parts_renumber (construct : Construct) :
    (construct.renumber file).parts = construct.parts.map (renumber file) := by
  cases construct with
  | expr inner => cases inner <;> simp [parts, renumber, Expr.renumber, renumberExprs_eq_map,
      renumberStmts_eq_map, Function.comp_def]
  | stmt inner => cases inner <;> simp [parts, renumber, Stmt.renumber, renumberExprs_eq_map,
      renumberStmts_eq_map, Function.comp_def]

section Walks

variable {β : Type} {walk own : Construct → List β} {moved : β → β}

/-- A walk that lists what a construct itself gives, and then its parts in order, lists the same in
the renumbered file. -/
theorem walk_renumber (walk_eq : ∀ construct, walk construct =
      own construct ++ construct.parts.flatMap walk)
    (own_renumber : ∀ construct, own (construct.renumber file) = (own construct).map moved)
    (construct : Construct) : walk (construct.renumber file) = (walk construct).map moved := by
  induction construct using induct with
  | step construct ih =>
      rw [walk_eq, walk_eq construct, own_renumber, parts_renumber, List.flatMap_map,
        List.map_append, List.map_flatMap]
      exact congrArg _ (List.flatMap_congr ih)

variable {file} (same : ∀ construct, walk (construct.renumber file) = (walk construct).map moved)
include same

theorem walk_exprs (exprs : List Expr) : ((renumberExprs file exprs).map expr).flatMap walk =
    ((exprs.map expr).flatMap walk).map moved := by
  simp only [renumberExprs_eq_map, List.flatMap_map, List.map_flatMap]
  exact List.flatMap_congr fun inner _ => same (expr inner)

theorem walk_stmts (stmts : List Stmt) : ((renumberStmts file stmts).map stmt).flatMap walk =
    ((stmts.map stmt).flatMap walk).map moved := by
  simp only [renumberStmts_eq_map, List.flatMap_map, List.map_flatMap]
  exact List.flatMap_congr fun inner _ => same (stmt inner)

end Walks

theorem nodes_renumber : ∀ construct : Construct,
    (construct.renumber file).nodes = construct.nodes.map (Node.renumber file) := by
  refine walk_renumber file nodes_eq fun construct => ?_
  cases construct with
  | expr inner => cases inner <;> simp [renumber, ownNodes, Expr.renumber, Node.renumber,
      Call.renumber, Closure.renumber, Block.renumber]
  | stmt inner => cases inner <;> simp [renumber, ownNodes, Stmt.renumber, Node.renumber,
      Call.renumber]

theorem bindings_renumber : ∀ construct : Construct,
    (construct.renumber file).bindings = construct.bindings.map (Binding.renumber file) := by
  refine walk_renumber file bindings_eq fun construct => ?_
  cases construct with
  | expr inner => cases inner <;> simp [renumber, binding?, Expr.renumber]
  | stmt inner => cases inner <;> simp [renumber, binding?, Stmt.renumber, Binding.renumber,
      Assignment.renumber, ValueSpec.renumber]

end Construct

theorem stmtNodes_renumber (stmts : List Stmt) :
    stmtNodes (renumberStmts file stmts) = (stmtNodes stmts).map (Node.renumber file) := by
  rw [← Construct.nodes_map_stmt, ← Construct.nodes_map_stmt]
  exact Construct.walk_stmts (Construct.nodes_renumber file) stmts

theorem exprBindings_renumber (exprs : List Expr) :
    exprBindings (renumberExprs file exprs) = (exprBindings exprs).map (Binding.renumber file) := by
  rw [← Construct.bindings_map_expr, ← Construct.bindings_map_expr]
  exact Construct.walk_exprs (Construct.bindings_renumber file) exprs

theorem stmtBindings_renumber (stmts : List Stmt) :
    stmtBindings (renumberStmts file stmts) = (stmtBindings stmts).map (Binding.renumber file) := by
  rw [← Construct.bindings_map_stmt, ← Construct.bindings_map_stmt]
  exact Construct.walk_stmts (Construct.bindings_renumber file) stmts

theorem Decl.bindings_renumber (decl : Decl) :
    (decl.renumber file).bindings = decl.bindings.map (Binding.renumber file) := by
  cases decl with
  | func decl =>
      cases body : decl.body <;>
        simp [renumber, bindings, FuncDecl.renumber, body, Block.renumber, stmtBindings_renumber]
  | var spec =>
      simp [renumber, bindings, ValueSpec.renumber, exprBindings_renumber, Binding.renumber]
  | type spec => rfl

theorem Block.nodes_renumber (block : Block) :
    (block.renumber file).nodes = block.nodes.map (Node.renumber file) :=
  stmtNodes_renumber file block.body

theorem Node.callsFrom_renumber (limit : Nat) (nodes : List Node) :
    callsFrom limit (nodes.map (renumber file)) =
      (callsFrom limit nodes).map (Call.renumber file) := by
  induction nodes generalizing limit with
  | nil => rfl
  | cons node nodes ih =>
      have same := node.span_renumber file
      cases node <;> simp only [List.map_cons, renumber, callsFrom, ih] at same ⊢ <;>
        rw [apply_ite (List.map (Call.renumber file))] <;> simp only [same, List.map_cons]
      rfl

theorem Block.calls_renumber (block : Block) :
    (block.renumber file).calls = block.calls.map (Call.renumber file) := by
  rw [calls, calls, nodes_renumber, Node.callsFrom_renumber]

theorem FuncDecl.stream_renumber (decl : FuncDecl) :
    (decl.renumber file).stream = decl.stream.map (Node.renumber file) := by
  cases body : decl.body with
  | none => simp [stream, body, FuncDecl.renumber, Node.renumber]
  | some block =>
      have nodes := block.nodes_renumber file
      simp [stream, FuncDecl.renumber, body, Node.renumber, nodes]

theorem Closure.stream_renumber (literal : Closure) :
    (literal.renumber file).stream = literal.stream.map (Node.renumber file) := by
  have nodes := literal.body.nodes_renumber file
  simp [stream, Closure.renumber, Node.renumber, nodes]

/-! ## Marks in other files -/

namespace Role

/-- What a number stands for in the renumbered file. -/
def renumber : Role → Role
  | declaration decl => declaration (decl.renumber file)
  | function decl => function (decl.renumber file)
  | name => name
  | selector node => selector (node.renumber file)
  | member node => member (node.renumber file)
  | construct => construct

end Role

namespace Mark

/-- A mark in the renumbered file. -/
def renumber (mark : Mark) : Mark := ⟨mark.id.renumber file, mark.role.renumber file⟩

end Mark

theorem Ident.mark_renumber (ident : Ident) :
    (ident.renumber file).mark = ident.mark.renumber file := rfl

theorem Ident.marks_renumber (idents : List Ident) :
    (idents.map (Ident.renumber file)).map Ident.mark =
      (idents.map Ident.mark).map (Mark.renumber file) := by
  simp [Function.comp_def, Ident.mark_renumber]

theorem Param.marks_renumber (params : List Param) :
    marks (params.map (renumber file)) = (marks params).map (Mark.renumber file) := by
  simp [marks, List.flatMap_map, List.map_flatMap, renumber, Function.comp_def, Ident.mark_renumber]

theorem Construct.marks_renumber : ∀ construct : Construct,
    (construct.renumber file).marks = construct.marks.map (Mark.renumber file) := by
  refine walk_renumber file marks_eq fun construct => ?_
  cases construct with
  | expr inner => cases inner <;> simp [renumber, ownMarks, Expr.renumber, Param.marks_renumber,
      Ident.mark_renumber, Mark.renumber, Role.renumber]
  | stmt inner => cases inner <;> simp [renumber, ownMarks, Stmt.renumber, Ident.mark_renumber,
      Mark.renumber, Role.renumber]

theorem exprMarks_renumber (exprs : List Expr) :
    exprMarks (renumberExprs file exprs) = (exprMarks exprs).map (Mark.renumber file) := by
  rw [← Construct.marks_map_expr, ← Construct.marks_map_expr]
  exact Construct.walk_exprs (Construct.marks_renumber file) exprs

theorem stmtMarks_renumber (stmts : List Stmt) :
    stmtMarks (renumberStmts file stmts) = (stmtMarks stmts).map (Mark.renumber file) := by
  rw [← Construct.marks_map_stmt, ← Construct.marks_map_stmt]
  exact Construct.walk_stmts (Construct.marks_renumber file) stmts

theorem FuncDecl.innerMarks_renumber (decl : FuncDecl) :
    (decl.renumber file).innerMarks = decl.innerMarks.map (Mark.renumber file) := by
  have receiver : ((decl.renumber file).receiver.bind Receiver.name).toList.map Ident.mark =
      ((decl.receiver.bind Receiver.name).toList.map Ident.mark).map (Mark.renumber file) := by
    rw [decl.receiver_renumber]
    cases decl.receiver.bind Receiver.name <;> simp [Ident.mark_renumber]
  have params : Param.marks (decl.renumber file).params =
      (Param.marks decl.params).map (Mark.renumber file) := Param.marks_renumber file decl.params
  rw [innerMarks, innerMarks, receiver, params, List.map_append, List.map_append]
  congr 2
  cases body : decl.body with
  | none => simp [FuncDecl.renumber, body]
  | some block => simp [FuncDecl.renumber, body, Block.renumber, stmtMarks_renumber]

theorem Decl.marks_renumber (decl : Decl) :
    (decl.renumber file).marks = decl.marks.map (Mark.renumber file) := by
  cases decl with
  | func decl =>
      rw [renumber, marks, marks, FuncDecl.marks, FuncDecl.marks, decl.innerMarks_renumber]
      rfl
  | var spec =>
      simp only [renumber, marks, ValueSpec.renumber, Ident.marks_renumber, exprMarks_renumber,
        List.map_cons, List.map_append, Mark.renumber, Role.renumber]
  | type spec =>
      have names : (spec.body.renumber file).names =
          spec.body.names.map (Ident.renumber file) := by
        cases spec.body <;> simp [TypeBody.renumber, TypeBody.names, List.flatMap_map,
          List.map_flatMap, FieldDecl.renumber]
      simp only [renumber, marks, TypeSpec.renumber, names, Ident.marks_renumber, List.map_cons,
        Ident.mark_renumber]

/-! ## Other numbers twice -/

variable (other : Nat → Nat)

mutual

theorem Expr.renumber_renumber : ∀ expr : Expr,
    (expr.renumber file).renumber other = expr.renumber (other ∘ file)
  | .ident _ => by simp [Expr.renumber, Ident.renumber, NodeId.renumber]
  | .selector _ base _ _ => by
      simp [Expr.renumber, base.renumber_renumber, Ident.renumber, NodeId.renumber]
  | .call _ callee args _ => by
      simp [Expr.renumber, callee.renumber_renumber, renumberExprs_renumberExprs args,
        NodeId.renumber]
  | .literal _ _ _ body _ _ => by
      simp [Expr.renumber, renumberStmts_renumberStmts body, Param.renumber, Ident.renumber,
        NodeId.renumber, Function.comp_def]
  | .paren inner _ => by simp [Expr.renumber, inner.renumber_renumber]
  | .unary _ operand _ => by simp [Expr.renumber, operand.renumber_renumber]
  | .composite _ elements _ => by simp [Expr.renumber, renumberExprs_renumberExprs elements]
  | .other _ parts _ => by simp [Expr.renumber, renumberExprs_renumberExprs parts]

theorem renumberExprs_renumberExprs : ∀ exprs : List Expr,
    renumberExprs other (renumberExprs file exprs) = renumberExprs (other ∘ file) exprs
  | [] => by simp [renumberExprs]
  | expr :: exprs => by
      simp [renumberExprs, expr.renumber_renumber, renumberExprs_renumberExprs exprs]

theorem Stmt.renumber_renumber : ∀ stmt : Stmt,
    (stmt.renumber file).renumber other = stmt.renumber (other ∘ file)
  | .expr expr => by simp [Stmt.renumber, expr.renumber_renumber]
  | .defer _ callee args _ _ | .go _ callee args _ _ => by
      simp [Stmt.renumber, callee.renumber_renumber, renumberExprs_renumberExprs args,
        NodeId.renumber]
  | .return results _ => by simp [Stmt.renumber, renumberExprs_renumberExprs results]
  | .assign _ targets values _ _ => by
      simp [Stmt.renumber, renumberExprs_renumberExprs targets, renumberExprs_renumberExprs values,
        NodeId.renumber]
  | .var _ _ _ values _ => by
      simp [Stmt.renumber, renumberExprs_renumberExprs values, Ident.renumber, NodeId.renumber,
        Function.comp_def]
  | .block body _ | .compound _ body _ => by
      simp [Stmt.renumber, renumberStmts_renumberStmts body]

theorem renumberStmts_renumberStmts : ∀ stmts : List Stmt,
    renumberStmts other (renumberStmts file stmts) = renumberStmts (other ∘ file) stmts
  | [] => by simp [renumberStmts]
  | stmt :: stmts => by
      simp [renumberStmts, stmt.renumber_renumber, renumberStmts_renumberStmts stmts]

end

theorem Decl.renumber_renumber (decl : Decl) :
    (decl.renumber file).renumber other = decl.renumber (other ∘ file) := by
  cases decl with
  | func decl =>
      have receiver (receiver : Receiver) : (receiver.renumber file).renumber other =
          receiver.renumber (other ∘ file) := by
        rw [Receiver.renumber, Receiver.renumber, Option.map_map]
        rfl
      have block (block : Block) : (block.renumber file).renumber other =
          block.renumber (other ∘ file) := by
        simp [Block.renumber, renumberStmts_renumberStmts]
      simp [renumber, FuncDecl.renumber, Param.renumber, receiver, block, Ident.renumber,
        NodeId.renumber, Function.comp_def]
  | var spec =>
      simp [renumber, ValueSpec.renumber, Ident.renumber, NodeId.renumber,
        renumberExprs_renumberExprs, Function.comp_def]
  | type spec =>
      obtain ⟨name, body, span⟩ := spec
      cases body <;> simp [renumber, TypeSpec.renumber, TypeBody.renumber, FieldDecl.renumber,
        Ident.renumber, NodeId.renumber, Function.comp_def]

theorem File.renumber_renumber (source : File) :
    (source.renumber file).renumber other = source.renumber (other ∘ file) := by
  simp [renumber, Decl.renumber_renumber]

end Relock
