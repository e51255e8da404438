import Relock.Program.Basic
import Std.Data.TreeMap

/-!
# Bindings

The assignments and declarations of a program that give values to variables, wherever they stand,
in source order.
-/

namespace Relock

/-- A construct that gives values to variables. -/
inductive Binding where
  | assign (assignment : Assignment)
  | declare (spec : ValueSpec)
deriving Inhabited

namespace Binding

/-- The number of the construct. -/
def id : Binding → NodeId
  | assign assignment => assignment.id
  | declare spec => spec.id

/-- The name that a target of an assignment is, if it is just a name. -/
def targetName? (target : Expr) : Option Ident :=
  match target.unparen with
  | .ident ident => some ident
  | _ => none

/-- The targets in order, `none` for each that is not just a name. -/
def names : Binding → List (Option Ident)
  | assign assignment => assignment.targets.map targetName?
  | declare spec => spec.names.map some

/-- The values in order. -/
def values : Binding → List Expr
  | assign assignment => assignment.values
  | declare spec => spec.values

end Binding

mutual

/-- The bindings inside an expression. -/
def Expr.bindings : Expr → List Binding
  | .ident _ => []
  | .selector _ base _ _ => base.bindings
  | .call _ callee args _ => callee.bindings ++ exprBindings args
  | .literal _ _ _ body _ _ => stmtBindings body
  | .paren inner _ => inner.bindings
  | .unary _ operand _ => operand.bindings
  | .composite _ elements _ => exprBindings elements
  | .other _ parts _ => exprBindings parts

/-- The bindings inside expressions, one after the other. -/
def exprBindings : List Expr → List Binding
  | [] => []
  | expr :: exprs => expr.bindings ++ exprBindings exprs

/-- The bindings that a statement makes and contains. -/
def Stmt.bindings : Stmt → List Binding
  | .expr expr => expr.bindings
  | .defer _ callee args _ _ => callee.bindings ++ exprBindings args
  | .go _ callee args _ _ => callee.bindings ++ exprBindings args
  | .return results _ => exprBindings results
  | .assign id targets values define span =>
      .assign ⟨id, targets, values, define, span⟩ ::
        (exprBindings targets ++ exprBindings values)
  | .var id names type values span =>
      .declare ⟨id, names, type, values, span⟩ :: exprBindings values
  | .block body _ => stmtBindings body
  | .compound _ parts _ => stmtBindings parts

/-- The bindings of statements, one after the other. -/
def stmtBindings : List Stmt → List Binding
  | [] => []
  | stmt :: stmts => stmt.bindings ++ stmtBindings stmts

end

namespace Decl

/-- The bindings of a declaration. -/
def bindings : Decl → List Binding
  | func decl =>
      match decl.body with
      | some block => stmtBindings block.body
      | none => []
  | var spec => .declare spec :: exprBindings spec.values
  | type _ => []

end Decl

namespace Program

/-- The bindings of a program in source order. -/
def bindings (program : Program) : List Binding :=
  program.files.flatMap fun file => file.decls.flatMap Decl.bindings

/-- The assignments of a program in source order. -/
def assignments (program : Program) : List Assignment :=
  program.bindings.filterMap fun
    | .assign assignment => some assignment
    | .declare _ => none

/-- The bindings of a program by number. -/
def bindingTable (program : Program) : Std.TreeMap NodeId Binding :=
  program.bindings.foldl (fun table binding => table.insert binding.id binding) ∅

end Program

end Relock
