import Mathlib.Data.List.Nodup
import Relock.Program.Stream

/-!
# Numbered constructs

Every number of a program stands for one thing: a declaration, a name, a selector or another
construct. A mark says which. Resolution records what it finds under the numbers of names and
selectors, so that in a program whose numbers are unique a record tells what it was made for.
-/

namespace Relock

/-- What a number stands for. -/
inductive Role where
  | declaration (decl : FuncDecl)
  /-- The name of a declared function or method. -/
  | function (decl : FuncDecl)
  /-- A name that declares anything else, or that refers to something by itself. -/
  | name
  /-- A selector, with the number of the name it ends in. -/
  | selector (member : NodeId)
  /-- The name that a selector ends in. -/
  | member (selector : NodeId)
  | construct

/-- A number with what it stands for. -/
structure Mark where
  id : NodeId
  role : Role

namespace Ident

/-- The mark of a name that stands by itself. -/
def mark (ident : Ident) : Mark := ⟨ident.id, .name⟩

end Ident

namespace Param

/-- The marks of parameters. -/
def marks (params : List Param) : List Mark :=
  params.flatMap fun param => param.names.map Ident.mark

theorem mark_of_ident {params : List Param} {ident : Ident} (listed : some ident ∈ idents params) :
    ident.mark ∈ marks params := by
  obtain ⟨param, param_mem, named⟩ := List.mem_flatMap.mp listed
  refine List.mem_flatMap.mpr ⟨param, param_mem, List.mem_map_of_mem ?_⟩
  split at named
  · simp at named
  · simpa using named

end Param

mutual

/-- The marks of an expression. -/
def Expr.marks : Expr → List Mark
  | .ident ident => [ident.mark]
  | .selector id base member _ =>
      ⟨id, .selector member.id⟩ :: ⟨member.id, .member id⟩ :: base.marks
  | .call id callee args _ => ⟨id, .construct⟩ :: (callee.marks ++ exprMarks args)
  | .literal id params _ body _ _ => ⟨id, .construct⟩ :: (Param.marks params ++ stmtMarks body)
  | .paren inner _ => inner.marks
  | .unary _ operand _ => operand.marks
  | .composite _ elements _ => exprMarks elements
  | .other _ parts _ => exprMarks parts

/-- The marks of expressions, one after the other. -/
def exprMarks : List Expr → List Mark
  | [] => []
  | expr :: exprs => expr.marks ++ exprMarks exprs

/-- The marks of a statement. -/
def Stmt.marks : Stmt → List Mark
  | .expr expr => expr.marks
  | .defer id callee args _ _ => ⟨id, .construct⟩ :: (callee.marks ++ exprMarks args)
  | .go id callee args _ _ => ⟨id, .construct⟩ :: (callee.marks ++ exprMarks args)
  | .return results _ => exprMarks results
  | .assign id targets values _ _ => ⟨id, .construct⟩ :: (exprMarks targets ++ exprMarks values)
  | .var id names _ values _ => ⟨id, .construct⟩ :: (names.map Ident.mark ++ exprMarks values)
  | .block body _ => stmtMarks body
  | .compound _ parts _ => stmtMarks parts

/-- The marks of statements, one after the other. -/
def stmtMarks : List Stmt → List Mark
  | [] => []
  | stmt :: stmts => stmt.marks ++ stmtMarks stmts

end

theorem exprMarks_eq (exprs : List Expr) : exprMarks exprs = exprs.flatMap Expr.marks := by
  induction exprs with
  | nil => rfl
  | cons expr exprs ih => rw [exprMarks, ih, List.flatMap_cons]

theorem stmtMarks_eq (stmts : List Stmt) : stmtMarks stmts = stmts.flatMap Stmt.marks := by
  induction stmts with
  | nil => rfl
  | cons stmt stmts ih => rw [stmtMarks, ih, List.flatMap_cons]

theorem marks_subset_exprMarks {expr : Expr} {exprs : List Expr} (member : expr ∈ exprs) :
    expr.marks ⊆ exprMarks exprs := by
  rw [exprMarks_eq]
  exact fun mark found => List.mem_flatMap.mpr ⟨expr, member, found⟩

/-- The marks of a call. -/
def Call.marks (call : Call) : List Mark :=
  ⟨call.id, .construct⟩ :: (call.callee.marks ++ exprMarks call.args)

namespace FuncDecl

/-- The marks of the receiver, the parameters and the body of a declaration. -/
def innerMarks (decl : FuncDecl) : List Mark :=
  (decl.receiver.bind Receiver.name).toList.map Ident.mark ++ (Param.marks decl.params ++
    match decl.body with
    | some block => stmtMarks block.body
    | none => [])

/-- The marks of a declaration of a function or method. -/
def marks (decl : FuncDecl) : List Mark :=
  ⟨decl.id, .declaration decl⟩ :: ⟨decl.name.id, .function decl⟩ :: decl.innerMarks

end FuncDecl

namespace TypeBody

/-- The names that the right-hand side of a type declaration declares. -/
def names : TypeBody → List Ident
  | struct fields => fields.flatMap FieldDecl.names
  | interface methods => methods
  | other _ => []

end TypeBody

namespace Decl

/-- The marks of a declaration. -/
def marks : Decl → List Mark
  | func decl => decl.marks
  | var spec => ⟨spec.id, .construct⟩ :: (spec.names.map Ident.mark ++ exprMarks spec.values)
  | type spec => spec.name.mark :: spec.body.names.map Ident.mark

end Decl

namespace Program

/-- The marks of a program in source order. -/
def marks (program : Program) : List Mark :=
  program.files.flatMap fun file => file.decls.flatMap Decl.marks

/-- No two constructs of a program have the same number. -/
def UniqueIds (program : Program) : Prop := (program.marks.map Mark.id).Nodup

instance (program : Program) : Decidable program.UniqueIds :=
  inferInstanceAs (Decidable (List.Nodup _))

/-- The declarations of a program in source order. -/
def decls (program : Program) : List Decl := program.files.flatMap File.decls

theorem marks_eq (program : Program) : program.marks = program.decls.flatMap Decl.marks :=
  List.flatMap_assoc.symm

theorem functions_eq (program : Program) :
    program.functions = program.decls.filterMap fun
      | .func decl => some decl
      | _ => none :=
  List.filterMap_flatMap.symm

/-- A unique number stands for one thing. -/
theorem UniqueIds.eq_of_id_eq {program : Program} (unique : program.UniqueIds) {left right : Mark}
    (left_mem : left ∈ program.marks) (right_mem : right ∈ program.marks)
    (same : left.id = right.id) : left = right :=
  List.inj_on_of_nodup_map unique left_mem right_mem same

/-- No two functions or methods of a program have names of the same number. -/
theorem UniqueIds.pairwise_functions {program : Program} (unique : program.UniqueIds) :
    program.functions.Pairwise fun first later => first.name.id ≠ later.name.id := by
  rw [UniqueIds, marks_eq, List.map_flatMap, List.nodup_flatMap] at unique
  rw [functions_eq, List.pairwise_filterMap]
  refine unique.2.imp fun {first later} apart left left_eq right right_eq same => ?_
  have left_mem : left.name.id ∈ first.marks.map Mark.id := by
    cases first <;> cases left_eq
    simp [Decl.marks, FuncDecl.marks]
  have right_mem : right.name.id ∈ later.marks.map Mark.id := by
    cases later <;> cases right_eq
    simp [Decl.marks, FuncDecl.marks]
  exact apart left_mem (same ▸ right_mem)

end Program

/-! ## The parts of a program -/

theorem Expr.marks_unparen (expr : Expr) : expr.unparen.marks = expr.marks := by
  induction expr using Expr.unparen.induct with
  | case1 inner span ih => simpa [Expr.unparen, Expr.marks] using ih
  | case2 expr other => rw [Expr.unparen.eq_2 _ other]

namespace File

theorem mem_functions {file : File} {decl : FuncDecl} :
    decl ∈ file.functions ↔ .func decl ∈ file.decls := by
  rw [functions, List.mem_filterMap]
  constructor
  · rintro ⟨other, member, same⟩
    cases other <;> cases same
    exact member
  · exact fun member => ⟨_, member, rfl⟩

theorem mem_vars {file : File} {spec : ValueSpec} :
    spec ∈ file.vars ↔ .var spec ∈ file.decls := by
  rw [vars, List.mem_filterMap]
  constructor
  · rintro ⟨other, member, same⟩
    cases other <;> cases same
    exact member
  · exact fun member => ⟨_, member, rfl⟩

theorem mem_types {file : File} {spec : TypeSpec} :
    spec ∈ file.types ↔ .type spec ∈ file.decls := by
  rw [types, List.mem_filterMap]
  constructor
  · rintro ⟨other, member, same⟩
    cases other <;> cases same
    exact member
  · exact fun member => ⟨_, member, rfl⟩

end File

namespace Program

variable {program : Program} {decl : FuncDecl}

/-- The marks of every declaration of a file are marks of the program. -/
theorem marks_of_decl {file : File} {decl : Decl} (file_mem : file ∈ program.files)
    (decl_mem : decl ∈ file.decls) : decl.marks ⊆ program.marks :=
  fun _ found => List.mem_flatMap.mpr ⟨file, file_mem, List.mem_flatMap.mpr ⟨decl, decl_mem, found⟩⟩

theorem mem_functions :
    decl ∈ program.functions ↔ .func decl ∈ program.decls := by
  simp only [functions, decls, List.mem_flatMap, File.mem_functions]

theorem marks_of_function (program : Program)
    (member : decl ∈ program.functions) : decl.marks ⊆ program.marks := by
  rw [marks_eq]
  exact fun mark found => List.mem_flatMap.mpr ⟨.func decl, mem_functions.mp member, found⟩

/-- The names of functions and methods are marked as such. -/
theorem function_mem_marks (program : Program)
    (member : decl ∈ program.functions) : ⟨decl.name.id, .function decl⟩ ∈ program.marks :=
  program.marks_of_function member (by simp [FuncDecl.marks])

variable (unique : program.UniqueIds)
include unique

/-- Only the name of a function or method has its number. -/
theorem UniqueIds.role_of_name (member : decl ∈ program.functions) {mark : Mark}
    (marked : mark ∈ program.marks) (same : mark.id = decl.name.id) :
    mark.role = .function decl := by
  rw [unique.eq_of_id_eq marked (program.function_mem_marks member) same]

/-- The name of a function or method is no other name. -/
theorem UniqueIds.name_apart (member : decl ∈ program.functions) :
    ∀ mark ∈ program.marks, mark.role = .name → mark.id ≠ decl.name.id := by
  intro mark marked role same
  rw [unique.role_of_name member marked same] at role
  cases role

theorem UniqueIds.function_eq {left right : FuncDecl} (left_mem : left ∈ program.functions)
    (right_mem : right ∈ program.functions) (same : left.name.id = right.name.id) :
    left = right := by
  have role := unique.role_of_name right_mem (program.function_mem_marks left_mem) same
  cases role
  rfl

theorem UniqueIds.declaration_eq {left right : FuncDecl} (left_mem : left ∈ program.functions)
    (right_mem : right ∈ program.functions) (same : left.id = right.id) : left = right := by
  have left_marked := program.marks_of_function left_mem List.mem_cons_self
  have right_marked := program.marks_of_function right_mem List.mem_cons_self
  have roles := congrArg Mark.role (unique.eq_of_id_eq left_marked right_marked same)
  cases roles
  rfl

end Program

end Relock
