import Mathlib.Data.List.Flatten
import Mathlib.Data.List.Nodup
import Mathlib.Logic.Relation
import Relock.Program.Binding
import Relock.Program.Stream
import Relock.Proofs.Program.Marks

/-!
# The parts of a program

What stands where in a program is told by one relation: a construct has direct parts, these have
parts in turn, and so on. The bindings of a program are listed by a walk of their own. Here the list
is compared with the parts: it holds each binding that stands anywhere in the program, and each of
them once if numbers are unique.
-/

namespace Relock

/-- An expression or a statement. -/
inductive Construct where
  | expr (expr : Expr)
  | stmt (stmt : Stmt)

namespace Construct

/-- The expressions and statements that a construct is made of, in source order. -/
def parts : Construct → List Construct
  | expr (.ident _) => []
  | expr (.selector _ base _ _) => [expr base]
  | expr (.call _ callee args _) => expr callee :: args.map expr
  | expr (.literal _ _ _ body _ _) => body.map stmt
  | expr (.paren inner _) => [expr inner]
  | expr (.unary _ operand _) => [expr operand]
  | expr (.composite _ elements _) => elements.map expr
  | expr (.other _ parts _) => parts.map expr
  | stmt (.expr inner) => [expr inner]
  | stmt (.defer _ callee args _ _) => expr callee :: args.map expr
  | stmt (.go _ callee args _ _) => expr callee :: args.map expr
  | stmt (.return results _) => results.map expr
  | stmt (.assign _ targets values _ _) => targets.map expr ++ values.map expr
  | stmt (.var _ _ _ values _) => values.map expr
  | stmt (.block body _) => body.map stmt
  | stmt (.compound _ parts _) => parts.map stmt

/-- A construct stands somewhere in another one, or is the same. -/
def Contains : Construct → Construct → Prop :=
  Relation.ReflTransGen fun whole part => part ∈ whole.parts

/-- The binding that a construct itself is. -/
def binding? : Construct → Option Binding
  | stmt (.assign id targets values define span) =>
      some (.assign ⟨id, targets, values, define, span⟩)
  | stmt (.var id names type values span) => some (.declare ⟨id, names, type, values, span⟩)
  | _ => none

/-- The bindings that a construct makes and contains. -/
def bindings : Construct → List Binding
  | expr inner => inner.bindings
  | stmt inner => inner.bindings

theorem bindings_map_expr (exprs : List Expr) :
    (exprs.map expr).flatMap bindings = exprBindings exprs := by
  induction exprs with
  | nil => rfl
  | cons inner exprs ih => rw [List.map_cons, List.flatMap_cons, ih, exprBindings, bindings]

theorem bindings_map_stmt (stmts : List Stmt) :
    (stmts.map stmt).flatMap bindings = stmtBindings stmts := by
  induction stmts with
  | nil => rfl
  | cons inner stmts ih => rw [List.map_cons, List.flatMap_cons, ih, stmtBindings, bindings]

/-- The walk visits a construct, then its parts in order. -/
theorem bindings_eq (construct : Construct) :
    construct.bindings = construct.binding?.toList ++ construct.parts.flatMap bindings := by
  cases construct with
  | expr inner => cases inner <;>
      simp [parts, binding?, bindings, Expr.bindings, bindings_map_expr, bindings_map_stmt]
  | stmt inner => cases inner <;>
      simp [parts, binding?, bindings, Stmt.bindings, bindings_map_expr, bindings_map_stmt]

theorem sizeOf_lt_of_mem_parts {whole part : Construct} (member : part ∈ whole.parts) :
    sizeOf part < sizeOf whole := by
  cases whole with
  | expr inner | stmt inner => cases inner <;> grind [parts, → List.sizeOf_lt_of_mem]

/-- What holds of a construct whenever it holds of its parts holds of every construct. -/
theorem induct {motive : Construct → Prop}
    (step : ∀ construct, (∀ part ∈ construct.parts, motive part) → motive construct)
    (construct : Construct) : motive construct := by
  induction size : sizeOf construct using Nat.strongRecOn generalizing construct with
  | ind _ ih =>
      exact step construct fun part part_mem =>
        ih _ (size ▸ sizeOf_lt_of_mem_parts part_mem) part rfl

/-- The bindings listed for a construct are those that stand in it. -/
theorem mem_bindings_iff {construct : Construct} {binding : Binding} :
    binding ∈ construct.bindings ↔
      ∃ part, construct.Contains part ∧ part.binding? = some binding := by
  constructor
  · induction construct using induct with
    | step construct ih =>
        intro listed
        rw [bindings_eq, List.mem_append, Option.mem_toList, List.mem_flatMap] at listed
        rcases listed with own | ⟨part, part_mem, listed⟩
        · exact ⟨construct, .refl, own⟩
        · obtain ⟨inner, contained, own⟩ := ih part part_mem listed
          exact ⟨inner, .head part_mem contained, own⟩
  · rintro ⟨part, contained, own⟩
    induction contained using Relation.ReflTransGen.head_induction_on with
    | refl => simp [bindings_eq part, own]
    | head part_mem _ ih =>
        rw [bindings_eq]
        exact List.mem_append_right _ (List.mem_flatMap.mpr ⟨_, part_mem, ih⟩)

end Construct

namespace Assignment

/-- The statement that an assignment is. -/
def stmt (assignment : Assignment) : Stmt :=
  .assign assignment.id assignment.targets assignment.values assignment.define assignment.span

theorem binding?_eq_assign {part : Construct} {assignment : Assignment} :
    part.binding? = some (.assign assignment) ↔ part = .stmt assignment.stmt := by
  constructor
  · intro own
    unfold Construct.binding? at own
    split at own <;> cases own
    rfl
  · rintro rfl
    rfl

end Assignment

namespace Decl

/-- The outermost statements and expressions of a declaration. -/
def roots : Decl → List Construct
  | func decl =>
      match decl.body with
      | some block => block.body.map .stmt
      | none => []
  | var spec => spec.values.map .expr
  | type _ => []

/-- The binding that a declaration itself is. -/
def binding? : Decl → Option Binding
  | var spec => some (.declare spec)
  | _ => none

theorem bindings_eq (decl : Decl) :
    decl.bindings = decl.binding?.toList ++ decl.roots.flatMap Construct.bindings := by
  cases decl with
  | func decl =>
      cases body : decl.body <;>
        simp [Decl.bindings, roots, binding?, body, Construct.bindings_map_stmt]
  | var spec => simp [Decl.bindings, roots, binding?, Construct.bindings_map_expr]
  | type spec => rfl

end Decl

namespace Program

/-- A construct stands somewhere in a program: in a body or in an initial value. -/
def Contains (program : Program) (part : Construct) : Prop :=
  ∃ decl ∈ program.decls, ∃ root ∈ decl.roots, root.Contains part

theorem bindings_eq (program : Program) : program.bindings = program.decls.flatMap Decl.bindings :=
  List.flatMap_assoc.symm

theorem mem_assignments {program : Program} {assignment : Assignment} :
    assignment ∈ program.assignments ↔ .assign assignment ∈ program.bindings := by
  rw [assignments, List.mem_filterMap]
  constructor
  · rintro ⟨binding, listed, same⟩
    split at same <;> cases same
    exact listed
  · exact fun listed => ⟨_, listed, rfl⟩

/-- The assignments listed for a program are those that stand in it. -/
theorem mem_assignments_iff {program : Program} {assignment : Assignment} :
    assignment ∈ program.assignments ↔ program.Contains (.stmt assignment.stmt) := by
  rw [mem_assignments, bindings_eq, List.mem_flatMap, Contains]
  refine exists_congr fun decl => and_congr_right fun _ => ?_
  have none_own : Binding.assign assignment ∉ decl.binding?.toList := by
    cases decl <;> simp [Decl.binding?]
  simp only [Decl.bindings_eq, List.mem_append, none_own, false_or, List.mem_flatMap,
    Construct.mem_bindings_iff, Assignment.binding?_eq_assign, exists_eq_right]

end Program

/-! ## Nodes of parts -/

namespace Construct

/-- The nodes of a construct. -/
def nodes : Construct → List Node
  | expr inner => inner.nodes
  | stmt inner => inner.nodes

/-- The nodes that a construct itself is. -/
def ownNodes : Construct → List Node
  | expr (.call id callee args span) => [.call ⟨id, callee, args, span⟩]
  | expr (.literal id params result body bodySpan span) =>
      [.closure ⟨id, params, result, ⟨body, bodySpan⟩, span⟩]
  | stmt (.defer id callee args callSpan span) =>
      [.defer ⟨id, callee, args, callSpan⟩ span, .call ⟨id, callee, args, callSpan⟩]
  | stmt (.go id callee args callSpan _) => [.call ⟨id, callee, args, callSpan⟩]
  | stmt (.return _ span) => [.return span]
  | _ => []

theorem nodes_map_expr (exprs : List Expr) : (exprs.map expr).flatMap nodes = exprNodes exprs := by
  induction exprs with
  | nil => rfl
  | cons inner exprs ih => rw [List.map_cons, List.flatMap_cons, ih, exprNodes, nodes]

theorem nodes_map_stmt (stmts : List Stmt) : (stmts.map stmt).flatMap nodes = stmtNodes stmts := by
  induction stmts with
  | nil => rfl
  | cons inner stmts ih => rw [List.map_cons, List.flatMap_cons, ih, stmtNodes, nodes]

theorem nodes_eq (construct : Construct) :
    construct.nodes = construct.ownNodes ++ construct.parts.flatMap nodes := by
  cases construct with
  | expr inner => cases inner <;>
      simp [parts, ownNodes, nodes, Expr.nodes, nodes_map_expr, nodes_map_stmt]
  | stmt inner => cases inner <;>
      simp [parts, ownNodes, nodes, Stmt.nodes, nodes_map_expr, nodes_map_stmt]

/-- A call that is deferred in a construct is a call of the construct. -/
theorem call_of_defer {construct : Construct} {call : Call} {span : Span}
    (deferred : .defer call span ∈ construct.nodes) : .call call ∈ construct.nodes := by
  induction construct using induct with
  | step construct ih =>
      rw [nodes_eq, List.mem_append] at deferred ⊢
      rcases deferred with own | inner
      · left
        unfold ownNodes at own ⊢
        split at own <;> simp_all
      · obtain ⟨part, part_mem, inner⟩ := List.mem_flatMap.mp inner
        exact .inr (List.mem_flatMap.mpr ⟨part, part_mem, ih part part_mem inner⟩)

end Construct

/-- The node that a declaration itself is. -/
def Decl.ownNodes : Decl → List Node
  | func decl => [.func decl]
  | _ => []

theorem Decl.nodes_eq (decl : Decl) :
    decl.nodes = decl.ownNodes ++ decl.roots.flatMap Construct.nodes := by
  cases decl with
  | func decl =>
      cases body : decl.body <;>
        simp [nodes, FuncDecl.stream, Block.nodes, roots, ownNodes, body, Construct.nodes_map_stmt]
  | var spec => simp [nodes, roots, ownNodes, Construct.nodes_map_expr]
  | type spec => rfl

theorem Program.nodes_eq (program : Program) :
    program.nodes = program.decls.flatMap Decl.nodes := List.flatMap_assoc.symm

theorem Program.stream_subset_nodes (program : Program) {decl : FuncDecl}
    (declared : decl ∈ program.functions) : decl.stream ⊆ program.nodes := by
  rw [nodes_eq]
  exact fun node listed => List.mem_flatMap.mpr ⟨.func decl, mem_functions.mp declared, listed⟩

/-- A call that is deferred in a program is a call of the program. -/
theorem Program.call_of_defer {program : Program} {call : Call} {span : Span}
    (deferred : .defer call span ∈ program.nodes) : .call call ∈ program.nodes := by
  have within (decl : Decl) (deferred : .defer call span ∈ decl.nodes) : .call call ∈ decl.nodes := by
    have none_own : .defer call span ∉ decl.ownNodes := by
      cases decl <;> simp [Decl.ownNodes]
    simp only [Decl.nodes_eq, List.mem_append, none_own, false_or, List.mem_flatMap] at deferred ⊢
    obtain ⟨root, root_mem, inner⟩ := deferred
    exact .inr ⟨root, root_mem, Construct.call_of_defer inner⟩
  rw [nodes_eq, List.mem_flatMap] at deferred ⊢
  obtain ⟨decl, decl_mem, deferred⟩ := deferred
  exact ⟨decl, decl_mem, within decl deferred⟩

/-! ## Marks of parts -/

namespace Construct

/-- The marks of a construct. -/
def marks : Construct → List Mark
  | expr inner => inner.marks
  | stmt inner => inner.marks

theorem marks_map_expr (exprs : List Expr) : (exprs.map expr).flatMap marks = exprMarks exprs := by
  rw [exprMarks_eq, List.flatMap_map]
  rfl

theorem marks_map_stmt (stmts : List Stmt) : (stmts.map stmt).flatMap marks = stmtMarks stmts := by
  rw [stmtMarks_eq, List.flatMap_map]
  rfl

/-- The marks of a construct without those of its parts. -/
def ownMarks : Construct → List Mark
  | expr (.ident ident) => [ident.mark]
  | expr (.selector id _ member _) => [⟨id, .selector member.id⟩, ⟨member.id, .member id⟩]
  | expr (.call id _ _ _) => [⟨id, .construct⟩]
  | expr (.literal id params _ _ _ _) => ⟨id, .construct⟩ :: Param.marks params
  | stmt (.defer id _ _ _ _) | stmt (.go id _ _ _ _) => [⟨id, .construct⟩]
  | stmt (.assign id _ _ _ _) => [⟨id, .construct⟩]
  | stmt (.var id names _ _ _) => ⟨id, .construct⟩ :: names.map Ident.mark
  | _ => []

theorem marks_eq (construct : Construct) :
    construct.marks = construct.ownMarks ++ construct.parts.flatMap marks := by
  cases construct with
  | expr inner => cases inner <;>
      simp [parts, ownMarks, marks, Expr.marks, marks_map_expr, marks_map_stmt]
  | stmt inner => cases inner <;>
      simp [parts, ownMarks, marks, Stmt.marks, marks_map_expr, marks_map_stmt]

theorem marks_of_part {whole part : Construct} (part_mem : part ∈ whole.parts) :
    part.marks ⊆ whole.marks := by
  rw [marks_eq whole]
  exact fun mark found => List.mem_append_right _ (List.mem_flatMap.mpr ⟨part, part_mem, found⟩)

theorem marks_of_contains {whole part : Construct} (contained : whole.Contains part) :
    part.marks ⊆ whole.marks := by
  induction contained using Relation.ReflTransGen.head_induction_on with
  | refl => exact List.Subset.refl _
  | head part_mem _ ih => exact List.Subset.trans ih (marks_of_part part_mem)

/-- Every call of a construct is marked. -/
theorem marks_of_call {construct : Construct} {call : Call} (member : .call call ∈ construct.nodes) :
    call.marks ⊆ construct.marks := by
  induction construct using induct with
  | step construct ih =>
      rw [nodes_eq, List.mem_append] at member
      rcases member with own | inner
      · unfold ownNodes at own
        split at own <;> simp at own <;> cases own <;> exact List.Subset.refl _
      · obtain ⟨part, part_mem, inner⟩ := List.mem_flatMap.mp inner
        exact List.Subset.trans (ih part part_mem inner) (marks_of_part part_mem)

end Construct

/-- The parts of a declaration are marked in it. -/
theorem Decl.marks_of_root {decl : Decl} {root : Construct} (root_mem : root ∈ decl.roots) :
    root.marks ⊆ decl.marks := by
  have roots : decl.roots.flatMap Construct.marks ⊆ decl.marks := by
    intro mark found
    cases decl with
    | func decl =>
        cases body : decl.body <;> simp_all [Decl.roots, Construct.marks_map_stmt, Decl.marks,
          FuncDecl.marks, FuncDecl.innerMarks]
    | var spec => simp_all [Decl.roots, Construct.marks_map_expr, Decl.marks]
    | type spec => simp [Decl.roots] at found
  exact fun mark found => roots (List.mem_flatMap.mpr ⟨root, root_mem, found⟩)

namespace Program

variable {program : Program} {call : Call}

/-- Every call of a program is marked. -/
theorem marks_of_site (member : .call call ∈ program.nodes) : call.marks ⊆ program.marks := by
  rw [nodes_eq] at member
  obtain ⟨decl, decl_mem, member⟩ := List.mem_flatMap.mp member
  have none_own : .call call ∉ decl.ownNodes := by cases decl <;> simp [Decl.ownNodes]
  rw [Decl.nodes_eq, List.mem_append] at member
  obtain ⟨root, root_mem, member⟩ := List.mem_flatMap.mp (member.resolve_left none_own)
  rw [marks_eq]
  exact fun mark found => List.mem_flatMap.mpr
    ⟨decl, decl_mem, Decl.marks_of_root root_mem (Construct.marks_of_call member found)⟩

/-- The callee of every call of a program is marked. -/
theorem marks_of_call (member : .call call ∈ program.nodes) :
    call.callee.marks ⊆ program.marks :=
  fun _ found => marks_of_site member (by simp [Call.marks, found])

end Program

namespace Binding

/-- The marks of a binding. -/
def marks : Binding → List Mark
  | assign assignment =>
      ⟨assignment.id, .construct⟩ :: (exprMarks assignment.targets ++ exprMarks assignment.values)
  | declare spec => ⟨spec.id, .construct⟩ :: (spec.names.map Ident.mark ++ exprMarks spec.values)

theorem mark_of_name {binding : Binding} {ident : Ident} (named : some ident ∈ binding.names) :
    ident.mark ∈ binding.marks := by
  cases binding with
  | assign assignment =>
      obtain ⟨target, target_mem, is_name⟩ := List.mem_map.mp named
      have marked : ident.mark ∈ target.marks := by
        unfold targetName? at is_name
        rw [← target.marks_unparen]
        split at is_name <;> cases is_name
        rename_i unparen
        simp [unparen, Expr.marks]
      have inside := marks_subset_exprMarks target_mem marked
      simp [marks, inside]
  | declare spec =>
      have inside : ident ∈ spec.names := by simpa [names] using named
      simp [marks, List.mem_map_of_mem inside]

theorem marks_of_value {binding : Binding} {value : Expr} (given : value ∈ binding.values) :
    value.marks ⊆ binding.marks := by
  intro mark found
  have inside : mark ∈ exprMarks binding.values := marks_subset_exprMarks given found
  cases binding with
  | assign assignment | declare spec => exact .tail _ (List.mem_append_right _ inside)

end Binding

variable {binding : Binding}

theorem Construct.marks_of_binding {construct : Construct}
    (listed : binding ∈ construct.bindings) : binding.marks ⊆ construct.marks := by
  obtain ⟨part, contained, own⟩ := mem_bindings_iff.mp listed
  have own_marks : binding.marks = part.marks := by
    unfold binding? at own
    split at own <;> cases own <;> simp [Binding.marks, marks, Stmt.marks]
  exact own_marks ▸ marks_of_contains contained

/-- What is bound in the parts of a declaration is marked there. -/
theorem Decl.marks_of_roots (decl : Decl)
    (listed : binding ∈ decl.roots.flatMap Construct.bindings) :
    binding.marks ⊆ decl.roots.flatMap Construct.marks := by
  obtain ⟨root, root_mem, listed⟩ := List.mem_flatMap.mp listed
  exact fun mark found =>
    List.mem_flatMap.mpr ⟨root, root_mem, Construct.marks_of_binding listed found⟩

theorem Decl.marks_of_binding {decl : Decl} (listed : binding ∈ decl.bindings) :
    binding.marks ⊆ decl.marks := by
  rw [bindings_eq, List.mem_append, Option.mem_toList] at listed
  rcases listed with own | inner
  · cases decl <;> cases own
    exact List.Subset.refl _
  · obtain ⟨root, root_mem, inner⟩ := List.mem_flatMap.mp inner
    exact List.Subset.trans (Construct.marks_of_binding inner) (Decl.marks_of_root root_mem)

/-- Every binding of a program is marked. -/
theorem Program.marks_of_binding {program : Program}
    (listed : binding ∈ program.bindings) : binding.marks ⊆ program.marks := by
  rw [bindings_eq] at listed
  obtain ⟨decl, decl_mem, listed⟩ := List.mem_flatMap.mp listed
  rw [marks_eq]
  exact fun mark found =>
    List.mem_flatMap.mpr ⟨decl, decl_mem, Decl.marks_of_binding listed found⟩

/-! ## Numbers of bindings -/

theorem Construct.bindings_sublist_marks (construct : Construct) :
    (construct.bindings.map Binding.id).Sublist (construct.marks.map Mark.id) := by
  induction construct using induct with
  | step construct ih =>
      have own : (construct.binding?.toList.map Binding.id).Sublist
          (construct.ownMarks.map Mark.id) := by
        unfold binding?
        split <;> simp [ownMarks, Binding.id]
      rw [bindings_eq, marks_eq, List.map_append, List.map_append, List.map_flatMap,
        List.map_flatMap]
      exact own.append (.flatMap_right _ ih)

theorem exprBindings_sublist_marks (exprs : List Expr) :
    ((exprBindings exprs).map Binding.id).Sublist ((exprMarks exprs).map Mark.id) := by
  rw [← Construct.bindings_map_expr, ← Construct.marks_map_expr, List.map_flatMap, List.map_flatMap]
  exact .flatMap_right _ fun construct _ => construct.bindings_sublist_marks

theorem stmtBindings_sublist_marks (stmts : List Stmt) :
    ((stmtBindings stmts).map Binding.id).Sublist ((stmtMarks stmts).map Mark.id) := by
  rw [← Construct.bindings_map_stmt, ← Construct.marks_map_stmt, List.map_flatMap, List.map_flatMap]
  exact .flatMap_right _ fun construct _ => construct.bindings_sublist_marks

/-- The number of a binding is the number of a construct where the binding stands. -/
theorem Decl.bindings_sublist_marks (decl : Decl) :
    (decl.bindings.map Binding.id).Sublist (decl.marks.map Mark.id) := by
  cases decl with
  | func decl =>
      cases body : decl.body with
      | none => simp [Decl.bindings, body]
      | some block =>
          simp only [Decl.bindings, Decl.marks, FuncDecl.marks, FuncDecl.innerMarks, body,
            List.map_append, List.map_cons]
          refine .cons _ (.cons _ (.trans (stmtBindings_sublist_marks block.body) ?_))
          exact .trans (List.sublist_append_right _ _) (List.sublist_append_right _ _)
  | var spec =>
      simp only [Decl.bindings, Decl.marks, List.map_append, List.map_cons]
      exact .cons_cons _
        (.trans (exprBindings_sublist_marks spec.values) (List.sublist_append_right _ _))
  | type spec => exact List.nil_sublist _

namespace Program

variable {program : Program}

theorem bindings_sublist_marks (program : Program) :
    (program.bindings.map Binding.id).Sublist (program.marks.map Mark.id) := by
  rw [bindings_eq, marks_eq, List.map_flatMap, List.map_flatMap]
  exact .flatMap_right _ fun decl _ => decl.bindings_sublist_marks

variable (unique : program.UniqueIds)
include unique

/-- No two bindings have the same number. -/
theorem UniqueIds.nodup_bindings : (program.bindings.map Binding.id).Nodup :=
  unique.sublist program.bindings_sublist_marks

/-- Each binding is found under its number. -/
theorem UniqueIds.bindingTable_eq (listed : binding ∈ program.bindings) :
    program.bindingTable[binding.id]? = some binding := by
  have kept (later : List Binding) (table : Std.TreeMap NodeId Binding)
      (apart : binding.id ∉ later.map Binding.id) :
      (later.foldl (fun table binding => table.insert binding.id binding) table)[binding.id]? =
        table[binding.id]? := by
    induction later generalizing table with
    | nil => rfl
    | cons other later ih =>
        rw [List.map_cons, List.mem_cons, not_or] at apart
        rw [List.foldl_cons, ih _ apart.2, Std.TreeMap.getElem?_insert]
        simp [Std.LawfulEqCmp.compare_eq_iff_eq, Ne.symm apart.1]
  obtain ⟨earlier, later, split⟩ := List.append_of_mem listed
  have nodup := unique.nodup_bindings
  rw [split, List.map_append, List.map_cons, List.nodup_append, List.nodup_cons] at nodup
  rw [bindingTable, split, List.foldl_append, List.foldl_cons, kept _ _ nodup.2.1.1]
  simp

theorem UniqueIds.nodup_assignments : program.assignments.Nodup := by
  refine List.Nodup.filterMap (fun left right assignment left_eq right_eq => ?_)
    unique.nodup_bindings.of_map
  cases left <;> cases right <;> cases left_eq <;> cases right_eq
  rfl

/-- Each assignment that stands in a program is listed at exactly one position. -/
theorem UniqueIds.existsUnique_assignment_iff {assignment : Assignment} :
    (∃! position : Nat, program.assignments[position]? = some assignment) ↔
      program.Contains (.stmt assignment.stmt) := by
  rw [← mem_assignments_iff, List.mem_iff_getElem?]
  refine ⟨ExistsUnique.exists, fun ⟨position, listed⟩ => ⟨position, listed, fun other also => ?_⟩⟩
  have bound : other < program.assignments.length := (List.getElem?_eq_some_iff.mp also).1
  exact (List.getElem?_inj bound unique.nodup_assignments).mp (also.trans listed.symm)

end Program

end Relock
