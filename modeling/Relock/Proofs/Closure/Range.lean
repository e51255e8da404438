import Relock.Proofs.Closure.Renames
import Relock.Proofs.Reading.Numbering
import Relock.Proofs.Reading.Shown

/-!
# Closures behind loop variables

A range clause that declares variables is read as an assignment of what it ranges over to them. So a
call of a loop variable runs no closure literal when the clause has more variables than operands, or
ranges over neither a name nor a closure literal. A single variable that ranges over a function is
another matter: the literal found for it is that function, and none of the values it hands out.
-/

namespace Relock

namespace Expr

/-- The expression is neither a name nor a closure literal, in parentheses or not. -/
def isDeadEnd (expr : Expr) : Bool :=
  match expr.unparen with
  | .ident _ | .literal .. => false
  | _ => true

theorem IsName.isDeadEnd_eq_false {expr : Expr} {tables : Tables} {id : SymbolId}
    (name : expr.IsName tables id) : expr.isDeadEnd = false := by
  obtain ⟨ident, unparen, -⟩ := name
  simp [isDeadEnd, unparen]

theorem IsClosure.isDeadEnd_eq_false {expr : Expr} {literal : Closure}
    (closure : expr.IsClosure literal) : expr.isDeadEnd = false := by
  rw [IsClosure] at closure
  simp [isDeadEnd, closure]

end Expr

/-- Nodes of the form are read as expressions of their own, neither as names or closure literals nor
as what a part of them is read as. -/
def ExprForm.isDeadEnd : ExprForm → Bool
  | selector | call | unary | composite | other => true
  | name | closure | paren | element | keyedElement => false

namespace Tree

/-- The trees of the expressions under a field, in a list or alone. -/
def operands (field : String) (children : List Tree) : List Tree :=
  match under? field children with
  | some list => if list.kind == "expression_list" then partsOf list.children else [list]
  | none => []

/-- The tree is a range clause that declares variables. -/
def isDeclaringRange (tree : Tree) : Bool :=
  tree.kind == "range_clause" && (under? "left" tree.children).isSome &&
    tree.children.any fun child => child.kind == ":="

/-- The expression is what the tree is read as. -/
def Means (file : Nat) (tree : Tree) (expr : Expr) : Prop :=
  ∃ next, ((tree.reading file).expr.run next).1 = expr

/-- The statement is what the tree is read as. -/
def ReadsAs (file : Nat) (tree : Tree) (stmt : Stmt) : Prop :=
  ∃ next, ((tree.reading file).stmts.run next).1 = [stmt]

open Reading

variable {file : Nat} {field : String} {label : Label} {children : List Tree} {tree : Tree}

theorem exprs_mean (trees : List Tree) :
    Yields (exprs (trees.map (Tree.reading file))) fun values =>
      List.Forall₂ (Means file) trees values := by
  induction trees with
  | nil => exact .pure .nil
  | cons tree trees ih =>
      rw [List.map_cons, exprs, List.mapM_cons]
      have first : Yields (tree.reading file).expr (Means file tree) := fun next => ⟨next, rfl⟩
      exact first.bind fun value means => ih.bind fun values all => .pure (.cons means all)

/-- What stands under a field is read operand by operand. -/
theorem exprsUnder_mean : Yields (exprsUnder field (children.map (Tree.reading file))) fun values =>
    List.Forall₂ (Means file) (operands field children) values := by
  rw [exprsUnder, under?_readings, operands]
  cases under? field children with
  | none => exact .pure .nil
  | some list =>
      rw [Option.map_some]
      dsimp only
      rw [exprList, Reading.kind, label_reading, Tree.kind]
      split
      · cases list with
        | node label children =>
            rw [reading_node]
            exact named_readings children ▸ exprs_mean (partsOf children)
      · exact fun next => .cons ⟨next, rfl⟩ .nil

theorem assignmentOf_means (define : Bool) :
    Yields (assignmentOf file label (children.map (Tree.reading file)) define) fun stmt =>
      ∃ id targets values, stmt = .assign id targets values define label.span ∧
        List.Forall₂ (Means file) (operands "left" children) targets ∧
        List.Forall₂ (Means file) (operands "right" children) values := by
  refine (Yields.any _).bind fun id _ => exprsUnder_mean.bind fun targets left => ?_
  exact exprsUnder_mean.bind fun values right => .pure ⟨id, targets, values, rfl, left, right⟩

/-- A range clause that declares variables is read as an assignment of its operands to them. -/
theorem ReadsAs.of_isDeclaringRange {assignment : Assignment}
    (reads : tree.ReadsAs file assignment.stmt) (declaring : tree.isDeclaringRange = true) :
    List.Forall₂ (Means file) (operands "left" tree.children) assignment.targets ∧
      List.Forall₂ (Means file) (operands "right" tree.children) assignment.values := by
  obtain ⟨next, reads⟩ := reads
  cases tree with
  | node label children =>
      rw [isDeclaringRange, Bool.and_eq_true, Bool.and_eq_true, beq_iff_eq] at declaring
      obtain ⟨⟨kind, left⟩, -⟩ := declaring
      obtain ⟨list, left⟩ := Option.isSome_iff_exists.mp left
      have form : StmtForm.ofKind label.kind = .clause := by
        rw [show label.kind = "range_clause" from kind]
        decide +kernel
      have under : Reading.under? "left" (children.map (Tree.reading file)) =
          some (list.reading file) := by
        rw [under?_readings, show Tree.under? "left" children = some list from left,
          Option.map_some]
      have single : Yields ((node label children).reading file).stmts fun stmts => ∃ stmt,
          stmts = [stmt] ∧ ∃ id targets values define,
            stmt = .assign id targets values define label.span ∧
            List.Forall₂ (Means file) (operands "left" children) targets ∧
            List.Forall₂ (Means file) (operands "right" children) values := by
        rw [reading_node, ofChildren, stmtsOf, form]
        dsimp only
        rw [clauseOf, under]
        refine (assignmentOf_means _).bind fun stmt parts => .pure ⟨stmt, rfl, ?_⟩
        obtain ⟨id, targets, values, parts⟩ := parts
        exact ⟨id, targets, values, _, parts⟩
      obtain ⟨stmt, only, id, targets, values, define, stmt_eq, left, right⟩ := single next
      rw [reads, List.cons.injEq] at only
      have parts := only.1.trans stmt_eq
      rw [Assignment.stmt, Stmt.assign.injEq] at parts
      obtain ⟨-, rfl, rfl, -⟩ := parts
      exact ⟨left, right⟩

/-! ## Operands that are not followed -/

theorem otherOf_isDeadEnd (nodes : List Reading) :
    Yields (otherOf label nodes) fun expr => expr.isDeadEnd = true :=
  (Yields.any _).bind fun _ _ => .pure rfl

theorem exprOf_isDeadEnd (nodes : List Reading)
    (dead : (ExprForm.ofKind label.kind).isDeadEnd = true) :
    Yields (exprOf file label nodes) fun expr => expr.isDeadEnd = true := by
  have otherwise : Yields (otherOf label nodes) fun expr => expr.isDeadEnd = true :=
    otherOf_isDeadEnd nodes
  rw [exprOf]
  cases form : ExprForm.ofKind label.kind with
  | name | closure | paren | element | keyedElement => simp [form, ExprForm.isDeadEnd] at dead
  | selector =>
      refine (Yields.any _).bind fun id _ => ?_
      split
      · exact (Yields.any _).bind fun base _ => (Yields.any _).bind fun member _ => .pure rfl
      · exact otherwise
  | call =>
      refine (Yields.any _).bind fun id _ => ?_
      split
      · refine (Yields.any _).bind fun callee _ => ?_
        dsimp only
        split <;> exact (Yields.any _).bind fun args _ => .pure rfl
      · exact otherwise
  | unary =>
      dsimp only
      rw [unaryOf]
      split
      · exact (Yields.any _).bind fun operand _ => .pure rfl
      · exact otherwise
  | composite =>
      refine (Yields.any _).bind fun type _ => ?_
      dsimp only
      split <;> exact (Yields.any _).bind fun elements _ => .pure rfl
  | other => exact otherwise

theorem Means.isDeadEnd {expr : Expr} (means : tree.Means file expr)
    (dead : (ExprForm.ofKind tree.kind).isDeadEnd = true) : expr.isDeadEnd = true := by
  obtain ⟨next, rfl⟩ := means
  cases tree with
  | node label children =>
      rw [reading_node]
      exact exprOf_isDeadEnd _ dead next

end Tree

/-- A variable that a range clause in one of the trees declares. -/
structure Program.LoopVariable (trees : List (String × Tree)) (number : Nat) (clause : Tree)
    (assignment : Assignment) (id : SymbolId) : Prop where
  /-- The clause stands in the tree of this number. -/
  stands : ∃ path tree, trees[number]? = some (path, tree) ∧
    Relation.ReflTransGen (fun parent child => child ∈ parent.children) tree clause
  declaring : clause.isDeclaringRange = true
  reads : clause.ReadsAs number assignment.stmt
  contained : (ofTrees trees).Contains (.stmt assignment.stmt)
  declared : (ofTrees trees).resolve.declOf? id = some assignment.id

namespace Subject

variable {program : Program} {config : Config}

/-- Behind a variable that a binding declares, there is the literal that leads on from the value
which this binding gives it for good. -/
theorem closure?_eq_some_iff_of_declOf? (unique : program.UniqueIds) {call : Call}
    {passed : List SymbolId} {last : Expr} (follows : program.Follows call.callee passed last)
    {id : SymbolId} (name : last.IsName program.resolve id) {binding : Binding}
    (listed : binding ∈ program.bindings)
    (declared : program.resolve.declOf? id = some binding.id) {literal : Closure} :
    (ofProgram program config).closure? call = some literal ↔
      ∃ position value further final, program.Settles binding position id value ∧
        passed.length + 1 + further.length ≤ maxRenames ∧
        program.Follows value further final ∧ final.IsClosure literal := by
  constructor
  · intro found
    obtain ⟨further, final, few, rest, closure⟩ := exists_rest_of_closure? unique found follows
    cases rest with
    | here => exact absurd name (closure.not_isName id)
    | @rename _ value _ other further named bound rest =>
        cases name.eq named
        obtain ⟨declaring, position, settles⟩ := bound
        have same_id := Option.some.inj (declared.symm.trans settles.declares)
        cases unique.binding_eq listed settles.listed same_id
        rw [List.length_cons] at few
        exact ⟨position, value, further, final, settles, by omega, rest, closure⟩
  · rintro ⟨position, value, further, final, settles, few, rest, closure⟩
    refine (closureOf?_eq_some_iff unique).mpr ⟨passed ++ id :: further, final, ?_,
      follows.append (.rename name ⟨binding, position, settles⟩ rest), closure⟩
    rw [List.length_append, List.length_cons]
    omega

section Loop

variable {trees : List (String × Tree)} {number : Nat} {clause : Tree} {assignment : Assignment}
  {id : SymbolId} {call : Call} {passed : List SymbolId} {last : Expr}

/-- Behind a loop variable there is the literal that leads on from the operand in its place. -/
theorem closure?_eq_some_iff_operand
    (loop : Program.LoopVariable trees number clause assignment id)
    (follows : (Program.ofTrees trees).Follows call.callee passed last)
    (name : last.IsName (Program.ofTrees trees).resolve id) {literal : Closure} :
    (ofProgram (.ofTrees trees) config).closure? call = some literal ↔
      ∃ position operand value further final,
        (Tree.operands "right" clause.children)[position]? = some operand ∧
        operand.Means number value ∧
        (Program.ofTrees trees).Settles (.assign assignment) position id value ∧
        passed.length + 1 + further.length ≤ maxRenames ∧
        (Program.ofTrees trees).Follows value further final ∧ final.IsClosure literal := by
  have listed : .assign assignment ∈ (Program.ofTrees trees).bindings :=
    Program.mem_assignments.mp (Program.mem_assignments_iff.mpr loop.contained)
  have meaning := (loop.reads.of_isDeclaringRange loop.declaring).2
  rw [closure?_eq_some_iff_of_declOf? (Program.nodup_ids_ofTrees trees) follows name listed
    loop.declared]
  constructor
  · rintro ⟨position, value, further, final, settles, leads⟩
    have given : assignment.values[position]? = some value := settles.given
    obtain ⟨bound, rfl⟩ := List.getElem?_eq_some_iff.mp given
    have operand_bound := meaning.length_eq ▸ bound
    exact ⟨position, _, _, further, final, List.getElem?_eq_getElem operand_bound,
      meaning.get operand_bound bound, settles, leads⟩
  · rintro ⟨position, operand, value, further, final, -, -, leads⟩
    exact ⟨position, value, further, final, leads⟩

end Loop

/-- A call of a loop variable, or of a variable from which renames lead to one, runs no literal when
the clause has not as many variables as operands, or ranges over dead ends only. Else it runs the
literal that leads on from the operand in the place of the variable. -/
theorem closure?_of_loopVariable (trees : List (String × Tree)) (config : Config) (number : Nat)
    (clause : Tree) (assignment : Assignment) (id : SymbolId)
    (loop : Program.LoopVariable trees number clause assignment id) (call : Call)
    (passed : List SymbolId) (last : Expr)
    (follows : (Program.ofTrees trees).Follows call.callee passed last)
    (name : last.IsName (Program.ofTrees trees).resolve id) :
    ((Tree.operands "left" clause.children).length ≠
        (Tree.operands "right" clause.children).length →
      (ofProgram (.ofTrees trees) config).closure? call = none) ∧
    ((∀ operand ∈ Tree.operands "right" clause.children,
        (ExprForm.ofKind operand.kind).isDeadEnd = true) →
      (ofProgram (.ofTrees trees) config).closure? call = none) ∧
    ∀ literal, (ofProgram (.ofTrees trees) config).closure? call = some literal ↔
      ∃ position operand value further final,
        (Tree.operands "right" clause.children)[position]? = some operand ∧
        operand.Means number value ∧
        (Program.ofTrees trees).Settles (.assign assignment) position id value ∧
        passed.length + 1 + further.length ≤ 16 ∧
        (Program.ofTrees trees).Follows value further final ∧ final.IsClosure literal := by
  refine ⟨fun unbalanced => ?_, fun dead => ?_,
    fun literal => closure?_eq_some_iff_operand loop follows name⟩ <;>
    refine Option.eq_none_iff_forall_ne_some.mpr fun literal found => ?_ <;>
    obtain ⟨position, operand, value, further, final, chosen, means, settles, -, rest, closure⟩ :=
      (closure?_eq_some_iff_operand loop follows name).mp found
  · obtain ⟨left, right⟩ := loop.reads.of_isDeclaringRange loop.declaring
    have balanced := settles.balanced
    rw [Binding.names, Binding.values, List.length_map] at balanced
    exact unbalanced (left.length_eq.trans (balanced.trans right.length_eq.symm))
  · have dead_end := means.isDeadEnd (dead operand (List.mem_of_getElem? chosen))
    cases rest with
    | here => cases dead_end.symm.trans closure.isDeadEnd_eq_false
    | rename named => cases dead_end.symm.trans named.isDeadEnd_eq_false

/-! ## A range over a function -/

section Looping

open Sample Program

/-- A range of bytes. -/
def bytes (first last : Nat) : Span := ⟨first, last, 0, 0, 0, 0⟩

variable (names : List String)

/-- The clause that ranges over `each` with variables of the given names. -/
def rangeOverEach : Tree :=
  tree "range_clause" "" 40 59
    [tree "expression_list" "left" 40 44 (names.map fun name => leaf "identifier" "" name 40),
      .node ⟨":=", bytes 45 47, ":=", "", false, false⟩ [], leaf "identifier" "right" "each" 55]

/-- A function that binds `each` to a closure literal, ranges over it, and calls `f` in the loop. -/
def looping : Tree :=
  tree "source_file" "" 0 74
    [tree "function_declaration" "" 0 74
      [leaf "identifier" "name" "F" 5, tree "parameter_list" "parameters" 6 8 [],
        tree "block" "body" 9 74
          [tree "short_var_declaration" "" 11 30
            [tree "expression_list" "left" 11 15 [leaf "identifier" "" "each" 11],
              tree "expression_list" "right" 19 30
                [tree "func_literal" "" 19 30
                  [tree "parameter_list" "parameters" 23 27 [], tree "block" "body" 28 30 []]]],
            tree "for_statement" "" 36 72
              [rangeOverEach names,
                tree "block" "body" 60 72
                  [tree "expression_statement" "" 64 67
                    [tree "call_expression" "" 64 67
                      [leaf "identifier" "function" "f" 64,
                        tree "argument_list" "arguments" 65 67 []]]]]]]]

/-- What the clause is read as. -/
def loopAssignment : Assignment where
  id := ⟨0, 5⟩
  targets := names.mapIdx fun position name =>
    .ident ⟨⟨0, 6 + position⟩, name, bytes 40 (40 + name.length)⟩
  values := [.ident ⟨⟨0, 6 + names.length⟩, "each", bytes 55 59⟩]
  define := true
  span := bytes 40 59

/-- The call of `f` in the loop. -/
def loopCall : Call :=
  ⟨⟨0, 7 + names.length⟩, .ident ⟨⟨0, 8 + names.length⟩, "f", bytes 64 65⟩, [], bytes 64 67⟩

/-- What the tree is read as. -/
def loopingProgram : Program :=
  ⟨[⟨0, "p.go", "", ".", [],
    [.func ⟨⟨0, 0⟩, ⟨⟨0, 1⟩, "F", bytes 5 6⟩, none, [], none,
      some ⟨[
        .assign ⟨0, 2⟩ [.ident ⟨⟨0, 3⟩, "each", bytes 11 15⟩]
          [.literal ⟨0, 4⟩ [] none [] (bytes 28 30) (bytes 19 30)] true (bytes 11 30),
        .compound "for_statement"
          [(loopAssignment names).stmt, .block [statement (loopCall names)] (bytes 60 72)]
          (bytes 36 72)],
        bytes 9 74⟩, bytes 0 74⟩]⟩]⟩

theorem loopVariable_looping {id : SymbolId}
    (program_eq : ofTrees [("p.go", looping names)] = loopingProgram names)
    (reads : (rangeOverEach names).ReadsAs 0 (loopAssignment names).stmt)
    (declared : (loopingProgram names).resolve.declOf? id = some ⟨0, 5⟩) :
    LoopVariable [("p.go", looping names)] 0 (rangeOverEach names) (loopAssignment names) id where
  stands :=
    ⟨"p.go", looping names, rfl,
      .head List.mem_cons_self
        (.head (List.mem_cons_of_mem _ (List.mem_cons_of_mem _ List.mem_cons_self))
          (.head (List.mem_cons_of_mem _ List.mem_cons_self) (.single List.mem_cons_self)))⟩
  declaring := rfl
  reads := reads
  contained := by
    rw [program_eq]
    exact ⟨_, List.mem_cons_self, _, List.mem_cons_of_mem _ List.mem_cons_self,
      .single List.mem_cons_self⟩
  declared := by rw [program_eq, declared]; rfl

/-- The variable `f` of `f := range each` is taken for the function `each` itself. -/
theorem looping_runs_operand : ∃ id literal,
    LoopVariable [("p.go", looping ["f"])] 0 (rangeOverEach ["f"]) (loopAssignment ["f"]) id ∧
    (ofTrees [("p.go", looping ["f"])]).Contains (.stmt (statement (loopCall ["f"]))) ∧
    (loopCall ["f"]).callee.IsName (ofTrees [("p.go", looping ["f"])]).resolve id ∧
    (ofProgram (ofTrees [("p.go", looping ["f"])]) default).closure? (loopCall ["f"]) =
      some literal := by
  have program_eq : ofTrees [("p.go", looping ["f"])] = loopingProgram ["f"] := rfl
  have loop : LoopVariable [("p.go", looping ["f"])] 0 (rangeOverEach ["f"])
      (loopAssignment ["f"]) 67 := loopVariable_looping ["f"] rfl ⟨5, rfl⟩ (by decide +kernel)
  have found : ((ofProgram (loopingProgram ["f"]) default).closure?
      (loopCall ["f"])).isSome = true := by decide +kernel
  obtain ⟨literal, found⟩ := Option.isSome_iff_exists.mp found
  refine ⟨67, literal, loop, ?_⟩
  rw [program_eq]
  refine ⟨?_, ⟨_, rfl, by decide +kernel⟩, found⟩
  exact ⟨_, List.mem_cons_self, _, List.mem_cons_of_mem _ List.mem_cons_self,
      .head (List.mem_cons_of_mem _ List.mem_cons_self) (.single List.mem_cons_self)⟩

/-- With two variables the clause binds neither of them to what it ranges over. -/
theorem looping_pair_runs_nothing :
    LoopVariable [("p.go", looping ["i", "f"])] 0 (rangeOverEach ["i", "f"])
      (loopAssignment ["i", "f"]) 68 ∧
    (loopCall ["i", "f"]).callee.IsName (ofTrees [("p.go", looping ["i", "f"])]).resolve 68 ∧
    (ofProgram (ofTrees [("p.go", looping ["i", "f"])]) default).closure?
      (loopCall ["i", "f"]) = none := by
  have program_eq : ofTrees [("p.go", looping ["i", "f"])] = loopingProgram ["i", "f"] := rfl
  have loop := @loopVariable_looping ["i", "f"] 68 program_eq ⟨5, rfl⟩ (by decide +kernel)
  have name : (loopCall ["i", "f"]).callee.IsName
      (ofTrees [("p.go", looping ["i", "f"])]).resolve 68 :=
    ⟨_, rfl, by rw [program_eq]; decide +kernel⟩
  refine ⟨loop, name, ?_⟩
  exact (closure?_of_loopVariable _ default 0 _ _ 68 loop _ [] _ (.here _) name).1 (by decide)

end Looping

end Subject

end Relock
