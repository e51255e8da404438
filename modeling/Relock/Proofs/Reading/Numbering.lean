import Mathlib.Data.List.Nodup
import Relock.Proofs.Program.Marks
import Relock.Proofs.Reading.Basic
import Relock.Proofs.Sample

/-!
# Numbers are drawn once

Reading a tree draws the numbers of its constructs from a counter. Some numbers are drawn and then
not used, some parts are read and then dropped, and the parts of a type switch are read in another
order than they are put together, but a number that ends up in a construct was drawn for it alone.
So no two constructs of a program have the same number, whatever the trees of its files look like.
-/

namespace Relock

/-- Numbers of a file that were drawn one by one while the counter went from `first` to `last`. -/
structure Drawn (file first last : Nat) (ids : List NodeId) : Prop where
  le : first ≤ last
  nodup : ids.Nodup
  range : ∀ id ∈ ids, id.file = file ∧ first ≤ id.index ∧ id.index < last

namespace Drawn

variable {file first middle last : Nat} {ids more : List NodeId}

theorem nil (file next : Nat) : Drawn file next next [] := ⟨Nat.le_refl next, .nil, by simp⟩

theorem append (early : Drawn file first middle ids) (late : Drawn file middle last more) :
    Drawn file first last (ids ++ more) where
  le := Nat.le_trans early.le late.le
  nodup := by
    refine early.nodup.append late.nodup fun id before after => ?_
    have below := (early.range id before).2.2
    have above := (late.range id after).2.1
    omega
  range id member := by
    have early_le := early.le
    have late_le := late.le
    rcases List.mem_append.mp member with before | after
    · obtain ⟨own, lower, upper⟩ := early.range id before
      exact ⟨own, lower, by omega⟩
    · obtain ⟨own, lower, upper⟩ := late.range id after
      exact ⟨own, by omega, upper⟩

/-- Numbers may be dropped and put in another order. -/
theorem of_count_le (drawn : Drawn file first last ids)
    (counts : ∀ id, more.count id ≤ ids.count id) : Drawn file first last more where
  le := drawn.le
  nodup := by
    rw [List.nodup_iff_count_le_one]
    exact fun id => Nat.le_trans (counts id) (List.nodup_iff_count_le_one.mp drawn.nodup id)
  range id member := by
    refine drawn.range id (List.count_pos_iff.mp ?_)
    exact Nat.lt_of_lt_of_le (List.count_pos_iff.mpr member) (counts id)

end Drawn

namespace Mark

/-- The numbers of marks. -/
def ids (marks : List Mark) : List NodeId := marks.map Mark.id

@[simp]
theorem ids_nil : ids [] = [] := rfl

@[simp]
theorem ids_cons (mark : Mark) (marks : List Mark) : ids (mark :: marks) = mark.id :: ids marks :=
  rfl

@[simp]
theorem ids_append (left right : List Mark) : ids (left ++ right) = ids left ++ ids right :=
  List.map_append

end Mark

/-- A computation that starts after marks have been made and kept. The marks of what it returns have
numbers that were kept or that it has drawn itself, each once. -/
def Draws {α : Type} (file : Nat) (kept : List Mark) (computation : Numbered α)
    (marks : α → List Mark) : Prop :=
  ∀ first next, Drawn file first next (Mark.ids kept) →
    Drawn file first (computation.run next).2 (Mark.ids (marks (computation.run next).1))

namespace Draws

variable {α β : Type} {file : Nat} {kept : List Mark}

theorem fresh (file : Nat) : Draws file [] (fresh file) fun id => [⟨id, .construct⟩] := by
  intro first next drawn
  have first_le := drawn.le
  refine ⟨Nat.le_succ_of_le first_le, List.nodup_singleton _, fun id member => ?_⟩
  cases List.mem_singleton.mp member
  exact ⟨rfl, first_le, Nat.lt_succ_self next⟩

theorem pure {marks : α → List Mark} {result : α}
    (counts : ∀ id, (Mark.ids (marks result)).count id ≤ (Mark.ids kept).count id) :
    Draws file kept (pure result) marks :=
  fun _ _ drawn => drawn.of_count_le counts

theorem bind {computation : Numbered α} {next : α → Numbered β} {middle : α → List Mark}
    {marks : β → List Mark} (draws : Draws file [] computation middle)
    (continues : ∀ result, Draws file (kept ++ middle result) (next result) marks) :
    Draws file kept (computation >>= next) marks := by
  intro first start drawn
  have own := draws start start (.nil file start)
  refine continues _ first _ ?_
  rw [Mark.ids_append]
  exact drawn.append own

/-- What was kept may be dropped. -/
theorem forget {computation : Numbered α} {marks : α → List Mark}
    (draws : Draws file [] computation marks) : Draws file kept computation marks := by
  intro first start drawn
  have own := draws start start (.nil file start)
  exact (drawn.append own).of_count_le fun id => by simp

theorem mapM_option {found : Option β} {action : β → Numbered α} {marks : α → List Mark}
    (each : ∀ item, found = some item → Draws file [] (action item) marks) :
    Draws file [] (found.mapM action) fun result => result.toList.flatMap marks := by
  cases found with
  | none => exact .pure (by simp)
  | some item => exact (each item rfl).bind fun result => .pure (by simp)

theorem mapM {items : List β} {action : β → Numbered α} {marks : α → List Mark}
    (each : ∀ item ∈ items, Draws file [] (action item) marks) :
    Draws file [] (items.mapM action) fun results => results.flatMap marks := by
  induction items with
  | nil => exact .pure (by simp)
  | cons item items ih =>
      rw [List.mapM_cons]
      refine (each item List.mem_cons_self).bind fun result => ?_
      refine (ih fun other member => each other (List.mem_cons_of_mem item member)).bind ?_
      exact fun results => .pure (by simp)

end Draws

theorem stmtMarks_flatten (groups : List (List Stmt)) :
    stmtMarks groups.flatten = groups.flatMap stmtMarks := by
  rw [stmtMarks_eq, flatMap_flatten]
  simp only [← stmtMarks_eq]

namespace ValueSpec

/-- The marks of a declaration of variables or constants. -/
def marks (spec : ValueSpec) : List Mark :=
  ⟨spec.id, .construct⟩ :: (spec.names.map Ident.mark ++ exprMarks spec.values)

end ValueSpec

/-! ## Readings -/

namespace Reading

/-- Whatever a node is read as, the numbers in it are drawn for it. -/
structure Numbers (file : Nat) (reading : Reading) : Prop where
  type : Draws file [] reading.type fun _ => []
  expr : Draws file [] reading.expr Expr.marks
  stmts : Draws file [] reading.stmts stmtMarks
  specs : Draws file [] reading.specs fun specs => specs.flatMap ValueSpec.marks

variable {file : Nat} {label : Label} {children : List Reading}

theorem ident_draws (node : Reading) :
    Draws file [] (node.ident file) fun ident => [ident.mark] :=
  (Draws.fresh file).bind fun _ => .pure (by simp [Ident.mark])

theorem names_draws (nodes : List Reading) :
    Draws file [] (nodes.mapM (ident file)) fun names => names.map Ident.mark := by
  have drawn := Draws.mapM fun node (_ : node ∈ nodes) => @ident_draws file node
  simpa only [← List.map_eq_flatMap] using drawn

theorem declaredName_draws :
    Draws file [] (declaredName file label children) fun ident => [ident.mark] := by
  unfold declaredName
  split
  · exact ident_draws _
  · exact (Draws.fresh file).bind fun _ => .pure (by simp [Ident.mark])

/-! ### Signatures -/

theorem declaredType_draws (numbered : ∀ child ∈ children, child.All (Numbers file)) :
    Draws file [] (declaredType children) fun _ => [] := by
  unfold declaredType
  split
  · rename_i node found
    exact (numbered node (mem_of_under? found)).own.type
  · exact .pure (by simp)

theorem params_draws {list : Reading} (numbered : list.All (Numbers file)) :
    Draws file [] (list.params file) Param.marks := by
  refine Draws.mapM fun entry member => ?_
  obtain ⟨node, node_mem, entry_eq⟩ := List.mem_filterMap.mp member
  obtain ⟨variadic, -, rfl⟩ := Option.map_eq_some_iff.mp entry_eq
  have parts := (numbered.child node (mem_of_mem_named node_mem)).child
  refine (names_draws _).bind fun names => ?_
  exact (declaredType_draws parts).bind fun type => .pure (by simp)

theorem result_draws {node : Reading} (numbered : node.All (Numbers file)) :
    Draws file [] (node.result file) fun _ => [] := by
  unfold result
  split
  · exact (params_draws numbered).bind fun params => .pure (by simp)
  · exact numbered.own.type.bind fun type => .pure (by simp)

theorem receiver_draws {list : Reading} (numbered : list.All (Numbers file)) :
    Draws file [] (list.receiver file) fun receiver =>
      (receiver.bind Receiver.name).toList.map Ident.mark := by
  unfold receiver
  split
  · exact .pure (by simp)
  · rename_i node found
    have parts := (numbered.child node (mem_of_mem_named (List.mem_of_find?_eq_some found))).child
    refine (Draws.mapM_option fun name _ => ident_draws name).bind fun name => ?_
    refine (declaredType_draws parts).bind fun type => .pure ?_
    simp [← List.map_eq_flatMap]

section Children

variable (numbered : ∀ child ∈ children, child.All (Numbers file)) {nodes : List Reading}
  {node : Reading}
include numbered

theorem paramsOf_draws : Draws file [] (paramsOf file children) Param.marks := by
  unfold paramsOf
  split
  · rename_i list found
    exact params_draws (numbered list (mem_of_under? found))
  · exact .pure (by simp [Param.marks])

theorem resultOf_draws : Draws file [] (resultOf file children) fun _ => [] := by
  unfold resultOf
  split
  · rename_i node found
    exact result_draws (numbered node (mem_of_under? found))
  · exact .pure (by simp)

theorem receiverOf_draws :
    Draws file [] (receiverOf file children) fun receiver =>
      (receiver.bind Receiver.name).toList.map Ident.mark := by
  unfold receiverOf
  split
  · rename_i list found
    exact receiver_draws (numbered list (mem_of_under? found))
  · exact .pure (by simp)

theorem typeOf_draws : Draws file [] (typeOf file label children) fun _ => [] := by
  have nothing (type : TypeExpr) : Draws file [] (pure type) fun _ => [] := .pure (by simp)
  have first (node : Reading) (found : (named children).head? = some node) :=
    (numbered node (mem_of_head? found)).own.type
  unfold typeOf
  split
  · exact nothing _
  · exact nothing _
  · exact nothing _
  · split
    · exact (first _ ‹_›).bind fun type => nothing _
    · exact nothing _
  · exact (resultOf_draws numbered).bind fun result => nothing _
  · exact declaredType_draws numbered
  · split
    · exact first _ ‹_›
    · exact nothing _
  · exact nothing _

/-! ### Expressions -/

theorem exprs_draws (sub : nodes ⊆ children) : Draws file [] (exprs nodes) exprMarks := by
  have drawn := Draws.mapM fun node member => (numbered node (sub member)).own.expr
  simpa only [exprs, ← exprMarks_eq] using drawn

theorem named_draws (member : node ∈ children) :
    Draws file [] (exprs (named node.children)) exprMarks :=
  exprs_draws (numbered node member).child fun _ => mem_of_mem_named

theorem exprList_draws (member : node ∈ children) : Draws file [] node.exprList exprMarks := by
  unfold exprList
  split
  · exact named_draws numbered member
  · exact (numbered node member).own.expr.bind fun expr => .pure (by simp [exprMarks])

theorem exprsUnder_draws (field : String) :
    Draws file [] (exprsUnder field children) exprMarks := by
  unfold exprsUnder
  split
  · rename_i node found
    exact exprList_draws numbered (mem_of_under? found)
  · exact .pure (by simp [exprMarks])

theorem otherOf_draws : Draws file [] (otherOf label children) Expr.marks := by
  refine (exprs_draws numbered fun _ => mem_of_mem_named).bind fun parts => ?_
  exact .pure (by simp [Expr.marks])

theorem selectorOf_draws : Draws file [] (selectorOf file label children) Expr.marks := by
  refine (Draws.fresh file).bind fun id => ?_
  split
  · rename_i operand field operand_eq field_eq
    refine (numbered operand (mem_of_under? operand_eq)).own.expr.bind fun base => ?_
    refine (ident_draws field).bind fun member => .pure fun id => ?_
    simp only [Expr.marks, Ident.mark, Mark.ids_append, Mark.ids_cons, Mark.ids_nil,
      List.count_append, List.count_cons, List.count_nil]
    omega
  · exact (otherOf_draws numbered).forget

theorem callOf_draws : Draws file [] (callOf file label children) Expr.marks := by
  refine (Draws.fresh file).bind fun id => ?_
  split
  · rename_i function function_eq
    refine (numbered function (mem_of_under? function_eq)).own.expr.bind fun callee => ?_
    dsimp only
    split
    · refine (named_draws numbered (mem_of_under? ‹_›)).bind fun args => ?_
      exact .pure (by simp [Expr.marks])
    · rw [pure_bind]
      exact .pure (by simp [Expr.marks, exprMarks])
  · exact (otherOf_draws numbered).forget

theorem body_draws (sub : nodes ⊆ children) : Draws file [] (body nodes) stmtMarks := by
  refine (Draws.mapM fun node member => (numbered node (sub member)).own.stmts).bind ?_
  exact fun groups => .pure (by simp [stmtMarks_flatten])

theorem closureOf_draws : Draws file [] (closureOf file label children) Expr.marks := by
  refine (Draws.fresh file).bind fun id => ?_
  refine (paramsOf_draws numbered).bind fun params => ?_
  refine (resultOf_draws numbered).bind fun result => ?_
  split
  · rename_i block block_eq
    have parts := (numbered block (mem_of_under? block_eq)).child
    refine (body_draws parts fun _ => mem_of_mem_named).bind fun stmts => .pure ?_
    simp [Expr.marks]
  · exact .pure (by simp [Expr.marks, stmtMarks])

theorem compositeOf_draws : Draws file [] (compositeOf label children) Expr.marks := by
  refine (declaredType_draws numbered).bind fun type => ?_
  dsimp only
  split
  · refine (named_draws numbered (mem_of_under? ‹_›)).bind fun elements => ?_
    exact .pure (by simp [Expr.marks])
  · rw [pure_bind]
    exact .pure (by simp [Expr.marks, exprMarks])

theorem soleOf_draws {chosen : Option Reading}
    (sub : ∀ child, chosen = some child → child ∈ children) :
    Draws file [] (soleOf label children chosen) Expr.marks := by
  unfold soleOf
  split
  · exact (numbered _ (sub _ rfl)).own.expr
  · exact otherOf_draws numbered

/-- However a node is read as an expression, its numbers are drawn for it. -/
theorem exprOf_draws : Draws file [] (exprOf file label children) Expr.marks := by
  unfold exprOf
  split
  · exact (Draws.fresh file).bind fun id => .pure (by simp [Expr.marks, Ident.mark])
  · exact selectorOf_draws numbered
  · exact callOf_draws numbered
  · exact closureOf_draws numbered
  · unfold parenOf
    split
    · refine (numbered _ (mem_of_head? ‹_›)).own.expr.bind fun inner => ?_
      exact .pure (by simp [Expr.marks])
    · exact otherOf_draws numbered
  · unfold unaryOf
    split
    · refine (numbered _ (mem_of_under? ‹_›)).own.expr.bind fun operand => ?_
      exact .pure (by simp [Expr.marks])
    · exact otherOf_draws numbered
  · exact compositeOf_draws numbered
  · exact soleOf_draws numbered fun child found => mem_of_head? found
  · exact soleOf_draws numbered fun child found =>
      mem_of_mem_named (List.mem_of_getLast? found)
  · exact otherOf_draws numbered

/-! ### Statements -/

theorem spec_draws (member : node ∈ children) : Draws file [] (node.spec file) ValueSpec.marks := by
  have parts := (numbered node member).child
  refine (Draws.fresh file).bind fun id => ?_
  refine (names_draws _).bind fun names => ?_
  refine (Draws.mapM_option fun type found => (parts type (mem_of_under? found)).own.type).bind ?_
  intro type
  refine (exprsUnder_draws parts "value").bind fun values => .pure ?_
  cases type <;> simp [ValueSpec.marks]

theorem specsOf_draws :
    Draws file [] (specsOf file children) fun specs => specs.flatMap ValueSpec.marks := by
  have each (node : Reading) (node_mem : node ∈ children) :
      Draws file [] (return [← node.spec file]) fun specs => specs.flatMap ValueSpec.marks :=
    (spec_draws numbered node_mem).bind fun spec => .pure (by simp)
  refine Draws.bind (Draws.mapM fun node member =>
    (?_ : Draws file [] _ fun specs : List ValueSpec => specs.flatMap ValueSpec.marks)) ?_
  · have node_mem := mem_of_mem_named member
    split
    · exact each node node_mem
    · exact each node node_mem
    · exact (numbered node node_mem).own.specs
    · exact (numbered node node_mem).own.specs
    · exact .pure (by simp)
  · exact fun groups => .pure (by simp [flatMap_flatten])

theorem assignmentOf_draws (define : Bool) :
    Draws file [] (assignmentOf file label children define) Stmt.marks := by
  refine (Draws.fresh file).bind fun id => ?_
  refine (exprsUnder_draws numbered "left").bind fun targets => ?_
  exact (exprsUnder_draws numbered "right").bind fun values => .pure (by simp [Stmt.marks])

theorem compoundOf_draws : Draws file [] (compoundOf label children) Stmt.marks := by
  refine (body_draws numbered fun _ => mem_of_mem_named).bind fun parts => ?_
  exact .pure (by simp [Stmt.marks])

/-- The value of a type switch draws before the name bound to it, and comes after it. -/
theorem guardOf_draws : Draws file [] (guardOf file children) stmtMarks := by
  refine (Draws.mapM_option fun value found =>
    (numbered value (mem_of_under? found)).own.expr).bind fun value => ?_
  split
  · rename_i name value name_eq
    refine (Draws.fresh file).bind fun id => ?_
    refine (exprList_draws numbered (mem_of_under? name_eq)).bind fun targets => .pure ?_
    intro other
    simp only [stmtMarks, Stmt.marks, exprMarks, Mark.ids_append, Mark.ids_cons, Mark.ids_nil,
      List.count_append, List.count_cons, List.count_nil, Option.toList_some,
      List.flatMap_singleton]
    omega
  · exact .pure (by simp [stmtMarks, Stmt.marks])
  · exact .pure (by simp [stmtMarks])

theorem typeSwitchOf_draws : Draws file [] (typeSwitchOf file label children) Stmt.marks := by
  have rest (initial : List Stmt) : Draws file (stmtMarks initial) (do
      let guard ← guardOf file children
      let cases ← ((named children).filter fun node =>
        node.kind == "type_case" || node.kind == "default_case").mapM
          fun node => compoundOf node.label node.children
      return Stmt.compound label.kind (initial ++ guard ++ cases) label.span) Stmt.marks := by
    refine (guardOf_draws numbered).bind fun guard => ?_
    refine Draws.bind (Draws.mapM fun node member => (?_ : Draws file [] _ Stmt.marks))
      fun cases => .pure ?_
    · have node_mem := mem_of_mem_named (List.mem_filter.mp member).1
      exact compoundOf_draws (numbered node node_mem).child
    · simp [Stmt.marks, stmtMarks_eq]
  unfold typeSwitchOf
  split
  · exact (numbered _ (mem_of_under? ‹_›)).own.stmts.bind fun initial => rest initial
  · exact rest []

theorem launchedOf_draws {wrap : NodeId → Expr → List Expr → Span → Span → Stmt}
    (marks_eq : ∀ id callee args callSpan span, (wrap id callee args callSpan span).marks =
      (Expr.call id callee args callSpan).marks) :
    Draws file [] (launchedOf label children wrap) stmtMarks := by
  unfold launchedOf
  split
  · refine (numbered _ (mem_of_head? ‹_›)).own.expr.bind fun expr => .pure ?_
    cases expr <;> simp [launched, stmtMarks, Stmt.marks, marks_eq]
  · exact .pure (by simp [stmtMarks])

theorem clauseOf_draws : Draws file [] (clauseOf file label children) stmtMarks := by
  unfold clauseOf
  split
  · exact (assignmentOf_draws numbered _).bind fun stmt => .pure (by simp [stmtMarks])
  · refine (numbered _ (mem_of_under? ‹_›)).own.expr.bind fun expr => .pure ?_
    simp [stmtMarks, Stmt.marks]
  · exact .pure (by simp [stmtMarks])

/-- However a node is read as statements, their numbers are drawn for them. -/
theorem stmtsOf_draws : Draws file [] (stmtsOf file label children) stmtMarks := by
  have none : Draws file [] (pure []) stmtMarks := .pure (by simp [stmtMarks])
  have one {computation : Numbered Stmt} (draws : Draws file [] computation Stmt.marks) :
      Draws file [] (return [← computation]) stmtMarks :=
    draws.bind fun stmt => .pure (by simp [stmtMarks])
  have lone {computation : Numbered Expr} (draws : Draws file [] computation Expr.marks) :
      Draws file [] (return [.expr (← computation)]) stmtMarks :=
    draws.bind fun expr => .pure (by simp [stmtMarks, Stmt.marks])
  unfold stmtsOf
  split
  · exact body_draws numbered fun _ => mem_of_mem_named
  · exact body_draws numbered fun _ member => mem_of_mem_named (List.mem_filter.mp member).1
  · split
    · exact lone (numbered _ (mem_of_head? ‹_›)).own.expr
    · exact none
  · exact one (assignmentOf_draws numbered _)
  · exact clauseOf_draws numbered
  · exact launchedOf_draws numbered fun _ _ _ _ _ => by simp [Stmt.marks, Expr.marks]
  · exact launchedOf_draws numbered fun _ _ _ _ _ => by simp [Stmt.marks, Expr.marks]
  · dsimp only
    split
    · refine (exprList_draws numbered (mem_of_head? ‹_›)).bind fun results => .pure ?_
      simp [stmtMarks, Stmt.marks]
    · rw [pure_bind]
      exact .pure (by simp [stmtMarks, Stmt.marks, exprMarks])
  · refine (specsOf_draws numbered).bind fun specs => .pure ?_
    simp only [stmtMarks_eq, List.flatMap_map, Stmt.marks, List.nil_append]
    exact fun id => Nat.le_refl _
  · refine (body_draws numbered fun _ => mem_of_mem_named).bind fun stmts => .pure ?_
    simp [stmtMarks, Stmt.marks]
  · exact one (typeSwitchOf_draws numbered)
  · exact none
  · exact one (compoundOf_draws numbered)
  · exact lone (exprOf_draws numbered)

theorem ofChildren_numbers : Numbers file (ofChildren file label children) where
  type := typeOf_draws numbered
  expr := exprOf_draws numbered
  stmts := stmtsOf_draws numbered
  specs := specsOf_draws numbered

end Children

/-! ### Declarations -/

section Declarations

variable {node : Reading} (numbered : node.All (Numbers file))
include numbered

theorem funcDecl_draws : Draws file [] (node.funcDecl file) FuncDecl.marks := by
  have parts := numbered.child
  refine (Draws.fresh file).bind fun id => ?_
  refine declaredName_draws.bind fun name => ?_
  refine (receiverOf_draws parts).bind fun receiver => ?_
  refine (paramsOf_draws parts).bind fun params => ?_
  refine (resultOf_draws parts).bind fun result => ?_
  refine Draws.bind (Draws.mapM_option fun block found =>
    (?_ : Draws file [] _ fun block : Block => stmtMarks block.body)) fun block => .pure ?_
  · refine (body_draws (parts block (mem_of_under? found)).child fun _ => mem_of_mem_named).bind ?_
    exact fun stmts => .pure (by simp)
  · cases block <;> simp [FuncDecl.marks, FuncDecl.innerMarks, Ident.mark]

theorem fieldDecl_draws :
    Draws file [] (node.fieldDecl file) fun field => field.names.map Ident.mark := by
  refine (names_draws _).bind fun names => ?_
  exact (declaredType_draws numbered.child).bind fun type => .pure (by simp)

theorem fieldDecls_draws :
    Draws file [] (node.fieldDecls file) fun fields =>
      (fields.flatMap FieldDecl.names).map Ident.mark := by
  unfold fieldDecls
  split
  · rename_i list found
    have list_mem := List.mem_of_find?_eq_some found
    have drawn : Draws file [] (((named list.children).filter fun node =>
        node.kind == "field_declaration").mapM (fieldDecl file)) fun fields =>
          fields.flatMap fun field => field.names.map Ident.mark := by
      refine Draws.mapM fun field member => fieldDecl_draws ?_
      exact (numbered.child list list_mem).child field
        (mem_of_mem_named (List.mem_filter.mp member).1)
    simpa only [List.map_flatMap] using drawn
  · exact .pure (by simp)

theorem typeSpec_draws :
    Draws file [] (node.typeSpec file) fun spec =>
      spec.name.mark :: spec.body.names.map Ident.mark := by
  have body_drawn : Draws file [] (typeBody file node.children) fun body =>
      body.names.map Ident.mark := by
    unfold typeBody
    split
    · rename_i type found
      have all := numbered.child type (mem_of_under? found)
      split
      · exact (fieldDecls_draws all).bind fun fields => .pure (by simp [TypeBody.names])
      · exact (names_draws _).bind fun methods => .pure (by simp [TypeBody.names])
      · exact all.own.type.bind fun type => .pure (by simp [TypeBody.names])
    · exact .pure (by simp [TypeBody.names])
  refine declaredName_draws.bind fun name => ?_
  exact body_drawn.bind fun body => .pure (by simp)

theorem decls_draws :
    Draws file [] (node.decls file) fun decls => decls.flatMap Decl.marks := by
  have function : Draws file [] (return [.func (← node.funcDecl file)]) fun decls =>
      decls.flatMap Decl.marks :=
    (funcDecl_draws numbered).bind fun decl => .pure (by simp [Decl.marks])
  have var : Draws file [] (return (← node.specs).map Decl.var) fun decls =>
      decls.flatMap Decl.marks := by
    refine numbered.own.specs.bind fun specs => .pure ?_
    simp only [List.flatMap_map, List.nil_append]
    exact fun id => Nat.le_refl _
  unfold decls
  split
  · exact function
  · exact function
  · exact var
  · exact var
  · refine Draws.mapM fun spec member => ?_
    have spec_mem := mem_of_mem_named (List.mem_filter.mp member).1
    refine (typeSpec_draws (numbered.child spec spec_mem)).bind fun spec => ?_
    exact .pure (by simp [Decl.marks])
  · exact .pure (by simp)

theorem file_draws (path : String) :
    Draws file [] (node.file file path) fun file => file.decls.flatMap Decl.marks := by
  refine Draws.bind (Draws.mapM fun child member =>
    decls_draws (numbered.child child (mem_of_mem_named member))) fun groups => ?_
  exact .pure (by simp [flatMap_flatten])

end Declarations

end Reading

namespace Tree

/-- Every node of every tree draws the numbers of what it is read as. -/
theorem numbers_reading (file : Nat) (tree : Tree) :
    (tree.reading file).All (Reading.Numbers file) := by
  induction tree with
  | node label children ih =>
      rw [reading_node]
      have numbered : ∀ child ∈ children.map (Tree.reading file),
          child.All (Reading.Numbers file) := by
        intro child member
        obtain ⟨tree, tree_mem, rfl⟩ := List.mem_map.mp member
        exact ih tree tree_mem
      exact .node (Reading.ofChildren_numbers numbered) numbered

/-- How many numbers are drawn while a file is read. -/
def drawn (number : Nat) (path : String) (tree : Tree) : Nat :=
  (((tree.reading number).file number path).run 0).2

theorem drawn_toFile (number : Nat) (path : String) (tree : Tree) :
    Drawn number 0 (tree.drawn number path)
      (Mark.ids ((tree.toFile number path).decls.flatMap Decl.marks)) :=
  Reading.file_draws (tree.numbers_reading number) path 0 0 (.nil number 0)

end Tree

namespace Program

/-- The numbers of what a file holds are its own, and below the counter from which they were
drawn. -/
theorem drawn_of_mem_ids {number : Nat} {path : String} {tree : Tree} {id : NodeId}
    (member : id ∈ Mark.ids ((tree.toFile number path).decls.flatMap Decl.marks)) :
    id.file = number ∧ id.index < tree.drawn number path := by
  obtain ⟨file_eq, -, below⟩ := (tree.drawn_toFile number path).range id member
  exact ⟨file_eq, below⟩

theorem nodup_ids_ofTrees (trees : List (String × Tree)) : (ofTrees trees).UniqueIds := by
  have numbers : trees.zipIdx.Pairwise fun left right => left.2 ≠ right.2 := by
    rw [← List.pairwise_map, List.zipIdx_map_snd]
    exact List.nodup_range'
  rw [UniqueIds, marks, ofTrees, List.flatMap_map, List.map_flatMap, List.nodup_flatMap]
  refine ⟨fun entry _ => (entry.1.2.drawn_toFile entry.2 entry.1.1).nodup, ?_⟩
  refine numbers.imp fun {left right} apart id left_mem right_mem => apart ?_
  exact (drawn_of_mem_ids left_mem).1.symm.trans (drawn_of_mem_ids right_mem).1

/-- The numbers of a program belong to its files. -/
theorem file_lt_of_mem_marks {trees : List (String × Tree)} {mark : Mark}
    (member : mark ∈ (ofTrees trees).marks) : mark.id.file < (ofTrees trees).files.length := by
  rw [marks, ofTrees, List.flatMap_map, List.mem_flatMap] at member
  obtain ⟨entry, listed, member⟩ := member
  rw [(drawn_of_mem_ids (List.mem_map_of_mem member)).1, ofTrees, List.length_map,
    List.length_zipIdx]
  exact List.snd_lt_of_mem_zipIdx listed

/-- No two constructs of a program have the same number, whatever trees it is read from. The numbers
of each file are below the counter from which they were drawn. -/
theorem uniqueIds_ofTrees (trees : List (String × Tree)) :
    (ofTrees trees).UniqueIds ∧
    ∀ (number : Nat) (path : String) (tree : Tree), ∀ decl ∈ (tree.toFile number path).decls,
      ∀ mark ∈ decl.marks, mark.id.file = number ∧ mark.id.index < tree.drawn number path := by
  refine ⟨nodup_ids_ofTrees trees, fun number path tree decl decl_mem mark mark_mem => ?_⟩
  exact drawn_of_mem_ids (List.mem_map_of_mem (List.mem_flatMap.mpr ⟨decl, decl_mem, mark_mem⟩))

/-- The name bound by a type switch stands before its value and is numbered after it, and a call
without a function uses up a number. -/
theorem uniqueIds_branching_malformed :
    (ofTrees [("a.go", Sample.branching), ("b.go", Sample.malformed)]).marks.map Mark.id =
      [⟨0, 0⟩, ⟨0, 1⟩, ⟨0, 2⟩, ⟨0, 3⟩, ⟨0, 4⟩, ⟨0, 5⟩, ⟨0, 8⟩, ⟨0, 9⟩, ⟨0, 6⟩, ⟨0, 7⟩, ⟨0, 10⟩,
        ⟨0, 11⟩, ⟨0, 12⟩, ⟨1, 0⟩, ⟨1, 1⟩, ⟨1, 3⟩, ⟨1, 4⟩] ∧
    (ofTrees [("a.go", Sample.branching), ("b.go", Sample.malformed)]).UniqueIds ∧
    Sample.malformed.drawn 1 "b.go" = 5 ∧
    ∀ decl ∈ (Sample.malformed.toFile 1 "b.go").decls, ∀ mark ∈ decl.marks,
      mark.id.index < Sample.malformed.drawn 1 "b.go" := by
  have unique := uniqueIds_ofTrees [("a.go", Sample.branching), ("b.go", Sample.malformed)]
  refine ⟨by decide +kernel, unique.1, by decide +kernel, fun decl decl_mem mark mark_mem => ?_⟩
  exact (unique.2 1 "b.go" Sample.malformed decl decl_mem mark mark_mem).2

end Program

end Relock
