import Relock.Proofs.Program.Descent
import Relock.Proofs.Reading.Basic
import Relock.Proofs.Sample

/-!
# Offsets of what is read

A parser lays out the nodes of a tree in the source: a node covers its children, and children follow
one another without overlap, in the order of the grammar. Reading drops nodes, leaves out levels and
takes parts out of order, but the constructs it makes keep their offsets. This file shows that their
streams then go forward in the source, and that offsets tell what stands below a closure literal, a
deferred call or a return.
-/

namespace Relock

/-! ## Trees as parsers lay them out -/

namespace Label

/-- The node is a case of a switch. -/
def isCase (label : Label) : Bool := label.kind == "type_case" || label.kind == "default_case"

/-- The grammar puts the node after its siblings under a field. -/
def follows (label : Label) : (field : String) → Bool
  | "left" => label.field == "right"
  | "function" => label.field == "arguments"
  | "initializer" => label.field == "alias" || label.field == "value" || label.isCase
  | "alias" => label.field == "value" || label.isCase
  | "value" => label.isCase
  | _ => false

/-- Nodes of these kinds are never empty. -/
def isSolid (label : Label) : Bool :=
  ["call_expression", "func_literal", "defer_statement", "return_statement"].contains label.kind

/-- The children of a node are laid out within it. -/
structure LaysOut (label : Label) (children : List Label) : Prop where
  covers : ∀ child ∈ children, label.span.contains child.span = true
  apart : children.Pairwise fun left right => left.span.endByte ≤ right.span.startByte
  order : ∀ left ∈ children, ∀ right ∈ children, right.follows left.field = true →
    left.span.endByte ≤ right.span.startByte
  solid : label.isSolid = true → label.span.startByte < label.span.endByte

instance (label : Label) (children : List Label) : Decidable (label.LaysOut children) :=
  decidable_of_iff
    ((∀ child ∈ children, label.span.contains child.span = true) ∧
      (children.Pairwise fun left right => left.span.endByte ≤ right.span.startByte) ∧
      (∀ left ∈ children, ∀ right ∈ children, right.follows left.field = true →
        left.span.endByte ≤ right.span.startByte) ∧
      (label.isSolid = true → label.span.startByte < label.span.endByte))
    ⟨fun ⟨covers, apart, order, solid⟩ => ⟨covers, apart, order, solid⟩,
      fun ⟨covers, apart, order, solid⟩ => ⟨covers, apart, order, solid⟩⟩

end Label

namespace Tree

mutual

/-- Every node of a tree lays out its children. -/
def isLaidOut : Tree → Bool
  | node label children => decide (label.LaysOut (children.map Tree.label)) && areLaidOut children

/-- Every node of every tree lays out its children. -/
def areLaidOut : List Tree → Bool
  | [] => true
  | tree :: trees => isLaidOut tree && areLaidOut trees

end

theorem areLaidOut_iff (trees : List Tree) :
    areLaidOut trees = true ↔ ∀ tree ∈ trees, tree.isLaidOut = true := by
  induction trees with
  | nil => simp [areLaidOut]
  | cons tree trees ih => simp [areLaidOut, ih]

theorem isLaidOut_node (label : Label) (children : List Tree) :
    (node label children).isLaidOut = true ↔
      label.LaysOut (children.map Tree.label) ∧ ∀ child ∈ children, child.isLaidOut = true := by
  rw [isLaidOut, Bool.and_eq_true, decide_eq_true_eq, areLaidOut_iff]

end Tree

/-! ## Kinds and forms -/

theorem mem_of_lookup {α : Type} {key : String} {value : α} {table : List (String × α)}
    (found : table.lookup key = some value) : (key, value) ∈ table := by
  obtain ⟨before, after, rfl, -⟩ := List.lookup_eq_some_iff.mp found
  exact List.mem_append_right before List.mem_cons_self

theorem ExprForm.mem_table {kind : String} {form : ExprForm} (is_form : ofKind kind = form)
    (special : form ≠ other) : (kind, form) ∈ table := by
  unfold ofKind at is_form
  cases found : table.lookup kind with
  | none =>
      rw [found] at is_form
      exact absurd is_form.symm special
  | some value =>
      rw [found] at is_form
      exact mem_of_lookup (is_form ▸ found)

theorem StmtForm.mem_table {kind : String} {form : StmtForm} (is_form : ofKind kind = form)
    (special : form ≠ compound) (no_bare : form ≠ bare) : (kind, form) ∈ table := by
  unfold ofKind at is_form
  cases found : table.lookup kind with
  | none =>
      rw [found, Option.getD_none] at is_form
      split at is_form
      · exact absurd is_form.symm special
      · exact absurd is_form.symm no_bare
  | some value =>
      rw [found] at is_form
      exact mem_of_lookup (is_form ▸ found)

/-! ## Readings -/

/-- Something holds of every result of a computation, whatever numbers it draws. -/
def Yields {α : Type} (computation : Numbered α) (holds : α → Prop) : Prop :=
  ∀ next, holds (computation.run next).1

namespace Yields

variable {α β : Type} {computation : Numbered α} {holds weaker : α → Prop}

theorem any (computation : Numbered α) : Yields computation fun _ => True := fun _ => trivial

theorem pure {result : α} (holds_result : holds result) : Yields (pure result) holds :=
  fun _ => holds_result

theorem bind {next : α → Numbered β} {goal : β → Prop} (first : Yields computation holds)
    (continues : ∀ result, holds result → Yields (next result) goal) :
    Yields (computation >>= next) goal :=
  fun start => continues _ (first start) _

theorem mono (yields : Yields computation holds) (weaken : ∀ result, holds result → weaker result) :
    Yields computation weaker :=
  fun start => weaken _ (yields start)

theorem mapM_option {found : Option β} {action : β → Numbered α}
    (each : ∀ item, found = some item → Yields (action item) holds) :
    Yields (found.mapM action) fun result => ∀ value ∈ result, holds value := by
  cases found with
  | none => exact .pure (by simp)
  | some item => exact (each item rfl).bind fun result holds_result => .pure (by simpa)

theorem mapM_all {items : List β} {action : β → Numbered α}
    (each : ∀ item ∈ items, Yields (action item) holds) :
    Yields (items.mapM action) fun results => ∀ result ∈ results, holds result := by
  induction items with
  | nil => exact .pure (by simp)
  | cons item items ih =>
      rw [List.forall_mem_cons] at each
      rw [List.mapM_cons]
      refine each.1.bind fun result holds_result => ?_
      refine (ih each.2).bind fun results all => .pure ?_
      exact List.forall_mem_cons.mpr ⟨holds_result, all⟩

end Yields

namespace Reading

/-- A node lays out its children, and whatever it is read as fits into it. -/
structure Laid (reading : Reading) : Prop where
  layout : reading.label.LaysOut (reading.children.map Reading.label)
  expr : Yields reading.expr fun expr => Entry.Fits reading.span expr.entries
  stmts : Yields reading.stmts fun stmts => Entry.Fits reading.span (stmtEntries stmts)
  specs : Yields reading.specs fun specs =>
    Entry.Fits reading.span (specs.flatMap fun spec => exprEntries spec.values)

/-- Entries that fit into a range, each within one of the nodes. -/
structure Fills (span : Span) (nodes : List Reading) (entries : List Entry) : Prop
    extends Entry.Fits span entries where
  origin : ∀ entry ∈ entries, ∃ node ∈ nodes, node.span.contains entry.node.span = true

namespace Fills

variable {span : Span} {before after nodes : List Reading} {left right entries : List Entry}

theorem nil (span : Span) (nodes : List Reading) : Fills span nodes [] :=
  ⟨.nil span, by simp⟩

theorem of_fits {node : Reading} (fits : Entry.Fits node.span entries)
    (covers : span.contains node.span = true) : Fills span [node] entries :=
  ⟨fits.mono covers, fun entry member => ⟨node, by simp, fits.within entry member⟩⟩

theorem append (first : Fills span before left) (second : Fills span after right)
    (apart : ∀ node ∈ before, ∀ later ∈ after, node.span.endByte ≤ later.span.startByte) :
    Fills span (before ++ after) (left ++ right) where
  toFits := by
    refine first.toFits.append second.toFits fun entry entry_mem later later_mem => ?_
    obtain ⟨node, node_mem, node_covers⟩ := first.origin entry entry_mem
    obtain ⟨other, other_mem, other_covers⟩ := second.origin later later_mem
    have entry_end := (Span.contains_iff.mp node_covers).2
    have later_start := (Span.contains_iff.mp other_covers).1
    have order := apart node node_mem other other_mem
    omega
  origin entry member := by
    rcases List.mem_append.mp member with member | member
    · obtain ⟨node, node_mem, covers⟩ := first.origin entry member
      exact ⟨node, List.mem_append_left after node_mem, covers⟩
    · obtain ⟨node, node_mem, covers⟩ := second.origin entry member
      exact ⟨node, List.mem_append_right before node_mem, covers⟩

end Fills

/-- What is read from nodes that follow one another follows one another. -/
theorem row_fills {α : Type} {span : Span} {nodes : List Reading} {action : Reading → Numbered α}
    {entries : α → List Entry} (covers : ∀ node ∈ nodes, span.contains node.span = true)
    (apart : nodes.Pairwise fun left right => left.span.endByte ≤ right.span.startByte)
    (each : ∀ node ∈ nodes,
      Yields (action node) fun result => Entry.Fits node.span (entries result)) :
    Yields (nodes.mapM action) fun results => Fills span nodes (results.flatMap entries) := by
  induction nodes with
  | nil => exact .pure (.nil span [])
  | cons node nodes ih =>
      rw [List.forall_mem_cons] at covers each
      rw [List.pairwise_cons] at apart
      rw [List.mapM_cons]
      refine each.1.bind fun result fits => ?_
      refine (ih covers.2 apart.2 each.2).bind fun results fills => .pure ?_
      rw [List.flatMap_cons]
      exact (Fills.of_fits fits covers.1).append fills (by simpa using apart.1)

variable {file : Nat} {label : Label} {children : List Reading}

section Children

variable (layout : label.LaysOut (children.map Reading.label))

include layout

theorem covers_child {child : Reading} (member : child ∈ children) :
    label.span.contains child.span = true :=
  layout.covers child.label (List.mem_map_of_mem member)

/-- Two children whose fields the grammar puts in order. -/
theorem apart_of_follows {field : String} {left right : Reading}
    (found : under? field children = some left) (right_mem : right ∈ children)
    (follows : right.label.follows field = true) : left.span.endByte ≤ right.span.startByte := by
  rw [← field_of_under? found] at follows
  exact layout.order left.label (List.mem_map_of_mem (mem_of_under? found)) right.label
    (List.mem_map_of_mem right_mem) follows

theorem children_fill {α : Type} {nodes : List Reading} {action : Reading → Numbered α}
    {entries : α → List Entry} (sub : nodes.Sublist children)
    (each : ∀ node ∈ nodes,
      Yields (action node) fun result => Entry.Fits node.span (entries result)) :
    Yields (nodes.mapM action) fun results => Fills label.span nodes (results.flatMap entries) := by
  refine row_fills (fun node member => covers_child layout (sub.subset member)) ?_ each
  exact (List.pairwise_map.mp layout.apart).sublist sub

variable (laid : ∀ child ∈ children, child.All Laid)
include laid

/-! ### Expressions -/

theorem child_fits {child : Reading} (member : child ∈ children) :
    Yields child.expr fun expr => Entry.Fits label.span expr.entries :=
  (laid child member).own.expr.mono fun _ fits => fits.mono (covers_child layout member)

theorem exprs_fit : Yields (exprs (named children)) fun exprs =>
    Entry.Fits label.span (exprEntries exprs) := by
  have fills := children_fill layout List.filter_sublist fun node member =>
    (laid node (mem_of_mem_named member)).own.expr
  refine fills.mono fun exprs fills => ?_
  rw [exprEntries_eq]
  exact fills.toFits

theorem body_fits {nodes : List Reading} (sub : nodes.Sublist children) :
    Yields (body nodes) fun stmts => Entry.Fits label.span (stmtEntries stmts) := by
  have fills := children_fill layout sub fun node member =>
    (laid node (sub.subset member)).own.stmts
  refine fills.bind fun groups fills => .pure ?_
  rw [stmtEntries_eq, flatMap_flatten]
  simpa only [← stmtEntries_eq] using fills.toFits

theorem otherOf_fits : Yields (otherOf label children) fun expr =>
    Entry.Fits label.span expr.entries :=
  (exprs_fit layout laid).bind fun _ fits => .pure fits

end Children

section Child

variable {node : Reading} (laid : node.All Laid)
include laid

theorem named_fit : Yields (exprs (named node.children)) fun exprs =>
    Entry.Fits node.span (exprEntries exprs) :=
  exprs_fit laid.own.layout laid.child

theorem exprList_fits : Yields node.exprList fun exprs =>
    Entry.Fits node.span (exprEntries exprs) := by
  unfold exprList
  split
  · exact named_fit laid
  · refine laid.own.expr.bind fun expr fits => .pure ?_
    simpa [exprEntries] using fits

theorem block_fits : Yields (body (named node.children)) fun stmts =>
    Entry.Fits node.span (stmtEntries stmts) :=
  body_fits laid.own.layout laid.child List.filter_sublist

theorem compoundOf_fits : Yields (compoundOf node.label node.children) fun stmt =>
    Entry.Fits node.span stmt.entries :=
  (block_fits laid).bind fun _ fits => .pure fits

end Child

section Forms

variable (layout : label.LaysOut (children.map Reading.label))
  (laid : ∀ child ∈ children, child.All Laid)

include layout laid

theorem exprsUnder_fill (field : String) :
    Yields (exprsUnder field children) fun exprs =>
      Fills label.span (under? field children).toList (exprEntries exprs) := by
  unfold exprsUnder
  cases found : under? field children with
  | none => exact .pure (.nil _ _)
  | some node =>
      have member := mem_of_under? found
      refine (exprList_fits (laid node member)).mono fun exprs fits => ?_
      exact .of_fits fits (covers_child layout member)

theorem callOf_fits (solid : label.span.startByte < label.span.endByte) :
    Yields (callOf file label children) fun expr => Entry.Fits label.span expr.entries := by
  have close {id : NodeId} {callee : Expr} {args : List Expr}
      (fits : Entry.Fits label.span (callee.entries ++ exprEntries args)) :
      Entry.Fits label.span (Expr.call id callee args label.span).entries :=
    Entry.Fits.above (.call ⟨id, callee, args, label.span⟩) fits solid nofun
  refine (Yields.any (fresh file)).bind fun id _ => ?_
  split
  · rename_i function function_eq
    have function_mem := mem_of_under? function_eq
    refine (laid function function_mem).own.expr.bind fun callee callee_fits => ?_
    have callee_fills := Fills.of_fits callee_fits (covers_child layout function_mem)
    dsimp only
    split
    · rename_i list list_eq
      have list_mem := mem_of_under? list_eq
      refine (named_fit (laid list list_mem)).bind fun args args_fit => .pure (close ?_)
      have args_fill := Fills.of_fits args_fit (covers_child layout list_mem)
      refine (callee_fills.append args_fill ?_).toFits
      simp only [List.mem_singleton, forall_eq]
      refine apart_of_follows layout function_eq list_mem ?_
      simp [Label.follows, field_of_under? list_eq]
    · rw [pure_bind]
      refine .pure (close ?_)
      simpa [exprEntries] using callee_fills.toFits
  · exact otherOf_fits layout laid

theorem closureOf_fits (solid : label.span.startByte < label.span.endByte) :
    Yields (closureOf file label children) fun expr => Entry.Fits label.span expr.entries := by
  have close (literal : Closure) (same : literal.span = label.span)
      (fits : Entry.Fits label.span (stmtEntries literal.body.body)) :
      Entry.Fits label.span literal.entries := by
    rw [← same] at fits solid ⊢
    exact Entry.Fits.above (.closure literal) fits solid (by rintro _ ⟨⟩; rfl)
  refine (Yields.any (fresh file)).bind fun id _ => ?_
  refine (Yields.any (paramsOf file children)).bind fun params _ => ?_
  refine (Yields.any (resultOf file children)).bind fun result _ => ?_
  split
  · rename_i block block_eq
    have block_mem := mem_of_under? block_eq
    refine (block_fits (laid block block_mem)).bind fun stmts fits => .pure ?_
    exact close ⟨id, params, result, ⟨stmts, block.span⟩, label.span⟩ rfl
      (fits.mono (covers_child layout block_mem))
  · exact .pure (close ⟨id, params, result, ⟨[], label.span⟩, label.span⟩ rfl (.nil _))

theorem compositeOf_fits :
    Yields (compositeOf label children) fun expr => Entry.Fits label.span expr.entries := by
  refine (Yields.any (declaredType children)).bind fun type _ => ?_
  dsimp only
  split
  · rename_i list list_eq
    have list_mem := mem_of_under? list_eq
    refine (named_fit (laid list list_mem)).bind fun elements fits => .pure ?_
    exact fits.mono (covers_child layout list_mem)
  · exact .pure (.nil _)

theorem soleOf_fits {chosen : Option Reading}
    (sub : ∀ child, chosen = some child → child ∈ children) :
    Yields (soleOf label children chosen) fun expr => Entry.Fits label.span expr.entries := by
  unfold soleOf
  split
  · exact child_fits layout laid (sub _ rfl)
  · exact otherOf_fits layout laid

/-- However a node is read as an expression, the expression fits into it. -/
theorem exprOf_fits :
    Yields (exprOf file label children) fun expr => Entry.Fits label.span expr.entries := by
  unfold exprOf
  split
  · exact (Yields.any (fresh file)).bind fun _ _ => .pure (.nil _)
  · refine (Yields.any (fresh file)).bind fun id _ => ?_
    split
    · rename_i operand field operand_eq field_eq
      refine (child_fits layout laid (mem_of_under? operand_eq)).bind fun base fits => ?_
      exact (Yields.any (field.ident file)).bind fun _ _ => .pure fits
    · exact otherOf_fits layout laid
  · rename_i form
    have kind_mem := ExprForm.mem_table form (by decide)
    exact callOf_fits layout laid (layout.solid (by simp_all [ExprForm.table, Label.isSolid]))
  · rename_i form
    have kind_mem := ExprForm.mem_table form (by decide)
    exact closureOf_fits layout laid (layout.solid (by simp_all [ExprForm.table, Label.isSolid]))
  · unfold parenOf
    split
    · exact (child_fits layout laid (mem_of_head? ‹_›)).bind fun _ fits => .pure fits
    · exact otherOf_fits layout laid
  · unfold unaryOf
    split
    · exact (child_fits layout laid (mem_of_under? ‹_›)).bind fun _ fits => .pure fits
    · exact otherOf_fits layout laid
  · exact compositeOf_fits layout laid
  · exact soleOf_fits layout laid fun child found => mem_of_head? found
  · exact soleOf_fits layout laid fun child found =>
      mem_of_mem_named (List.mem_of_getLast? found)
  · exact otherOf_fits layout laid

/-! ### Statements -/

theorem specsOf_fits : Yields (specsOf file children) fun specs =>
    Entry.Fits label.span (specs.flatMap fun spec => exprEntries spec.values) := by
  have each (node : Reading) (node_mem : node ∈ children) :
      Yields (return [← node.spec file]) fun specs =>
        Entry.Fits node.span (specs.flatMap fun spec => exprEntries spec.values) := by
    have node_laid := laid node node_mem
    have spec_fits : Yields (node.spec file) fun spec =>
        Entry.Fits node.span (exprEntries spec.values) := by
      refine (Yields.any (fresh file)).bind fun id _ => ?_
      refine (Yields.any _).bind fun names _ => ?_
      refine (Yields.any _).bind fun type _ => ?_
      refine (exprsUnder_fill node_laid.own.layout node_laid.child "value").bind ?_
      exact fun values fills => .pure fills.toFits
    exact spec_fits.bind fun spec fits => .pure (by simpa using fits)
  refine Yields.bind (children_fill layout List.filter_sublist fun node member =>
    (?_ : Yields _ fun specs : List ValueSpec =>
      Entry.Fits node.span (specs.flatMap fun spec => exprEntries spec.values))) ?_
  · have node_mem := mem_of_mem_named member
    split
    · exact each node node_mem
    · exact each node node_mem
    · exact (laid node node_mem).own.specs
    · exact (laid node node_mem).own.specs
    · exact .pure (.nil _)
  · intro groups fills
    refine .pure ?_
    rw [flatMap_flatten]
    exact fills.toFits

theorem assignmentOf_fits (define : Bool) :
    Yields (assignmentOf file label children define) fun stmt =>
      Entry.Fits label.span stmt.entries := by
  refine (Yields.any (fresh file)).bind fun id _ => ?_
  refine (exprsUnder_fill layout laid "left").bind fun targets targets_fill => ?_
  refine (exprsUnder_fill layout laid "right").bind fun values values_fill => .pure ?_
  refine (targets_fill.append values_fill fun left left_mem right right_mem => ?_).toFits
  rw [Option.mem_toList] at left_mem right_mem
  refine apart_of_follows layout left_mem (mem_of_under? right_mem) ?_
  simp [Label.follows, field_of_under? right_mem]

/-- The name bound by a type switch stands before its value, which is read first. -/
theorem guardOf_fill : Yields (guardOf file children) fun stmts =>
    Fills label.span ((under? "alias" children).toList ++ (under? "value" children).toList)
      (stmtEntries stmts) := by
  refine Yields.bind (Yields.mapM_option fun node found => (?_ : Yields _ fun expr : Expr =>
    Fills label.span (under? "value" children).toList expr.entries)) fun value value_fills => ?_
  · have node_mem := mem_of_under? found
    refine (laid node node_mem).own.expr.mono fun expr fits => ?_
    rw [found]
    exact .of_fits fits (covers_child layout node_mem)
  · split
    · rename_i name value name_eq
      refine (Yields.any (fresh file)).bind fun id _ => ?_
      have name_mem := mem_of_under? name_eq
      refine (exprList_fits (laid name name_mem)).bind fun targets fits => .pure ?_
      have targets_fill := Fills.of_fits fits (covers_child layout name_mem)
      have whole := targets_fill.append (value_fills value rfl)
        fun left left_mem right right_mem => by
        rw [Option.mem_toList] at right_mem
        rw [List.mem_singleton] at left_mem
        subst left_mem
        refine apart_of_follows layout name_eq (mem_of_under? right_mem) ?_
        simp [Label.follows, field_of_under? right_mem]
      simpa [name_eq, stmtEntries, Stmt.entries, exprEntries] using whole
    · rename_i value name_eq
      refine .pure ?_
      simpa [name_eq, stmtEntries, Stmt.entries] using value_fills value rfl
    · exact .pure (.nil _ _)

theorem typeSwitchOf_fits :
    Yields (typeSwitchOf file label children) fun stmt => Entry.Fits label.span stmt.entries := by
  have rest (initial : List Stmt)
      (initial_fills : Fills label.span (under? "initializer" children).toList
        (stmtEntries initial)) : Yields (do
      let guard ← guardOf file children
      let cases ← ((named children).filter fun node =>
        node.kind == "type_case" || node.kind == "default_case").mapM
          fun node => compoundOf node.label node.children
      return Stmt.compound label.kind (initial ++ guard ++ cases) label.span)
      fun stmt => Entry.Fits label.span stmt.entries := by
    refine (guardOf_fill layout laid).bind fun guard guard_fills => ?_
    refine Yields.bind (children_fill layout (List.filter_sublist.trans List.filter_sublist)
      fun node member => compoundOf_fits (laid node
        (mem_of_mem_named (List.mem_filter.mp member).1))) fun cases cases_fill => .pure ?_
    rw [← stmtEntries_eq] at cases_fill
    have before := initial_fills.append guard_fills fun left left_mem right right_mem => by
      rw [Option.mem_toList] at left_mem
      rw [List.mem_append, Option.mem_toList, Option.mem_toList] at right_mem
      rcases right_mem with right_eq | right_eq <;>
        refine apart_of_follows layout left_mem (mem_of_under? right_eq) ?_ <;>
        simp [Label.follows, field_of_under? right_eq]
    have whole := before.append cases_fill fun left left_mem right right_mem => by
      obtain ⟨right_mem, is_case⟩ := List.mem_filter.mp right_mem
      have is_case : right.label.isCase = true := is_case
      simp only [List.mem_append, Option.mem_toList] at left_mem
      rcases left_mem with left_eq | left_eq | left_eq <;>
        refine apart_of_follows layout left_eq (mem_of_mem_named right_mem) ?_ <;>
        simp [Label.follows, is_case]
    simpa [Stmt.entries, stmtEntries_eq] using whole.toFits
  unfold typeSwitchOf
  split
  · rename_i node found
    have node_mem := mem_of_under? found
    refine (laid node node_mem).own.stmts.bind fun initial fits => rest initial ?_
    rw [found]
    exact .of_fits fits (covers_child layout node_mem)
  · exact rest [] (.nil _ _)

theorem launchedOf_fits {wrap : NodeId → Expr → List Expr → Span → Span → Stmt}
    (wrap_fits : ∀ id callee args callSpan,
      Entry.Fits label.span (Expr.call id callee args callSpan).entries →
      Entry.Fits label.span (wrap id callee args callSpan label.span).entries) :
    Yields (launchedOf label children wrap) fun stmts =>
      Entry.Fits label.span (stmtEntries stmts) := by
  unfold launchedOf
  split
  · refine (child_fits layout laid (mem_of_head? ‹_›)).bind fun expr fits => .pure ?_
    rw [stmtEntries, stmtEntries, List.append_nil]
    cases expr with
    | call id callee args callSpan => exact wrap_fits id callee args callSpan fits
    | _ => exact fits
  · exact .pure (.nil _)

theorem clauseOf_fits : Yields (clauseOf file label children) fun stmts =>
    Entry.Fits label.span (stmtEntries stmts) := by
  unfold clauseOf
  split
  · refine (assignmentOf_fits layout laid _).bind fun stmt fits => .pure ?_
    simpa [stmtEntries] using fits
  · refine (child_fits layout laid (mem_of_under? ‹_›)).bind fun expr fits => .pure ?_
    simpa [stmtEntries, Stmt.entries] using fits
  · exact .pure (.nil _)

/-- However a node is read as statements, they fit into it. -/
theorem stmtsOf_fits : Yields (stmtsOf file label children) fun stmts =>
    Entry.Fits label.span (stmtEntries stmts) := by
  have none : Yields (pure []) fun stmts => Entry.Fits label.span (stmtEntries stmts) :=
    .pure (.nil _)
  have one {computation : Numbered Stmt}
      (yields : Yields computation fun stmt => Entry.Fits label.span stmt.entries) :
      Yields (return [← computation]) fun stmts => Entry.Fits label.span (stmtEntries stmts) :=
    yields.bind fun stmt fits => .pure (by simpa [stmtEntries] using fits)
  have lone {computation : Numbered Expr}
      (yields : Yields computation fun expr => Entry.Fits label.span expr.entries) :
      Yields (return [.expr (← computation)]) fun stmts =>
        Entry.Fits label.span (stmtEntries stmts) :=
    yields.bind fun expr fits => .pure (by simpa [stmtEntries, Stmt.entries] using fits)
  unfold stmtsOf
  split
  · exact body_fits layout laid List.filter_sublist
  · exact body_fits layout laid (List.filter_sublist.trans List.filter_sublist)
  · split
    · exact lone (child_fits layout laid (mem_of_head? ‹_›))
    · exact none
  · exact one (assignmentOf_fits layout laid _)
  · exact clauseOf_fits layout laid
  · rename_i form
    have kind_mem := StmtForm.mem_table form (by decide) (by decide)
    have solid := layout.solid (by simp_all [StmtForm.table, Label.isSolid])
    refine launchedOf_fits layout laid fun id callee args callSpan fits => ?_
    exact Entry.Fits.above (.defer ⟨id, callee, args, callSpan⟩ label.span) fits solid nofun
  · exact launchedOf_fits layout laid fun _ _ _ _ fits => fits
  · rename_i form
    have kind_mem := StmtForm.mem_table form (by decide) (by decide)
    have solid := layout.solid (by simp_all [StmtForm.table, Label.isSolid])
    have close {results : List Expr} (fits : Entry.Fits label.span (exprEntries results)) :
        Entry.Fits label.span (stmtEntries [.return results label.span]) := by
      rw [stmtEntries, stmtEntries, List.append_nil]
      exact Entry.Fits.above (.return label.span) fits solid nofun
    dsimp only
    split
    · rename_i list list_eq
      have list_mem := mem_of_head? list_eq
      refine (exprList_fits (laid list list_mem)).bind fun results fits => .pure ?_
      exact close (fits.mono (covers_child layout list_mem))
    · exact .pure (close (.nil _))
  · refine (specsOf_fits layout laid).bind fun specs fits => .pure ?_
    rw [stmtEntries_eq, List.flatMap_map]
    exact fits
  · refine (body_fits layout laid List.filter_sublist).bind fun stmts fits => .pure ?_
    simpa [stmtEntries, Stmt.entries] using fits
  · exact one (typeSwitchOf_fits layout laid)
  · exact none
  · refine one ((body_fits layout laid List.filter_sublist).bind fun stmts fits => .pure fits)
  · exact lone (exprOf_fits layout laid)

theorem ofChildren_laid : Laid (ofChildren file label children) where
  layout := layout
  expr := exprOf_fits layout laid
  stmts := stmtsOf_fits layout laid
  specs := specsOf_fits layout laid

end Forms

/-! ### Declarations -/

section Declarations

variable {node : Reading} (laid : node.All Laid)
include laid

theorem funcDecl_legible :
    Yields (node.funcDecl file) fun decl => Entry.LegibleThroughout decl.entries := by
  refine (Yields.any (fresh file)).bind fun id _ => ?_
  refine (Yields.any _).bind fun name _ => ?_
  refine (Yields.any _).bind fun receiver _ => ?_
  refine (Yields.any _).bind fun params _ => ?_
  refine (Yields.any _).bind fun result _ => ?_
  refine Yields.bind (Yields.mapM_option fun block found =>
    (?_ : Yields _ fun block : Block => Entry.Fits node.span (stmtEntries block.body)))
      fun block fits => .pure ?_
  · have block_mem := mem_of_under? found
    refine (block_fits (laid.child block block_mem)).bind fun stmts fits => .pure ?_
    exact fits.mono (covers_child laid.own.layout block_mem)
  · exact FuncDecl.legible_entries ⟨id, name, receiver, params, result, block, node.span⟩ fits

theorem decls_legible :
    Yields (node.decls file) fun decls => ∀ decl ∈ decls, decl.Legible := by
  have function : Yields (return [Decl.func (← node.funcDecl file)]) fun decls =>
      ∀ decl ∈ decls, decl.Legible := by
    refine (funcDecl_legible laid).bind fun decl legible => .pure ?_
    rw [List.forall_mem_singleton]
    exact ⟨by rintro _ ⟨⟩; exact legible.toLegible, legible.closures⟩
  have var : Yields (return (← node.specs).map Decl.var) fun decls =>
      ∀ decl ∈ decls, decl.Legible := by
    refine laid.own.specs.bind fun specs fits => .pure ?_
    rw [List.forall_mem_map]
    intro spec spec_mem
    refine ⟨nofun, fun entry member => fits.closures entry ?_⟩
    exact List.mem_flatMap.mpr ⟨spec, spec_mem, member⟩
  unfold decls
  split
  · exact function
  · exact function
  · exact var
  · exact var
  · refine Yields.mapM_all fun spec _ => ?_
    exact (Yields.any _).bind fun spec _ => .pure ⟨nofun, by simp [Decl.entries]⟩
  · exact .pure (by simp)

theorem file_legible (path : String) :
    Yields (node.file file path) fun file => ∀ decl ∈ file.decls, decl.Legible := by
  refine Yields.bind (Yields.mapM_all fun child member =>
    decls_legible (laid.child child (mem_of_mem_named member))) fun groups legible => .pure ?_
  intro decl decl_mem
  obtain ⟨group, group_mem, decl_mem⟩ := List.mem_flatten.mp decl_mem
  exact legible group group_mem decl decl_mem

end Declarations

end Reading

namespace Tree

/-- Every node of a tree that is laid out reads as something that fits into it. -/
theorem laid_reading (file : Nat) (tree : Tree) (laid_out : tree.isLaidOut = true) :
    (tree.reading file).All Reading.Laid := by
  induction tree with
  | node label children ih =>
      obtain ⟨layout, below⟩ := (isLaidOut_node label children).mp laid_out
      rw [reading_node]
      have laid : ∀ child ∈ children.map (Tree.reading file), child.All Reading.Laid := by
        intro child member
        obtain ⟨tree, tree_mem, rfl⟩ := List.mem_map.mp member
        exact ih tree tree_mem (below tree tree_mem)
      refine .node (Reading.ofChildren_laid ?_ laid) laid
      simpa [Function.comp_def] using layout

/-- In what a tree in source order is read as, offsets tell the order of each stream, and which of
the later nodes stand below a closure literal, a deferred call or a return. So ranges are well
nested. -/
theorem offsets_tell_descent (number : Nat) (path : String) (tree : Tree)
    (laid_out : tree.isLaidOut = true) :
    (∀ decl, .func decl ∈ (tree.toFile number path).decls →
      decl.entries.map Entry.node = decl.stream ∧ Entry.ToldByOffsets decl.entries ∧
        decl.nested = true) ∧
    ∀ decl ∈ (tree.toFile number path).decls, ∀ literal, .closure literal ∈ decl.nodes →
      literal.entries.map Entry.node = literal.stream ∧ Entry.ToldByOffsets literal.entries ∧
        literal.body.nested = true := by
  have legible : ∀ decl ∈ (tree.toFile number path).decls, decl.Legible :=
    Reading.file_legible (tree.laid_reading number laid_out) path 0
  constructor
  · intro decl decl_mem
    have own := (legible (.func decl) decl_mem).function decl rfl
    exact ⟨decl.map_node_entries, own.toldByOffsets, decl.nested_of_delimited own.delimited⟩
  · intro decl decl_mem literal literal_mem
    rw [← decl.map_node_entries] at literal_mem
    obtain ⟨entry, entry_mem, node_eq⟩ := List.mem_map.mp literal_mem
    have own := (legible decl decl_mem).closures entry entry_mem literal node_eq
    exact ⟨literal.map_node_entries, own.toldByOffsets,
      literal.body.nested_of_delimited own.delimited.2⟩

/-- The literal and its call stand below the deferred call, the last call below the return. -/
theorem branching_told_by_offsets :
    Sample.branching.isLaidOut = true ∧
    ((Sample.branching.toFile 0 "a.go").decls.flatMap Decl.entries).map
      (fun entry => (entry.node.kind, entry.below)) =
        [("func_decl", 7), ("defer", 3), ("call", 2), ("func_lit", 1), ("call", 0), ("call", 0),
          ("return", 1), ("call", 0)] ∧
    (∀ decl, .func decl ∈ (Sample.branching.toFile 0 "a.go").decls →
      Entry.ToldByOffsets decl.entries) ∧
    ∀ decl ∈ (Sample.branching.toFile 0 "a.go").decls, ∀ literal, .closure literal ∈ decl.nodes →
      Entry.ToldByOffsets literal.entries := by
  have laid_out : Sample.branching.isLaidOut = true := by decide +kernel
  have told := offsets_tell_descent 0 "a.go" Sample.branching laid_out
  refine ⟨laid_out, by decide +kernel, ?_, ?_⟩
  · exact fun decl member => (told.1 decl member).2.1
  · exact fun decl member literal within => (told.2 decl member literal within).2.1

end Tree

end Relock
