import Relock.Proofs.Program.Stream
import Relock.Proofs.Tracking.Findings
import Relock.Proofs.Tracking.Tree

/-!
# What belongs to an activation

An activation interprets the calls of its body, except those that stand in a closure literal or are
part of a deferred call, and it notes the closure literals that stand in no other one. This file
says what these are by recursion on the syntax tree. Where ranges are well nested, the offsets by
which tracking goes come to the same.
-/

namespace Relock

/-- A node of a body that stands in none of the closure literals there. -/
structure Item where
  node : Node
  /-- The node is part of a deferred call. -/
  deferred : Bool

/-- A node at any depth, with the innermost closure literal in which it stands. -/
structure Part extends Item where
  owner : Option Closure

namespace Item

/-- The call of an item that is to be interpreted. -/
def call? (item : Item) : Option Call :=
  match item.node with
  | .call call => if item.deferred then none else some call
  | _ => none

/-- The closure literals among items. -/
def literals (items : List Item) : List Closure := Node.literals (items.map Item.node)

theorem literals_append (left right : List Item) :
    literals (left ++ right) = literals left ++ literals right := by
  rw [literals, List.map_append, Node.literals_append]
  rfl

end Item

namespace Part

/-- The call that is to be interpreted in the activation of the owner. -/
def duty? (part : Part) : Option (Option Closure × Call) :=
  part.call?.map fun call => (part.owner, call)

end Part

mutual

/-- The items of an expression. -/
def Expr.items (deferred : Bool) : Expr → List Item
  | .ident _ => []
  | .selector _ base _ _ => base.items deferred
  | .call id callee args span =>
      ⟨.call ⟨id, callee, args, span⟩, deferred⟩ ::
        (callee.items deferred ++ exprItems deferred args)
  | .literal id params result body bodySpan span =>
      [⟨.closure ⟨id, params, result, ⟨body, bodySpan⟩, span⟩, deferred⟩]
  | .paren inner _ => inner.items deferred
  | .unary _ operand _ => operand.items deferred
  | .composite _ elements _ => exprItems deferred elements
  | .other _ parts _ => exprItems deferred parts

/-- The items of expressions, one after the other. -/
def exprItems (deferred : Bool) : List Expr → List Item
  | [] => []
  | expr :: exprs => expr.items deferred ++ exprItems deferred exprs

/-- The items of a statement. -/
def Stmt.items : Stmt → List Item
  | .expr expr => expr.items false
  | .defer id callee args callSpan span =>
      let call : Call := ⟨id, callee, args, callSpan⟩
      ⟨.defer call span, false⟩ :: ⟨.call call, true⟩ :: (callee.items true ++ exprItems true args)
  | .go id callee args callSpan _ =>
      ⟨.call ⟨id, callee, args, callSpan⟩, false⟩ :: (callee.items false ++ exprItems false args)
  | .return results span => ⟨.return span, false⟩ :: exprItems false results
  | .assign _ targets values _ _ => exprItems false targets ++ exprItems false values
  | .var _ _ _ values _ => exprItems false values
  | .block body _ => stmtItems body
  | .compound _ parts _ => stmtItems parts

/-- The items of statements, one after the other. -/
def stmtItems : List Stmt → List Item
  | [] => []
  | stmt :: stmts => stmt.items ++ stmtItems stmts

end

mutual

/-- The parts of an expression, those inside its closure literals too. -/
def Expr.parts (owner : Option Closure) (deferred : Bool) : Expr → List Part
  | .ident _ => []
  | .selector _ base _ _ => base.parts owner deferred
  | .call id callee args span =>
      ⟨⟨.call ⟨id, callee, args, span⟩, deferred⟩, owner⟩ ::
        (callee.parts owner deferred ++ exprParts owner deferred args)
  | .literal id params result body bodySpan span =>
      let literal : Closure := ⟨id, params, result, ⟨body, bodySpan⟩, span⟩
      ⟨⟨.closure literal, deferred⟩, owner⟩ :: stmtParts (some literal) body
  | .paren inner _ => inner.parts owner deferred
  | .unary _ operand _ => operand.parts owner deferred
  | .composite _ elements _ => exprParts owner deferred elements
  | .other _ parts _ => exprParts owner deferred parts

/-- The parts of expressions, one after the other. -/
def exprParts (owner : Option Closure) (deferred : Bool) : List Expr → List Part
  | [] => []
  | expr :: exprs => expr.parts owner deferred ++ exprParts owner deferred exprs

/-- The parts of a statement. -/
def Stmt.parts (owner : Option Closure) : Stmt → List Part
  | .expr expr => expr.parts owner false
  | .defer id callee args callSpan span =>
      let call : Call := ⟨id, callee, args, callSpan⟩
      ⟨⟨.defer call span, false⟩, owner⟩ :: ⟨⟨.call call, true⟩, owner⟩ ::
        (callee.parts owner true ++ exprParts owner true args)
  | .go id callee args callSpan _ =>
      ⟨⟨.call ⟨id, callee, args, callSpan⟩, false⟩, owner⟩ ::
        (callee.parts owner false ++ exprParts owner false args)
  | .return results span => ⟨⟨.return span, false⟩, owner⟩ :: exprParts owner false results
  | .assign _ targets values _ _ => exprParts owner false targets ++ exprParts owner false values
  | .var _ _ _ values _ => exprParts owner false values
  | .block body _ => stmtParts owner body
  | .compound _ parts _ => stmtParts owner parts

/-- The parts of statements, one after the other. -/
def stmtParts (owner : Option Closure) : List Stmt → List Part
  | [] => []
  | stmt :: stmts => stmt.parts owner ++ stmtParts owner stmts

end

namespace Closure

/-- What belongs to the activation of a closure literal. -/
def items (literal : Closure) : List Item := stmtItems literal.body.body

/-- What stands in a closure literal, at any depth. -/
def parts (literal : Closure) : List Part := stmtParts (some literal) literal.body.body

end Closure

namespace FuncDecl

/-- What belongs to the activation of a declaration. -/
def items (decl : FuncDecl) : List Item :=
  match decl.body with
  | some block => stmtItems block.body
  | none => []

/-- What stands in a declaration, at any depth. -/
def parts (decl : FuncDecl) : List Part :=
  match decl.body with
  | some block => stmtParts none block.body
  | none => []

end FuncDecl

/-! ## Items and parts -/

namespace Item

/-- The parts of an item: itself and, if it is a closure literal, what stands in the literal. -/
def parts (owner : Option Closure) (item : Item) : List Part :=
  ⟨item, owner⟩ :: match item.node with
    | .closure literal => literal.parts
    | _ => []

end Item

mutual

theorem Expr.parts_eq (owner : Option Closure) (deferred : Bool) :
    ∀ expr : Expr, expr.parts owner deferred = (expr.items deferred).flatMap (Item.parts owner)
  | .ident _ => rfl
  | .selector _ base _ _ => base.parts_eq owner deferred
  | .call _ callee args _ => by
      rw [Expr.parts, Expr.items, List.flatMap_cons, List.flatMap_append,
        callee.parts_eq owner deferred, exprParts_eq owner deferred args]
      rfl
  | .literal _ _ _ _ _ _ => by
      rw [Expr.parts, Expr.items, List.flatMap_singleton]
      rfl
  | .paren inner _ => inner.parts_eq owner deferred
  | .unary _ operand _ => operand.parts_eq owner deferred
  | .composite _ elements _ => exprParts_eq owner deferred elements
  | .other _ parts _ => exprParts_eq owner deferred parts

theorem exprParts_eq (owner : Option Closure) (deferred : Bool) : ∀ exprs : List Expr,
    exprParts owner deferred exprs = (exprItems deferred exprs).flatMap (Item.parts owner)
  | [] => rfl
  | expr :: exprs => by
      rw [exprParts, exprItems, List.flatMap_append, expr.parts_eq owner deferred,
        exprParts_eq owner deferred exprs]

end

mutual

theorem Stmt.parts_eq (owner : Option Closure) :
    ∀ stmt : Stmt, stmt.parts owner = stmt.items.flatMap (Item.parts owner)
  | .expr expr => expr.parts_eq owner false
  | .defer _ callee args _ _ => by
      rw [Stmt.parts, Stmt.items, List.flatMap_cons, List.flatMap_cons, List.flatMap_append,
        callee.parts_eq owner true, exprParts_eq owner true args]
      rfl
  | .go _ callee args _ _ => by
      rw [Stmt.parts, Stmt.items, List.flatMap_cons, List.flatMap_append,
        callee.parts_eq owner false, exprParts_eq owner false args]
      rfl
  | .return results _ => by
      rw [Stmt.parts, Stmt.items, List.flatMap_cons, exprParts_eq owner false results]
      rfl
  | .assign _ targets values _ _ => by
      rw [Stmt.parts, Stmt.items, List.flatMap_append, exprParts_eq owner false targets,
        exprParts_eq owner false values]
  | .var _ _ _ values _ => exprParts_eq owner false values
  | .block body _ => stmtParts_eq owner body
  | .compound _ parts _ => stmtParts_eq owner parts

/-- The parts of statements are their items, each followed by what stands in it. -/
theorem stmtParts_eq (owner : Option Closure) : ∀ stmts : List Stmt,
    stmtParts owner stmts = (stmtItems stmts).flatMap (Item.parts owner)
  | [] => rfl
  | stmt :: stmts => by
      rw [stmtParts, stmtItems, List.flatMap_append, stmt.parts_eq owner, stmtParts_eq owner stmts]

end

mutual

theorem Expr.map_node_parts : ∀ (expr : Expr) (owner : Option Closure) (deferred : Bool),
    (expr.parts owner deferred).map (fun part => part.node) = expr.nodes
  | .ident _, _, _ => rfl
  | .selector _ base _ _, owner, deferred => base.map_node_parts owner deferred
  | .call _ callee args _, owner, deferred => by
      rw [Expr.parts, Expr.nodes, List.map_cons, List.map_append,
        callee.map_node_parts owner deferred, map_node_exprParts args owner deferred]
  | .literal _ _ _ body _ _, _, _ => by
      rw [Expr.parts, Expr.nodes, List.map_cons, map_node_stmtParts body]
  | .paren inner _, owner, deferred => inner.map_node_parts owner deferred
  | .unary _ operand _, owner, deferred => operand.map_node_parts owner deferred
  | .composite _ elements _, owner, deferred => map_node_exprParts elements owner deferred
  | .other _ parts _, owner, deferred => map_node_exprParts parts owner deferred

theorem map_node_exprParts : ∀ (exprs : List Expr) (owner : Option Closure) (deferred : Bool),
    (exprParts owner deferred exprs).map (fun part => part.node) = exprNodes exprs
  | [], _, _ => rfl
  | expr :: exprs, owner, deferred => by
      rw [exprParts, exprNodes, List.map_append, expr.map_node_parts owner deferred,
        map_node_exprParts exprs owner deferred]

theorem Stmt.map_node_parts : ∀ (stmt : Stmt) (owner : Option Closure),
    (stmt.parts owner).map (fun part => part.node) = stmt.nodes
  | .expr expr, owner => expr.map_node_parts owner false
  | .defer _ callee args _ _, owner => by
      rw [Stmt.parts, Stmt.nodes, List.map_cons, List.map_cons, List.map_append,
        callee.map_node_parts owner true, map_node_exprParts args owner true]
  | .go _ callee args _ _, owner => by
      rw [Stmt.parts, Stmt.nodes, List.map_cons, List.map_append,
        callee.map_node_parts owner false, map_node_exprParts args owner false]
  | .return results _, owner => by
      rw [Stmt.parts, Stmt.nodes, List.map_cons, map_node_exprParts results owner false]
  | .assign _ targets values _ _, owner => by
      rw [Stmt.parts, Stmt.nodes, List.map_append, map_node_exprParts targets owner false,
        map_node_exprParts values owner false]
  | .var _ _ _ values _, owner => map_node_exprParts values owner false
  | .block body _, owner => map_node_stmtParts body owner
  | .compound _ parts _, owner => map_node_stmtParts parts owner

/-- The parts of statements are their nodes, all of them and in the same order. -/
theorem map_node_stmtParts : ∀ (stmts : List Stmt) (owner : Option Closure),
    (stmtParts owner stmts).map (fun part => part.node) = stmtNodes stmts
  | [], _ => rfl
  | stmt :: stmts, owner => by
      rw [stmtParts, stmtNodes, List.map_append, stmt.map_node_parts owner,
        map_node_stmtParts stmts owner]

end

namespace FuncDecl

theorem parts_eq (decl : FuncDecl) : decl.parts = decl.items.flatMap (Item.parts none) := by
  unfold parts items
  cases decl.body with
  | none => rfl
  | some block => exact stmtParts_eq none block.body

/-- The parts of a declaration are the nodes of its stream after the first. -/
theorem stream_eq (decl : FuncDecl) :
    decl.stream = .func decl :: decl.parts.map fun part => part.node := by
  unfold stream parts
  cases decl.body with
  | none => rfl
  | some block => exact congrArg _ (map_node_stmtParts block.body none).symm

end FuncDecl

/-! ## Telling items by offsets -/

/-- The extents by which a walk tells what belongs to the activation. -/
structure Around where
  closure : Option Span := none
  defer : Option Span := none

namespace Around

/-- What the walk is inside of after a node. -/
def next (around : Around) (node : Node) : Around :=
  if LockState.inside around.closure node.span then
    around
  else if LockState.inside around.defer node.span then
    match node with
    | .closure literal => ⟨some literal.span, around.defer⟩
    | _ => ⟨none, around.defer⟩
  else
    match node with
    | .closure literal => ⟨some literal.span, none⟩
    | .defer _ span => ⟨none, some span⟩
    | _ => {}

/-- The items that a walk finds among nodes. -/
def scan : Around → List Node → List Item
  | _, [] => []
  | around, node :: nodes =>
      if LockState.inside around.closure node.span then
        scan (around.next node) nodes
      else
        ⟨node, LockState.inside around.defer node.span⟩ :: scan (around.next node) nodes

variable {around : Around} {defer : Option Span} {span : Span} {node : Node}
  {inside later nodes : List Node}

theorem next_of_within (within : LockState.inside around.closure node.span = true) :
    around.next node = around := if_pos within

theorem next_of_outside (outside : LockState.inside around.closure node.span = false) :
    around.next node = next ⟨none, around.defer⟩ node := by
  unfold next
  rw [outside]
  rfl

theorem next_of_past (past : LockState.inside defer node.span = false) :
    next ⟨none, defer⟩ node = next {} node := by
  unfold next
  rw [past]
  rfl

theorem scan_cons_of_within (within : LockState.inside around.closure node.span = true)
    (nodes : List Node) : scan around (node :: nodes) = scan around nodes := by
  rw [scan, if_pos within, next_of_within within]

theorem scan_cons_of_outside (outside : LockState.inside around.closure node.span = false)
    (nodes : List Node) :
    scan around (node :: nodes) =
      ⟨node, LockState.inside around.defer node.span⟩ :: scan (around.next node) nodes := by
  rw [scan, outside]
  rfl

/-- The nodes inside a closure literal are passed over. -/
theorem scan_skip (within : ∀ node ∈ inside, node.span.startsWithin span = true) :
    scan ⟨some span, defer⟩ (inside ++ later) = scan ⟨some span, defer⟩ later := by
  induction inside with
  | nil => rfl
  | cons node inside ih =>
      obtain ⟨first, rest⟩ := List.forall_mem_cons.mp within
      have within_closure :
          LockState.inside (Around.mk (some span) defer).closure node.span = true :=
        first
      rw [List.cons_append, scan_cons_of_within within_closure, ih rest]

/-- An extent may be given up before the first node past it. -/
theorem scan_close_closure (past : ∀ node ∈ later, node.span.startsWithin span = false) :
    scan ⟨some span, defer⟩ later = scan ⟨none, defer⟩ later := by
  cases later with
  | nil => rfl
  | cons node later =>
      have outside : LockState.inside (some span) node.span = false :=
        past node List.mem_cons_self
      rw [scan_cons_of_outside outside, next_of_outside outside]
      rfl

theorem scan_close_defer (past : ∀ node ∈ later, node.span.startsWithin span = false) :
    scan ⟨none, some span⟩ later = scan {} later := by
  cases later with
  | nil => rfl
  | cons node later =>
      have outside : LockState.inside (some span) node.span = false :=
        past node List.mem_cons_self
      rw [scan_cons_of_outside rfl, scan_cons_of_outside rfl, outside, next_of_past outside]
      rfl

/-- The nodes lie inside a deferred call, if there is one. -/
def Covers (defer : Option Span) (nodes : List Node) : Prop :=
  ∀ span ∈ defer, ∀ node ∈ nodes, node.span.startsWithin span = true

theorem Covers.mono (covers : Covers defer nodes) (subset : inside ⊆ nodes) :
    Covers defer inside := fun span opened node member => covers span opened node (subset member)

theorem Covers.inside_eq (covers : Covers defer nodes) (member : node ∈ nodes) :
    LockState.inside defer node.span = defer.isSome := by
  cases defer with
  | none => rfl
  | some span => exact covers span rfl node member

theorem scan_call {call : Call} (covers : Covers defer [.call call]) (nodes : List Node) :
    scan ⟨none, defer⟩ (.call call :: nodes) =
      ⟨.call call, defer.isSome⟩ :: scan ⟨none, defer⟩ nodes := by
  have inside_eq := covers.inside_eq List.mem_cons_self
  have next_eq : next ⟨none, defer⟩ (.call call) = ⟨none, defer⟩ := by
    unfold next
    rw [inside_eq]
    cases defer <;> rfl
  rw [scan_cons_of_outside rfl, inside_eq, next_eq]

theorem scan_literal {literal : Closure} (covers : Covers defer [.closure literal])
    (encloses : literal.span.encloses literal.body.nodes later = true) :
    scan ⟨none, defer⟩ (.closure literal :: literal.body.nodes ++ later) =
      ⟨.closure literal, defer.isSome⟩ :: scan ⟨none, defer⟩ later := by
  have inside_eq := covers.inside_eq List.mem_cons_self
  have next_eq : next ⟨none, defer⟩ (.closure literal) = ⟨some literal.span, defer⟩ := by
    unfold next
    rw [inside_eq]
    cases defer <;> rfl
  rw [List.cons_append, scan_cons_of_outside rfl, inside_eq, next_eq,
    scan_skip (Subject.within_of_encloses encloses),
    scan_close_closure (Subject.past_of_encloses encloses)]

end Around

mutual

theorem Expr.scan_nodes : ∀ (expr : Expr) {defer : Option Span} (later : List Node),
    Around.Covers defer expr.nodes → expr.nested later = true →
    Around.scan ⟨none, defer⟩ (expr.nodes ++ later) =
      expr.items defer.isSome ++ Around.scan ⟨none, defer⟩ later
  | .ident _, _, _, _, _ => rfl
  | .selector _ base _ _, _, later, covers, nested => base.scan_nodes later covers nested
  | .call id callee args span, defer, later, covers, nested => by
      simp only [Expr.nested, Bool.and_eq_true] at nested
      have callee_covers := covers.mono (List.subset_cons_of_subset _ (List.subset_append_left _ _))
      have args_covers := covers.mono (List.subset_cons_of_subset _ (List.subset_append_right _ _))
      have call_covers := covers.mono (List.cons_subset_cons _ (List.nil_subset _))
      rw [Expr.nodes, Expr.items, List.cons_append, Around.scan_call call_covers, List.append_assoc,
        callee.scan_nodes _ callee_covers nested.1, scan_exprNodes args later args_covers nested.2,
        List.cons_append, List.append_assoc]
  | .literal id params result body bodySpan span, defer, later, covers, nested => by
      simp only [Expr.nested, Bool.and_eq_true] at nested
      have literal_covers := covers.mono (List.cons_subset_cons _ (List.nil_subset _))
      exact Around.scan_literal literal_covers nested.1
  | .paren inner _, _, later, covers, nested => inner.scan_nodes later covers nested
  | .unary _ operand _, _, later, covers, nested => operand.scan_nodes later covers nested
  | .composite _ elements _, _, later, covers, nested => scan_exprNodes elements later covers nested
  | .other _ parts _, _, later, covers, nested => scan_exprNodes parts later covers nested

theorem scan_exprNodes : ∀ (exprs : List Expr) {defer : Option Span} (later : List Node),
    Around.Covers defer (exprNodes exprs) → exprsNested later exprs = true →
    Around.scan ⟨none, defer⟩ (exprNodes exprs ++ later) =
      exprItems defer.isSome exprs ++ Around.scan ⟨none, defer⟩ later
  | [], _, _, _, _ => rfl
  | expr :: exprs, defer, later, covers, nested => by
      simp only [exprsNested, Bool.and_eq_true] at nested
      rw [exprNodes, exprItems, List.append_assoc,
        expr.scan_nodes _ (covers.mono (List.subset_append_left _ _)) nested.1,
        scan_exprNodes exprs later (covers.mono (List.subset_append_right _ _)) nested.2,
        List.append_assoc]

end

namespace Around

/-- Outside of deferred calls there is nothing to be covered by one. -/
theorem covers_none (nodes : List Node) : Covers none nodes := by
  intro span opened
  cases opened

end Around

mutual

theorem Stmt.scan_nodes : ∀ (stmt : Stmt) (later : List Node), stmt.nested later = true →
    Around.scan {} (stmt.nodes ++ later) = stmt.items ++ Around.scan {} later
  | .expr expr, later, nested => expr.scan_nodes later (Around.covers_none _) nested
  | .defer id callee args callSpan span, later, nested => by
      simp only [Stmt.nested, Bool.and_eq_true] at nested
      obtain ⟨encloses, nested_callee, nested_args⟩ := nested
      have covers : Around.Covers (some span)
          (.call ⟨id, callee, args, callSpan⟩ :: (callee.nodes ++ exprNodes args)) := by
        intro extent same
        cases same
        exact Subject.within_of_encloses encloses
      have call_covers := covers.mono (List.cons_subset_cons _ (List.nil_subset _))
      have callee_covers := covers.mono (List.subset_cons_of_subset _ (List.subset_append_left _ _))
      have args_covers := covers.mono (List.subset_cons_of_subset _ (List.subset_append_right _ _))
      have opened : Around.scan {} (Stmt.nodes (.defer id callee args callSpan span) ++ later) =
          ⟨.defer ⟨id, callee, args, callSpan⟩ span, false⟩ ::
            Around.scan ⟨none, some span⟩
              (.call ⟨id, callee, args, callSpan⟩ :: (callee.nodes ++ exprNodes args) ++ later) :=
        rfl
      rw [opened, List.cons_append, Around.scan_call call_covers, List.append_assoc,
        callee.scan_nodes _ callee_covers nested_callee,
        scan_exprNodes args later args_covers nested_args,
        Around.scan_close_defer (Subject.past_of_encloses encloses), Stmt.items, List.cons_append,
        List.cons_append, List.append_assoc]
      rfl
  | .go id callee args callSpan span, later, nested => by
      simp only [Stmt.nested, Bool.and_eq_true] at nested
      rw [Stmt.nodes, Stmt.items, List.cons_append, Around.scan_call (Around.covers_none _),
        List.append_assoc, callee.scan_nodes _ (Around.covers_none _) nested.1,
        scan_exprNodes args later (Around.covers_none _) nested.2, List.cons_append,
        List.append_assoc]
      rfl
  | .return results span, later, nested => by
      simp only [Stmt.nested, Bool.and_eq_true] at nested
      have passed : Around.scan {} (Stmt.nodes (.return results span) ++ later) =
          ⟨.return span, false⟩ :: Around.scan {} (exprNodes results ++ later) := rfl
      rw [passed, scan_exprNodes results later (Around.covers_none _) nested.2, Stmt.items,
        List.cons_append]
      rfl
  | .assign _ targets values _ _, later, nested => by
      simp only [Stmt.nested, Bool.and_eq_true] at nested
      rw [Stmt.nodes, Stmt.items, List.append_assoc,
        scan_exprNodes targets _ (Around.covers_none _) nested.1,
        scan_exprNodes values later (Around.covers_none _) nested.2, List.append_assoc]
      rfl
  | .var _ _ _ values _, later, nested => scan_exprNodes values later (Around.covers_none _) nested
  | .block body _, later, nested => scan_stmtNodes body later nested
  | .compound _ parts _, later, nested => scan_stmtNodes parts later nested

/-- Offsets tell the items of well nested statements. -/
theorem scan_stmtNodes : ∀ (stmts : List Stmt) (later : List Node),
    stmtsNested later stmts = true →
    Around.scan {} (stmtNodes stmts ++ later) = stmtItems stmts ++ Around.scan {} later
  | [], _, _ => rfl
  | stmt :: stmts, later, nested => by
      simp only [stmtsNested, Bool.and_eq_true] at nested
      rw [stmtNodes, stmtItems, List.append_assoc, stmt.scan_nodes _ nested.1,
        scan_stmtNodes stmts later nested.2, List.append_assoc]

end

theorem Block.scan_nodes {block : Block} (nested : block.nested = true) :
    Around.scan {} block.nodes = stmtItems block.body := by
  have scanned := scan_stmtNodes block.body [] nested
  rw [List.append_nil] at scanned
  rw [Block.nodes, scanned]
  exact List.append_nil _

/-! ## Literals in well nested bodies -/

theorem Span.encloses_mono {span : Span} {inside small large : List Node} (subset : small ⊆ large)
    (encloses : span.encloses inside large = true) : span.encloses inside small = true := by
  simp only [Span.encloses, Bool.and_eq_true, List.all_eq_true] at encloses ⊢
  exact ⟨encloses.1, fun node member => encloses.2 node (subset member)⟩

theorem append_subset_append {front small large : List Node} (subset : small ⊆ large) :
    front ++ small ⊆ front ++ large :=
  List.append_subset.mpr
    ⟨List.subset_append_left _ _, List.Subset.trans subset (List.subset_append_right _ _)⟩

mutual

theorem Expr.nested_mono : ∀ (expr : Expr) {small large : List Node}, small ⊆ large →
    expr.nested large = true → expr.nested small = true
  | .ident _, _, _, _, _ => rfl
  | .selector _ base _ _, _, _, subset, nested => base.nested_mono subset nested
  | .call _ callee args _, _, _, subset, nested => by
      simp only [Expr.nested, Bool.and_eq_true] at nested ⊢
      exact ⟨callee.nested_mono (append_subset_append subset) nested.1,
        exprsNested_mono args subset nested.2⟩
  | .literal _ _ _ body _ _, _, _, subset, nested => by
      simp only [Expr.nested, Bool.and_eq_true] at nested ⊢
      exact ⟨Span.encloses_mono subset nested.1, stmtsNested_mono body subset nested.2⟩
  | .paren inner _, _, _, subset, nested => inner.nested_mono subset nested
  | .unary _ operand _, _, _, subset, nested => operand.nested_mono subset nested
  | .composite _ elements _, _, _, subset, nested => exprsNested_mono elements subset nested
  | .other _ parts _, _, _, subset, nested => exprsNested_mono parts subset nested

theorem exprsNested_mono : ∀ (exprs : List Expr) {small large : List Node}, small ⊆ large →
    exprsNested large exprs = true → exprsNested small exprs = true
  | [], _, _, _, _ => rfl
  | expr :: exprs, _, _, subset, nested => by
      simp only [exprsNested, Bool.and_eq_true] at nested ⊢
      exact ⟨expr.nested_mono (append_subset_append subset) nested.1,
        exprsNested_mono exprs subset nested.2⟩

theorem Stmt.nested_mono : ∀ (stmt : Stmt) {small large : List Node}, small ⊆ large →
    stmt.nested large = true → stmt.nested small = true
  | .expr expr, _, _, subset, nested => expr.nested_mono subset nested
  | .defer _ callee args _ _, _, _, subset, nested => by
      simp only [Stmt.nested, Bool.and_eq_true] at nested ⊢
      exact ⟨Span.encloses_mono subset nested.1,
        callee.nested_mono (append_subset_append subset) nested.2.1,
        exprsNested_mono args subset nested.2.2⟩
  | .go _ callee args _ _, _, _, subset, nested => by
      simp only [Stmt.nested, Bool.and_eq_true] at nested ⊢
      exact ⟨callee.nested_mono (append_subset_append subset) nested.1,
        exprsNested_mono args subset nested.2⟩
  | .return results _, _, _, subset, nested => by
      simp only [Stmt.nested, Bool.and_eq_true] at nested ⊢
      exact ⟨Span.encloses_mono subset nested.1, exprsNested_mono results subset nested.2⟩
  | .assign _ targets values _ _, _, _, subset, nested => by
      simp only [Stmt.nested, Bool.and_eq_true] at nested ⊢
      exact ⟨exprsNested_mono targets (append_subset_append subset) nested.1,
        exprsNested_mono values subset nested.2⟩
  | .var _ _ _ values _, _, _, subset, nested => exprsNested_mono values subset nested
  | .block body _, _, _, subset, nested => stmtsNested_mono body subset nested
  | .compound _ parts _, _, _, subset, nested => stmtsNested_mono parts subset nested

/-- Ranges stay well nested when fewer nodes follow. -/
theorem stmtsNested_mono : ∀ (stmts : List Stmt) {small large : List Node}, small ⊆ large →
    stmtsNested large stmts = true → stmtsNested small stmts = true
  | [], _, _, _, _ => rfl
  | stmt :: stmts, _, _, subset, nested => by
      simp only [stmtsNested, Bool.and_eq_true] at nested ⊢
      exact ⟨stmt.nested_mono (append_subset_append subset) nested.1,
        stmtsNested_mono stmts subset nested.2⟩

end

namespace Item

/-- The bodies of the closure literals among items are well nested. -/
def Nested (items : List Item) : Prop := ∀ literal ∈ literals items, literal.body.nested = true

theorem nested_nil : Nested [] := by
  intro literal member
  cases member

theorem Nested.append {left right : List Item} (left_nested : Nested left)
    (right_nested : Nested right) : Nested (left ++ right) := by
  intro literal member
  rw [literals_append, List.mem_append] at member
  rcases member with member | member
  · exact left_nested literal member
  · exact right_nested literal member

end Item

mutual

theorem Expr.nested_items : ∀ (expr : Expr) {deferred : Bool} {later : List Node},
    expr.nested later = true → Item.Nested (expr.items deferred)
  | .ident _, _, _, _ => Item.nested_nil
  | .selector _ base _ _, _, _, nested => base.nested_items nested
  | .call _ callee args _, _, _, nested => by
      simp only [Expr.nested, Bool.and_eq_true] at nested
      exact (callee.nested_items nested.1).append (nested_exprItems args nested.2)
  | .literal _ _ _ body _ _, _, _, nested => by
      simp only [Expr.nested, Bool.and_eq_true] at nested
      intro literal member
      cases List.mem_singleton.mp member
      exact stmtsNested_mono body (List.nil_subset _) nested.2
  | .paren inner _, _, _, nested => inner.nested_items nested
  | .unary _ operand _, _, _, nested => operand.nested_items nested
  | .composite _ elements _, _, _, nested => nested_exprItems elements nested
  | .other _ parts _, _, _, nested => nested_exprItems parts nested

theorem nested_exprItems : ∀ (exprs : List Expr) {deferred : Bool} {later : List Node},
    exprsNested later exprs = true → Item.Nested (exprItems deferred exprs)
  | [], _, _, _ => Item.nested_nil
  | expr :: exprs, _, _, nested => by
      simp only [exprsNested, Bool.and_eq_true] at nested
      exact (expr.nested_items nested.1).append (nested_exprItems exprs nested.2)

end

mutual

theorem Stmt.nested_items : ∀ (stmt : Stmt) {later : List Node},
    stmt.nested later = true → Item.Nested stmt.items
  | .expr expr, _, nested => expr.nested_items nested
  | .defer _ callee args _ _, _, nested => by
      simp only [Stmt.nested, Bool.and_eq_true] at nested
      exact (callee.nested_items nested.2.1).append (nested_exprItems args nested.2.2)
  | .go _ callee args _ _, _, nested => by
      simp only [Stmt.nested, Bool.and_eq_true] at nested
      exact (callee.nested_items nested.1).append (nested_exprItems args nested.2)
  | .return results _, _, nested => by
      simp only [Stmt.nested, Bool.and_eq_true] at nested
      exact nested_exprItems results nested.2
  | .assign _ targets values _ _, _, nested => by
      simp only [Stmt.nested, Bool.and_eq_true] at nested
      exact (nested_exprItems targets nested.1).append (nested_exprItems values nested.2)
  | .var _ _ _ values _, _, nested => nested_exprItems values nested
  | .block body _, _, nested => nested_stmtItems body nested
  | .compound _ parts _, _, nested => nested_stmtItems parts nested

/-- The closure literals in well nested statements are well nested themselves. -/
theorem nested_stmtItems : ∀ (stmts : List Stmt) {later : List Node},
    stmtsNested later stmts = true → Item.Nested (stmtItems stmts)
  | [], _, _ => Item.nested_nil
  | stmt :: stmts, _, nested => by
      simp only [stmtsNested, Bool.and_eq_true] at nested
      exact (stmt.nested_items nested.1).append (nested_stmtItems stmts nested.2)

end

/-! ## What tracking makes of items -/

namespace LockState

/-- The extents by which a state tells what belongs to the activation. -/
def around (state : LockState) : Around := ⟨state.closureExtent, state.deferExtent⟩

theorem around_passReturn (state : LockState) (span : Span) :
    (state.passReturn span).around = state.around := by
  unfold passReturn
  split <;> rfl

theorem around_enterReturn (state : LockState) (span : Span) :
    (state.enterReturn span).around = state.around := by
  unfold enterReturn
  split <;> rfl

end LockState

/-- Closure literals under consecutive names. -/
def numbered (stem : String) : (start : Nat) → List Closure → List PendingClosure
  | _, [] => []
  | start, literal :: literals =>
      ⟨stem ++ toString (start + 1), literal⟩ :: numbered stem (start + 1) literals

theorem map_literal_numbered (stem : String) (start : Nat) (literals : List Closure) :
    (numbered stem start literals).map PendingClosure.literal = literals := by
  induction literals generalizing start with
  | nil => rfl
  | cons literal literals ih => rw [numbered, List.map_cons, ih]

namespace Subject

variable {subject : Subject} {function stem : String}

theorem around_stateAfter (state : LockState) (call : Call) :
    (subject.stateAfter state call).around = state.around := by
  have after : subject.stateAfter state call = _ := stateAfter_frame state state call
  rw [after]
  rfl

section Visit

variable {activation : Activation} {node : Node}

theorem visit_of_within
    (within : LockState.inside activation.state.around.closure node.span = true) :
    subject.visit function stem activation node = activation := if_pos within

theorem visit_of_deferred :
    LockState.inside activation.state.around.closure node.span = false →
    LockState.inside activation.state.around.defer node.span = true →
    subject.visit function stem activation node =
      match node with
      | .closure literal =>
          noteClosure stem
            { activation with state := { activation.state with closureExtent := none } } literal
      | _ => { activation with state := { activation.state with closureExtent := none } } := by
  intro outside deferred
  exact (if_neg (Bool.eq_false_iff.mp outside)).trans (if_pos deferred)

theorem visit_of_past
    (outside : LockState.inside activation.state.around.closure node.span = false)
    (past : LockState.inside activation.state.around.defer node.span = false) :
    subject.visit function stem activation node =
      subject.interpret function stem
        { activation with state := activation.state.arrive node.span } node :=
  (if_neg (Bool.eq_false_iff.mp outside)).trans (if_neg (Bool.eq_false_iff.mp past))

theorem around_interpret (outside : activation.state.around = {}) :
    (subject.interpret function stem activation node).state.around = Around.next {} node := by
  have closed : activation.state.closureExtent = none := congrArg Around.closure outside
  cases node with
  | func decl => exact outside
  | closure literal =>
      have passed : activation.state.deferExtent = none := congrArg Around.defer outside
      simp [interpret, noteClosure, LockState.around, closed, passed, Around.next, LockState.inside]
  | call call => exact (around_stateAfter activation.state call).trans outside
  | defer call span =>
      simp [interpret, enterDefer, LockState.around, closed, Around.next, LockState.inside]
  | «return» span => exact (LockState.around_enterReturn activation.state span).trans outside

end Visit

/-- Tracking moves its extents the way items are told. -/
theorem around_visit (activation : Activation) (node : Node) :
    (subject.visit function stem activation node).state.around =
      activation.state.around.next node := by
  cases outside : LockState.inside activation.state.around.closure node.span with
  | true => rw [visit_of_within outside, Around.next_of_within outside]
  | false =>
      rw [Around.next_of_outside outside]
      cases past : LockState.inside activation.state.around.defer node.span with
      | true =>
          rw [visit_of_deferred outside past]
          unfold Around.next
          rw [past]
          cases node <;> rfl
      | false =>
          have arrived : (activation.state.arrive node.span).around = {} :=
            LockState.around_passReturn _ _
          rw [visit_of_past outside past, around_interpret arrived, Around.next_of_past past]

theorem map_call_encounter? {activation : Activation} {node : Node}
    (outside : LockState.inside activation.state.around.closure node.span = false) :
    (activation.encounter? node).map Encounter.call =
      Item.call? ⟨node, LockState.inside activation.state.around.defer node.span⟩ := by
  have open_closure : ¬LockState.inside activation.state.closureExtent node.span = true :=
    Bool.eq_false_iff.mp outside
  unfold Activation.encounter?
  rw [if_neg open_closure]
  change _ = Item.call? ⟨node, LockState.inside activation.state.deferExtent node.span⟩
  cases LockState.inside activation.state.deferExtent node.span <;> cases node <;> rfl

/-- The calls that an activation meets are those of its items. -/
theorem map_call_encountersFrom (activation : Activation) (nodes : List Node) :
    (subject.encountersFrom function stem activation nodes).map Encounter.call =
      (activation.state.around.scan nodes).filterMap Item.call? := by
  induction nodes generalizing activation with
  | nil => rfl
  | cons node nodes ih =>
      rw [encountersFrom, List.map_append, ih, around_visit]
      cases outside : LockState.inside activation.state.around.closure node.span with
      | true =>
          have unmet : activation.encounter? node = none := if_pos outside
          rw [unmet, Around.scan_cons_of_within outside, Around.next_of_within outside]
          rfl
      | false =>
          rw [Around.scan_cons_of_outside outside, List.filterMap_cons,
            ← map_call_encounter? outside]
          cases activation.encounter? node <;> rfl

/-- A walk notes a closure literal exactly where it finds one among its items. -/
theorem closures_visit (activation : Activation) (node : Node) (nodes : List Node) :
    (subject.visit function stem activation node).closures ++
        numbered stem (subject.visit function stem activation node).closures.length
          (Item.literals ((activation.state.around.next node).scan nodes)) =
      activation.closures ++ numbered stem activation.closures.length
        (Item.literals (activation.state.around.scan (node :: nodes))) := by
  have noted : ∀ (before : Activation) (literal : Closure) (items : List Item),
      before.closures = activation.closures →
      (noteClosure stem before literal).closures ++
          numbered stem (noteClosure stem before literal).closures.length (Item.literals items) =
        activation.closures ++ numbered stem activation.closures.length
          (literal :: Item.literals items) := by
    intro before literal items same
    rw [noteClosure, same, List.length_append, List.append_assoc]
    rfl
  cases outside : LockState.inside activation.state.around.closure node.span with
  | true =>
      rw [visit_of_within outside, Around.next_of_within outside,
        Around.scan_cons_of_within outside]
  | false =>
      rw [Around.scan_cons_of_outside outside]
      cases past : LockState.inside activation.state.around.defer node.span with
      | true =>
          rw [visit_of_deferred outside past]
          cases node with
          | closure literal => exact noted _ literal _ rfl
          | _ => rfl
      | false =>
          rw [visit_of_past outside past]
          cases node with
          | closure literal => exact noted _ literal _ rfl
          | _ => rfl

theorem closures_foldl (activation : Activation) (nodes : List Node) :
    (nodes.foldl (subject.visit function stem) activation).closures =
      activation.closures ++ numbered stem activation.closures.length
        (Item.literals (activation.state.around.scan nodes)) := by
  induction nodes generalizing activation with
  | nil => exact (List.append_nil _).symm
  | cons node nodes ih => rw [List.foldl_cons, ih, around_visit, closures_visit]

end Subject

end Relock
