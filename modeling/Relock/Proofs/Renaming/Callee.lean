import Relock.Lock.Callee
import Relock.Lock.Path
import Relock.Proofs.Program.Marks
import Relock.Proofs.Renaming.Basic

/-!
# Access paths and callees under other numbers

Paths are compared by the numbers of entities, so that paths with corresponding numbers compare in
the same way. What an expression spells, and what it denotes when it is called, corresponds in
tables that match.
-/

namespace Relock

variable (moved : Renaming)

/-! ## Paths -/

namespace PathNode

/-- The step with its new number. -/
def rename (node : PathNode) : PathNode := { node with symbol := moved.symbol node.symbol }

theorem same_rename (left right : PathNode) :
    (left.rename moved).same (right.rename moved) = left.same right := by
  rw [Bool.eq_iff_iff, same, same, beq_iff_eq, beq_iff_eq]
  exact moved.symbol_injective.eq_iff

end PathNode

namespace AccessPath

/-- The path with new numbers. -/
def rename (path : AccessPath) : AccessPath :=
  ⟨path.root.rename moved, path.rest.map (PathNode.rename moved)⟩

@[simp]
theorem nodes_rename (path : AccessPath) :
    (path.rename moved).nodes = path.nodes.map (PathNode.rename moved) := rfl

@[simp]
theorem length_rename (path : AccessPath) : (path.rename moved).length = path.length := by
  simp [length]

theorem snoc_rename (path : AccessPath) (node : PathNode) :
    (path.snoc node).rename moved = (path.rename moved).snoc (node.rename moved) := by
  simp [rename, snoc]

theorem last_rename (path : AccessPath) :
    (path.rename moved).last = path.last.rename moved := by
  rw [last, last, rename, List.getLastD_eq_getLast?, List.getLastD_eq_getLast?, List.getLast?_map]
  cases path.rest.getLast? <;> rfl

theorem agree_map (left right : List PathNode) :
    agree (left.map (PathNode.rename moved)) (right.map (PathNode.rename moved)) =
      agree left right := by
  simp only [agree, List.zip_map, List.all_map]
  congr 1
  funext pair
  exact pair.1.same_rename moved pair.2

theorem equal_rename (left right : AccessPath) (offset : Nat) :
    (left.rename moved).equal (right.rename moved) offset = left.equal right offset := by
  simp only [equal, length_rename, nodes_rename, ← List.map_take, agree_map]

theorem stripFront_rename (path : AccessPath) (front : List PathNode) :
    (path.rename moved).stripFront (front.map (PathNode.rename moved)) =
      (path.stripFront front).map (rename moved) := by
  have starts : (path.rename moved).startsWith (front.map (PathNode.rename moved)) =
      path.startsWith front := by
    simp only [startsWith, length_rename, nodes_rename, agree_map, List.length_map]
  simp only [stripFront, starts, length_rename, nodes_rename, List.length_map, List.isEmpty_map,
    ← List.map_drop]
  rw [apply_ite (Option.map (rename moved))]
  cases path.nodes.drop (front.length - 1) <;> rfl

theorem suffix_rename (path call : AccessPath) :
    (path.rename moved).suffix (call.rename moved) = (path.suffix call).map (rename moved) := by
  simp only [suffix, length_rename, nodes_rename, ← List.map_dropLast, stripFront_rename]
  rw [apply_ite (Option.map (rename moved))]
  rfl

theorem describeTarget_rename (path : AccessPath) :
    (path.rename moved).describeTarget = path.describeTarget := by
  have names (nodes : List PathNode) :
      dotted (nodes.map (PathNode.rename moved)) = dotted nodes := by
    rw [dotted, dotted, List.map_map]
    rfl
  have single : (path.rename moved).rest.isEmpty = path.rest.isEmpty := List.isEmpty_map
  simp only [describeTarget, describe, nodes_rename, ← List.map_dropLast, names, single]

end AccessPath

/-! ## Callees -/

namespace Callee

/-- The callee with new numbers. -/
def rename : Callee → Callee
  | function package name => function (moved.package package) name
  | method package name receiver shown =>
      method (moved.package package) name (receiver.rename moved) shown
  | value package name symbol => value (moved.package package) name (moved.symbol symbol)
  | literal file offset line => literal (moved.file file) offset line

@[simp]
theorem name_rename (callee : Callee) : (callee.rename moved).name = callee.name := by
  cases callee <;> rfl

@[simp]
theorem display_rename (callee : Callee) : (callee.rename moved).display = callee.display := by
  cases callee <;> rfl

@[simp]
theorem isDeclared_rename (callee : Callee) :
    (callee.rename moved).isDeclared = callee.isDeclared := by
  cases callee <;> rfl

theorem package?_rename (callee : Callee) :
    (callee.rename moved).package? = callee.package?.map moved.package := by
  cases callee <;> rfl

theorem receiverName_rename (type : TypeRef) :
    receiverName (type.rename moved) = receiverName type := by
  rw [receiverName, receiverName, TypeRef.named?_rename]
  cases type.named? <;> rfl

theorem ofClosure_renumber (literal : Closure) :
    ofClosure (literal.renumber moved.file) = (ofClosure literal).rename moved := rfl

end Callee

/-! ## In tables that match -/

namespace Tables.Matches

variable {moved} {view : View} {left right : Tables} (same : left.Matches moved view right)
include same

theorem isInterface_eq (full : view.Full) (type : TypeRef) :
    right.isInterface (type.rename moved) = left.isInterface type := by
  rw [isInterface, isInterface, TypeRef.named?_rename]
  cases type.named? with
  | none => rfl
  | some ref =>
      rcases same.namedRenamed full ref with ⟨missing, other_missing⟩ |
        ⟨⟨made, _⟩, ⟨other, _⟩, found, other_found, renamed, -⟩
      · simp [missing, other_missing]
      · simp only [Option.map_some, Option.bind_some, found, other_found]
        cases made <;> cases other <;> first | rfl | exact renamed.elim

theorem selection_eq {node : NodeId} (seen : view.node node) :
    right.selection (node.renumber moved.file) = (left.selection node).map moved.symbol :=
  same.selections node seen

theorem path_eq {expr : Expr} (seen : ∀ mark ∈ expr.marks, view.node mark.id) :
    AccessPath.ofExpr? right (expr.renumber moved.file) =
      (AccessPath.ofExpr? left expr).map (AccessPath.rename moved) := by
  have chosen {id : NodeId} {base : Expr} {member : Ident} {span : Span}
      (seen : ∀ mark ∈ (Expr.selector id base member span).marks, view.node mark.id) :
      (right.selection (id.renumber moved.file)).or
          (right.objectOf (member.renumber moved.file)) =
        ((left.selection id).or (left.objectOf member)).map moved.symbol := by
    rw [Option.map_or, same.selection_eq (seen ⟨id, .selector member.id⟩ (by simp [Expr.marks])),
      same.objectOf_eq (seen ⟨member.id, .member id⟩ (by simp [Expr.marks]))]
  fun_induction AccessPath.ofExpr? left expr with
  | case1 ident =>
      have here := same.objectOf_eq (seen ident.mark (by simp [Expr.marks]))
      rw [Expr.renumber, AccessPath.ofExpr?, here]
      cases left.objectOf ident <;> rfl
  | case2 id base member span symbol symbol_eq ih =>
      rw [Expr.renumber, AccessPath.ofExpr?, chosen seen, symbol_eq, Option.map_some]
      dsimp only
      rw [ih fun mark marked => seen mark (by simp [Expr.marks, marked]), Option.map_map,
        Option.map_map]
      congr 1
      funext path
      exact (path.snoc_rename moved (.ofIdent member symbol)).symm
  | case3 id base member span missing =>
      rw [Expr.renumber, AccessPath.ofExpr?, chosen seen, missing]
      rfl
  | case4 inner span ih =>
      rw [Expr.renumber, AccessPath.ofExpr?]
      exact ih seen
  | case5 expr no_ident no_selector no_paren =>
      cases expr with
      | ident ident => exact absurd rfl (no_ident ident)
      | selector id base member span => exact absurd rfl (no_selector id base member span)
      | paren inner span => exact absurd rfl (no_paren inner span)
      | _ => simp [Expr.renumber, AccessPath.ofExpr?]

variable (full : view.Full) (typed : ∀ id, view.typed id)
include full typed

theorem ofSymbolId?_eq (id : SymbolId) :
    Callee.ofSymbolId? right (moved.symbol id) =
      (Callee.ofSymbolId? left id).map (Callee.rename moved) := by
  rw [Callee.ofSymbolId?, Callee.ofSymbolId?, same.symbol?_eq (typed id)]
  cases left.symbol? id with
  | none => rfl
  | some symbol =>
      obtain ⟨name, kind, package, type, decl⟩ := symbol
      have shown := Callee.receiverName_rename moved
      cases kind with
      | method receiver =>
          simp only [Option.map_some, Option.bind_some, Callee.ofSymbol, Symbol.rename,
            SymbolKind.rename, same.isInterface_eq full, shown]
          split <;> rfl
      | var | field => cases type <;> rfl
      | _ => rfl

theorem callee_eq {expr : Expr} (seen : ∀ mark ∈ expr.marks, view.node mark.id) :
    Callee.ofExpr? right (expr.renumber moved.file) =
      (Callee.ofExpr? left expr).map (Callee.rename moved) := by
  have known := same.ofSymbolId?_eq full typed
  rw [Callee.ofExpr?, Callee.ofExpr?, Expr.unparen_renumber]
  rw [← Expr.marks_unparen] at seen
  cases called : expr.unparen with
  | ident ident =>
      have here := same.objectOf_eq (seen ident.mark (by simp [called, Expr.marks]))
      simp only [Expr.renumber, here]
      cases left.objectOf ident with
      | none => rfl
      | some id => exact known id
  | selector id base member span =>
      have here := same.selection_eq
        (seen ⟨id, .selector member.id⟩ (by simp [called, Expr.marks]))
      simp only [Expr.renumber, here]
      cases left.selection id with
      | none => rfl
      | some id => exact known id
  | literal => simp [Expr.renumber, Callee.rename, NodeId.renumber]
  | _ => simp [Expr.renumber]

omit full in
theorem ofDecl?_eq {decl : FuncDecl} (seen : ∀ mark ∈ decl.marks, view.node mark.id) :
    Callee.ofDecl? right (decl.renumber moved.file) =
      (Callee.ofDecl? left decl).map (Callee.rename moved) := by
  have name := same.objectOf_eq (seen ⟨decl.name.id, .function decl⟩ (by simp [FuncDecl.marks]))
  have receiver := same.receivers decl.id (seen ⟨decl.id, .declaration decl⟩ List.mem_cons_self)
  have renamed_name : (decl.renumber moved.file).name = decl.name.renumber moved.file := rfl
  rw [Callee.ofDecl?, Callee.ofDecl?, renamed_name, name]
  cases left.objectOf decl.name with
  | none => rfl
  | some id =>
      simp only [Option.map_some, Option.bind_some, same.symbol?_eq (typed id)]
      cases left.symbol? id with
      | none => rfl
      | some symbol =>
          obtain ⟨_, kind, package, type, place⟩ := symbol
          cases kind with
          | method holder =>
              simp only [Option.map_some, Symbol.rename, SymbolKind.rename, receiverType?]
              rw [show (decl.renumber moved.file).id = decl.id.renumber moved.file from rfl, receiver]
              cases left.receivers[decl.id]? with
              | none => rfl
              | some type => simp [Callee.rename, Callee.receiverName_rename]
          | _ => rfl

end Tables.Matches

end Relock
