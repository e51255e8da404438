import Relock.Lock.Search

/-!
# What a search can reach

A search enters declarations of the program and closure literals. A literal stands in the call that
runs it, or in a value that a binding of the program gives to a variable. So all frames of a search
come from the nodes of the program and of the call with which the search begins, and their keys are
among finitely many.
-/

namespace Relock

namespace Node

/-- Nodes among which are all parts of the calls and closure literals among them. -/
structure Closed (nodes : List Node) : Prop where
  call : ∀ site, .call site ∈ nodes → site.parts ⊆ nodes
  closure : ∀ literal, .closure literal ∈ nodes → literal.body.nodes ⊆ nodes

theorem closed_nil : Closed [] := ⟨by simp, by simp⟩

theorem Closed.append {left right : List Node} (left_closed : Closed left)
    (right_closed : Closed right) : Closed (left ++ right) := by
  constructor
  · intro site member
    rcases List.mem_append.mp member with member | member
    · exact List.Subset.trans (left_closed.call site member) (List.subset_append_left left right)
    · exact List.Subset.trans (right_closed.call site member) (List.subset_append_right left right)
  · intro literal member
    rcases List.mem_append.mp member with member | member
    · exact List.Subset.trans (left_closed.closure literal member)
        (List.subset_append_left left right)
    · exact List.Subset.trans (right_closed.closure literal member)
        (List.subset_append_right left right)

theorem Closed.flatMap {α : Type} {items : List α} {nodes : α → List Node}
    (closed : ∀ item ∈ items, Closed (nodes item)) : Closed (items.flatMap nodes) := by
  induction items with
  | nil => exact closed_nil
  | cons item items ih =>
      rw [List.flatMap_cons]
      exact (closed item List.mem_cons_self).append
        (ih fun other member => closed other (List.mem_cons_of_mem item member))

/-- A node may stand before closed nodes that hold its parts. -/
theorem Closed.cons {node : Node} {nodes : List Node} (closed : Closed nodes)
    (call : ∀ site, node = .call site → site.parts ⊆ nodes)
    (closure : ∀ literal, node = .closure literal → literal.body.nodes ⊆ nodes) :
    Closed (node :: nodes) := by
  constructor
  · intro site member
    rcases List.mem_cons.mp member with same | member
    · exact List.subset_cons_of_subset node (call site same.symm)
    · exact List.subset_cons_of_subset node (closed.call site member)
  · intro literal member
    rcases List.mem_cons.mp member with same | member
    · exact List.subset_cons_of_subset node (closure literal same.symm)
    · exact List.subset_cons_of_subset node (closed.closure literal member)

/-- A call may stand before its parts. -/
theorem closed_call {callee : Expr} {args : List Expr} (id : NodeId) (span : Span)
    (callee_closed : Closed callee.nodes) (args_closed : Closed (exprNodes args)) :
    Closed (.call ⟨id, callee, args, span⟩ :: (callee.nodes ++ exprNodes args)) := by
  refine (callee_closed.append args_closed).cons ?_ (by simp)
  intro site same
  cases same
  exact List.Subset.refl _

end Node

mutual

theorem Expr.closed_nodes : ∀ expr : Expr, Node.Closed expr.nodes
  | .ident _ => Node.closed_nil
  | .selector _ base _ _ => base.closed_nodes
  | .call id callee args span =>
      Node.closed_call id span callee.closed_nodes (closed_exprNodes args)
  | .literal _ _ _ body _ _ => by
      refine (closed_stmtNodes body).cons (by simp) ?_
      intro literal same
      cases same
      exact List.Subset.refl _
  | .paren inner _ => inner.closed_nodes
  | .unary _ operand _ => operand.closed_nodes
  | .composite _ elements _ => closed_exprNodes elements
  | .other _ parts _ => closed_exprNodes parts

theorem closed_exprNodes : ∀ exprs : List Expr, Node.Closed (exprNodes exprs)
  | [] => Node.closed_nil
  | expr :: exprs => expr.closed_nodes.append (closed_exprNodes exprs)

theorem Stmt.closed_nodes : ∀ stmt : Stmt, Node.Closed stmt.nodes
  | .expr expr => expr.closed_nodes
  | .defer id callee args callSpan _ =>
      (Node.closed_call id callSpan callee.closed_nodes (closed_exprNodes args)).cons
        (by simp) (by simp)
  | .go id callee args callSpan _ =>
      Node.closed_call id callSpan callee.closed_nodes (closed_exprNodes args)
  | .return results _ => (closed_exprNodes results).cons (by simp) (by simp)
  | .assign _ targets values _ _ => (closed_exprNodes targets).append (closed_exprNodes values)
  | .var _ _ _ values _ => closed_exprNodes values
  | .block body _ => closed_stmtNodes body
  | .compound _ parts _ => closed_stmtNodes parts

theorem closed_stmtNodes : ∀ stmts : List Stmt, Node.Closed (stmtNodes stmts)
  | [] => Node.closed_nil
  | stmt :: stmts => stmt.closed_nodes.append (closed_stmtNodes stmts)

end

namespace Node

/-- Among the nodes are those of all values that the bindings give. -/
def Hold (nodes : List Node) (bindings : List Binding) : Prop :=
  ∀ binding ∈ bindings, ∀ value ∈ binding.values, value.nodes ⊆ nodes

theorem hold_nil (nodes : List Node) : Hold nodes [] := by
  intro binding member
  cases member

theorem Hold.mono {nodes more : List Node} {bindings : List Binding} (hold : Hold nodes bindings)
    (subset : nodes ⊆ more) : Hold more bindings :=
  fun binding member value given =>
    List.Subset.trans (hold binding member value given) subset

theorem Hold.append {left right : List Node} {leftBindings rightBindings : List Binding}
    (left_hold : Hold left leftBindings) (right_hold : Hold right rightBindings) :
    Hold (left ++ right) (leftBindings ++ rightBindings) := by
  intro binding member
  rcases List.mem_append.mp member with member | member
  · exact left_hold.mono (List.subset_append_left left right) binding member
  · exact right_hold.mono (List.subset_append_right left right) binding member

theorem Hold.cons {nodes : List Node} {bindings : List Binding} (hold : Hold nodes bindings)
    {binding : Binding} (values : ∀ value ∈ binding.values, value.nodes ⊆ nodes) :
    Hold nodes (binding :: bindings) := by
  intro other member
  rcases List.mem_cons.mp member with rfl | member
  · exact values
  · exact hold other member

theorem Hold.flatMap {α : Type} {items : List α} {nodes : α → List Node}
    {bindings : α → List Binding} (hold : ∀ item ∈ items, Hold (nodes item) (bindings item)) :
    Hold (items.flatMap nodes) (items.flatMap bindings) := by
  induction items with
  | nil => exact hold_nil _
  | cons item items ih =>
      rw [List.flatMap_cons, List.flatMap_cons]
      exact (hold item List.mem_cons_self).append
        (ih fun other member => hold other (List.mem_cons_of_mem item member))

end Node

theorem nodes_subset_exprNodes {expr : Expr} {exprs : List Expr} (member : expr ∈ exprs) :
    expr.nodes ⊆ exprNodes exprs := by
  induction exprs with
  | nil => cases member
  | cons first rest ih =>
      rcases List.mem_cons.mp member with rfl | member
      · exact List.subset_append_left _ _
      · exact List.Subset.trans (ih member) (List.subset_append_right _ _)

mutual

theorem Expr.hold_bindings : ∀ expr : Expr, Node.Hold expr.nodes expr.bindings
  | .ident _ => Node.hold_nil _
  | .selector _ base _ _ => base.hold_bindings
  | .call _ callee args _ =>
      (callee.hold_bindings.append (hold_exprBindings args)).mono (List.subset_cons_self _ _)
  | .literal _ _ _ body _ _ => (hold_stmtBindings body).mono (List.subset_cons_self _ _)
  | .paren inner _ => inner.hold_bindings
  | .unary _ operand _ => operand.hold_bindings
  | .composite _ elements _ => hold_exprBindings elements
  | .other _ parts _ => hold_exprBindings parts

theorem hold_exprBindings :
    ∀ exprs : List Expr, Node.Hold (exprNodes exprs) (exprBindings exprs)
  | [] => Node.hold_nil _
  | expr :: exprs => expr.hold_bindings.append (hold_exprBindings exprs)

theorem Stmt.hold_bindings : ∀ stmt : Stmt, Node.Hold stmt.nodes stmt.bindings
  | .expr expr => expr.hold_bindings
  | .defer _ callee args _ _ =>
      (callee.hold_bindings.append (hold_exprBindings args)).mono
        (List.Subset.trans (List.subset_cons_self _ _) (List.subset_cons_self _ _))
  | .go _ callee args _ _ =>
      (callee.hold_bindings.append (hold_exprBindings args)).mono (List.subset_cons_self _ _)
  | .return results _ => (hold_exprBindings results).mono (List.subset_cons_self _ _)
  | .assign _ targets values _ _ =>
      ((hold_exprBindings targets).append (hold_exprBindings values)).cons fun _ given =>
        List.Subset.trans (nodes_subset_exprNodes given) (List.subset_append_right _ _)
  | .var _ _ _ values _ => (hold_exprBindings values).cons fun _ => nodes_subset_exprNodes
  | .block body _ => hold_stmtBindings body
  | .compound _ parts _ => hold_stmtBindings parts

theorem hold_stmtBindings :
    ∀ stmts : List Stmt, Node.Hold (stmtNodes stmts) (stmtBindings stmts)
  | [] => Node.hold_nil _
  | stmt :: stmts => stmt.hold_bindings.append (hold_stmtBindings stmts)

end

namespace Decl

theorem closed_nodes (decl : Decl) : Node.Closed decl.nodes := by
  cases decl with
  | func decl =>
      refine Node.Closed.cons ?_ (by simp) (by simp)
      cases decl.body with
      | none => exact Node.closed_nil
      | some block => exact closed_stmtNodes block.body
  | var spec => exact closed_exprNodes spec.values
  | type spec => exact Node.closed_nil

theorem hold_bindings (decl : Decl) : Node.Hold decl.nodes decl.bindings := by
  cases decl with
  | func decl =>
      refine Node.Hold.mono ?_ (List.subset_cons_self _ _)
      cases body : decl.body with
      | none => simpa [bindings, body] using Node.hold_nil []
      | some block => simpa [bindings, body, Block.nodes] using hold_stmtBindings block.body
  | var spec => exact (hold_exprBindings spec.values).cons fun _ => nodes_subset_exprNodes
  | type spec => exact Node.hold_nil _

end Decl

namespace Program

variable (program : Program)

theorem closed_nodes : Node.Closed program.nodes :=
  .flatMap fun _ _ => .flatMap fun decl _ => decl.closed_nodes

theorem hold_bindings : Node.Hold program.nodes program.bindings :=
  .flatMap fun _ _ => .flatMap fun decl _ => decl.hold_bindings

/-- The nodes of the body of a declared function are nodes of the program. -/
theorem body_subset_nodes {decl : FuncDecl} (declared : decl ∈ program.functions) {block : Block}
    (body : decl.body = some block) : block.nodes ⊆ program.nodes := by
  obtain ⟨file, file_mem, decl_mem⟩ := List.mem_flatMap.mp declared
  obtain ⟨item, item_mem, item_decl⟩ := List.mem_filterMap.mp decl_mem
  have item_eq : item = .func decl := by
    cases item <;> simp_all
  subst item_eq
  have within : block.nodes ⊆ Decl.nodes (.func decl) := by
    simp [Decl.nodes, FuncDecl.stream, body]
  intro node member
  exact List.mem_flatMap.mpr ⟨file, file_mem, List.mem_flatMap.mpr ⟨_, item_mem, within member⟩⟩

/-- A binding is found by its number only if it is one of the program. -/
theorem mem_bindings_of_bindingTable {id : NodeId} {binding : Binding}
    (found : program.bindingTable[id]? = some binding) : binding ∈ program.bindings := by
  unfold bindingTable at found
  refine List.foldlRecOn (motive := fun table : Std.TreeMap NodeId Binding =>
    ∀ (id : NodeId) (binding : Binding), table[id]? = some binding → binding ∈ program.bindings)
    _ _ ?_ ?_ id binding found
  · intro id binding found
    simp at found
  · intro table recorded first first_mem id binding found
    rw [Std.TreeMap.getElem?_insert] at found
    split at found
    · cases found
      exact first_mem
    · exact recorded id binding found

end Program

namespace ProgramIndex

/-- A declaration is found by a key only if it is one of the program and its callee has the key. -/
theorem declarationTable_spec {program : Program} {tables : Tables} {key : String} {decl : FuncDecl}
    (found : (declarationTable program tables)[key]? = some decl) :
    decl ∈ program.functions ∧ (Callee.ofDecl? tables decl).map Callee.key = some key := by
  unfold declarationTable at found
  refine List.foldlRecOn (motive := fun table : Std.TreeMap String FuncDecl =>
    ∀ (key : String) (decl : FuncDecl), table[key]? = some decl →
      decl ∈ program.functions ∧ (Callee.ofDecl? tables decl).map Callee.key = some key)
    _ _ ?_ ?_ key decl found
  · intro key decl found
    simp at found
  · intro table recorded first first_mem key decl found
    cases callee_eq : Callee.ofDecl? tables first with
    | none =>
        simp only [callee_eq] at found
        exact recorded key decl found
    | some callee =>
        simp only [callee_eq, Std.TreeMap.getElem?_insertIfNew] at found
        split at found
        · rename_i new
          cases found
          have same : callee.key = key := Std.LawfulEqOrd.eq_of_compare new.1
          exact ⟨first_mem, by rw [callee_eq, Option.map_some, same]⟩
        · exact recorded key decl found

end ProgramIndex

namespace Node

theorem mem_of_callsFrom {site : Call} {nodes : List Node} {limit : Nat}
    (member : site ∈ callsFrom limit nodes) : .call site ∈ nodes := by
  induction nodes generalizing limit with
  | nil => simp [callsFrom] at member
  | cons node nodes ih =>
      unfold callsFrom at member
      split at member
      · exact List.mem_cons_of_mem node (ih member)
      · cases node with
        | call other =>
            rcases List.mem_cons.mp member with rfl | member
            · exact List.mem_cons_self
            · exact List.mem_cons_of_mem _ (ih member)
        | _ => exact List.mem_cons_of_mem _ (ih member)

/-- The keys of the closure literals among nodes. -/
def literalKeys (nodes : List Node) : List String :=
  nodes.filterMap fun
    | closure literal => some (Callee.ofClosure literal).key
    | _ => none

theorem key_mem_literalKeys {literal : Closure} {nodes : List Node}
    (member : .closure literal ∈ nodes) : (Callee.ofClosure literal).key ∈ literalKeys nodes :=
  List.mem_filterMap.mpr ⟨_, member, rfl⟩

end Node

namespace Expr

theorem nodes_unparen (expr : Expr) : expr.unparen.nodes = expr.nodes := by
  fun_induction Expr.unparen expr with
  | case1 inner span ih => rw [ih, nodes]
  | case2 => rfl

/-- A literal in parentheses is one of the nodes. -/
theorem closure_mem_nodes {expr : Expr} {id : NodeId} {params : List Param}
    {result : Option TypeExpr} {body : List Stmt} {bodySpan span : Span}
    (literal : expr.unparen = .literal id params result body bodySpan span) :
    .closure ⟨id, params, result, ⟨body, bodySpan⟩, span⟩ ∈ expr.nodes := by
  rw [← nodes_unparen, literal, nodes]
  exact List.mem_cons_self

end Expr

namespace Subject

variable (subject : Subject)

/-- The keys of the declarations of the program, and of the closure literals among nodes. -/
def keysAmong (nodes : List Node) : List String :=
  (subject.program.functions.filterMap fun decl =>
    (Callee.ofDecl? subject.tables decl).map Callee.key) ++ Node.literalKeys nodes

/-- The keys of the declarations and closure literals of the program. -/
def programKeys : List String := subject.keysAmong subject.program.nodes

/-- The nodes from which a search that begins with a call takes its frames. -/
def sources (call : Call) : List Node := subject.program.nodes ++ call.parts

theorem closed_sources (call : Call) : Node.Closed (subject.sources call) :=
  subject.program.closed_nodes.append
    (call.callee.closed_nodes.append (closed_exprNodes call.args))

variable {subject}

theorem nodes_subset_of_boundValue? {ident : Ident} {value : Expr}
    (bound : subject.boundValue? ident = some value) : value.nodes ⊆ subject.program.nodes := by
  unfold boundValue? at bound
  simp only [Option.bind_eq_bind, Option.bind_eq_some_iff] at bound
  obtain ⟨symbol, -, bound⟩ := bound
  split at bound
  · cases bound
  · obtain ⟨id, -, bound⟩ := Option.bind_eq_some_iff.mp bound
    obtain ⟨binding, found, bound⟩ := Option.bind_eq_some_iff.mp bound
    split at bound
    · obtain ⟨position, -, given⟩ := Option.bind_eq_some_iff.mp bound
      rw [subject.index_eq] at found
      exact subject.program.hold_bindings binding
        (subject.program.mem_bindings_of_bindingTable found) value (List.mem_of_getElem? given)
    · cases bound

/-- A literal that an expression stands for is in the expression or in the program. -/
theorem closure_mem_of_closureOf? {renames : Nat} {expr : Expr} {literal : Closure}
    (closure : subject.closureOf? renames expr = some literal) :
    .closure literal ∈ subject.program.nodes ++ expr.nodes := by
  induction renames using Nat.strongRecOn generalizing expr with
  | ind renames ih =>
      unfold closureOf? at closure
      split at closure
      · rename_i unparen
        cases closure
        exact List.mem_append_right _ (Expr.closure_mem_nodes unparen)
      · rename_i fewer ident _
        obtain ⟨value, bound, closure⟩ := Option.bind_eq_some_iff.mp closure
        rcases List.mem_append.mp (ih fewer (Nat.lt_succ_self fewer) closure) with member | member
        · exact List.mem_append_left _ member
        · exact List.mem_append_left _ (nodes_subset_of_boundValue? bound member)
      · cases closure

theorem declaration?_spec {callee : Callee} {decl : FuncDecl}
    (found : subject.declaration? callee = some decl) :
    decl ∈ subject.program.functions ∧
      (Callee.ofDecl? subject.tables decl).map Callee.key = some callee.key := by
  unfold declaration? at found
  split at found
  · rw [subject.index_eq] at found
    exact ProgramIndex.declarationTable_spec found
  · cases found

/-- Entering a call gives a frame with one of the keys, and all calls of the frame stand among the
nodes, if the program and the parts of the call do. -/
theorem mem_of_enter {nodes : List Node} (closed : Node.Closed nodes)
    (program : subject.program.nodes ⊆ nodes) {lock : AccessPath} {call : Call}
    (parts : call.parts ⊆ nodes) {frame : Frame} (entered : subject.enter lock call = some frame) :
    frame.key ∈ subject.keysAmong nodes ∧ ∀ inner ∈ frame.calls, .call inner ∈ nodes := by
  unfold enter at entered
  split at entered
  · rename_i literal closure
    cases entered
    have member : .closure literal ∈ nodes := by
      rcases List.mem_append.mp (closure_mem_of_closureOf? closure) with member | member
      · exact program member
      · exact parts (List.mem_append_left _ member)
    refine ⟨List.mem_append_right _ (Node.key_mem_literalKeys member), ?_⟩
    intro inner inner_mem
    exact closed.closure literal member (Node.mem_of_callsFrom inner_mem)
  · simp only [enterDeclaration, Option.bind_eq_bind, Option.bind_eq_some_iff] at entered
    obtain ⟨callee, -, decl, found, body, body_eq, path, -, frame_eq⟩ := entered
    cases frame_eq
    obtain ⟨declared, key⟩ := declaration?_spec found
    refine ⟨List.mem_append_left _ (List.mem_filterMap.mpr ⟨decl, declared, key⟩), ?_⟩
    intro inner inner_mem
    exact program (subject.program.body_subset_nodes declared body_eq
      (Node.mem_of_callsFrom inner_mem))

end Subject

end Relock
