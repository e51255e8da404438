import Relock.Proofs.Reading.Grammar

/-!
# Calls that show

Reading chooses among the children of many nodes, leaves out levels and keeps the rest as it is.
This file says what it means that the calls of a tree show in what the tree is read as, and that
they do for expressions when they do for their parts.
-/

namespace Relock

theorem exprNodes_eq (exprs : List Expr) : exprNodes exprs = exprs.flatMap Expr.nodes := by
  induction exprs with
  | nil => rfl
  | cons expr exprs ih => rw [exprNodes, ih, List.flatMap_cons]

theorem stmtNodes_eq (stmts : List Stmt) : stmtNodes stmts = stmts.flatMap Stmt.nodes := by
  induction stmts with
  | nil => rfl
  | cons stmt stmts ih => rw [stmtNodes, ih, List.flatMap_cons]

namespace Node

/-- The ranges of the calls among nodes. -/
def callSpans (nodes : List Node) : List Span :=
  nodes.filterMap fun
    | .call site => some site.span
    | _ => none

@[simp]
theorem callSpans_append (left right : List Node) :
    callSpans (left ++ right) = callSpans left ++ callSpans right :=
  List.filterMap_append

@[simp]
theorem callSpans_call (site : Call) (nodes : List Node) :
    callSpans (.call site :: nodes) = site.span :: callSpans nodes := rfl

end Node

/-- The calls among nodes are at least the first and at most the second. -/
structure Between (must may : Multiset Span) (nodes : List Node) : Prop where
  all : must ≤ Node.callSpans nodes
  only : Node.callSpans nodes ≤ may

namespace Between

variable {must may fewer more : Multiset Span} {nodes later : List Node}

theorem nil : Between 0 0 [] := ⟨le_refl _, le_refl _⟩

theorem append (first : Between must may nodes) (second : Between fewer more later) :
    Between (must + fewer) (may + more) (nodes ++ later) := by
  constructor
  · rw [Node.callSpans_append, ← Multiset.coe_add]
    exact add_le_add first.all second.all
  · rw [Node.callSpans_append, ← Multiset.coe_add]
    exact add_le_add first.only second.only

theorem mono (between : Between must may nodes) (fewer_le : fewer ≤ must) (may_le : may ≤ more) :
    Between fewer more nodes :=
  ⟨fewer_le.trans between.all, between.only.trans may_le⟩

theorem call (between : Between must may nodes) (site : Call) :
    Between ({site.span} + must) ({site.span} + may) (.call site :: nodes) := by
  constructor
  · rw [Node.callSpans_call, ← Multiset.cons_coe, ← Multiset.singleton_add]
    exact add_le_add_right between.all _
  · rw [Node.callSpans_call, ← Multiset.cons_coe, ← Multiset.singleton_add]
    exact add_le_add_right between.only _

/-- A node that is no call does not count. -/
theorem cons (between : Between must may nodes) {node : Node} (noCall : ∀ site, node ≠ .call site) :
    Between must may (node :: nodes) := by
  have same : Node.callSpans (node :: nodes) = Node.callSpans nodes := by
    cases node with
    | call site => exact absurd rfl (noCall site)
    | _ => rfl
  exact ⟨same ▸ between.all, same ▸ between.only⟩

end Between

namespace Tree

/-- The calls among nodes are those of a tree that must show, and some that may. -/
def Shows (tree : Tree) (nodes : List Node) : Prop := Between tree.must tree.may nodes

/-- Whatever a tree is read as, its calls show. -/
structure Reads (file : Nat) (tree : Tree) : Prop where
  /-- A leaf has no calls. -/
  leaf : tree.label.isLeaf = true → tree.may = 0
  expr : Yields (tree.reading file).expr fun expr => tree.Shows expr.nodes
  stmts : Yields (tree.reading file).stmts fun stmts => tree.Shows (stmtNodes stmts)
  exprs : tree.label.isPlain = true →
    Yields (Reading.exprs (Reading.named (tree.reading file).children)) fun exprs =>
      tree.Shows (exprNodes exprs)
  body : tree.label.isPlain = true →
    Yields (Reading.body (Reading.named (tree.reading file).children)) fun stmts =>
      tree.Shows (stmtNodes stmts)
  specs : tree.kind ∈ Label.specHolders →
    Yields (tree.reading file).specs fun specs =>
      tree.Shows (specs.flatMap fun spec => exprNodes spec.values)
  spec : tree.kind = "var_spec" ∨ tree.kind = "const_spec" →
    Yields ((tree.reading file).spec file) fun spec => tree.Shows (exprNodes spec.values)

variable {file : Nat} {label : Label} {tree : Tree} {children trees : List Tree}

theorem must_le_may (tree : Tree) : tree.must ≤ tree.may := Multiset.le_add_right _ _

theorem Reads.must_of_isLeaf (reads : tree.Reads file) (leaf : tree.label.isLeaf = true) :
    tree.must = 0 :=
  Multiset.le_zero.mp (reads.leaf leaf ▸ tree.must_le_may)

theorem Reads.must_of_isQuiet (reads : tree.Reads file) (quiet : tree.label.isQuiet = true) :
    tree.must = 0 := by
  rw [Label.isQuiet, Bool.or_eq_true] at quiet
  rcases quiet with leaf | type
  · exact reads.must_of_isLeaf leaf
  · cases tree
    exact must_of_isType type

/-! ## Readings of children -/

theorem named_readings (children : List Tree) :
    Reading.named (children.map (Tree.reading file)) =
      (partsOf children).map (Tree.reading file) := by
  simp [Reading.named, partsOf, List.filter_map, Function.comp_def, Label.isPart]

theorem under?_readings (field : String) (children : List Tree) :
    Reading.under? field (children.map (Tree.reading file)) =
      (under? field children).map (Tree.reading file) := by
  simp only [Reading.under?, under?, List.find?_map, Function.comp_def, label_reading]

theorem mem_of_mem_partsOf (member : tree ∈ partsOf children) : tree ∈ children :=
  (List.mem_filter.mp member).1

theorem mem_of_under?_eq_some {field : String} (found : under? field children = some tree) :
    tree ∈ children :=
  List.mem_of_find?_eq_some found

/-- What is read from trees side by side stands side by side. -/
theorem row_between {α : Type} {action : Reading → Numbered α} {nodesOf : α → List Node}
    (each : ∀ tree ∈ trees, Yields (action (tree.reading file)) fun result =>
      tree.Shows (nodesOf result)) :
    Yields ((trees.map (Tree.reading file)).mapM action) fun results =>
      Between (total must trees) (total may trees) (results.flatMap nodesOf) := by
  induction trees with
  | nil => exact .pure .nil
  | cons tree trees ih =>
      rw [List.forall_mem_cons] at each
      rw [List.map_cons, List.mapM_cons, total_cons, total_cons]
      refine each.1.bind fun result shows => ?_
      refine (ih each.2).bind fun results between => .pure ?_
      rw [List.flatMap_cons]
      exact Between.append shows between

section Row

variable (reads : ∀ tree ∈ trees, tree.Reads file)
include reads

theorem row_exprs : Yields (Reading.exprs (trees.map (Tree.reading file))) fun exprs =>
    Between (total must trees) (total may trees) (exprNodes exprs) :=
  (row_between fun tree member => (reads tree member).expr).mono fun exprs between => by
    rwa [exprNodes_eq]

theorem row_stmts : Yields (Reading.body (trees.map (Tree.reading file))) fun stmts =>
    Between (total must trees) (total may trees) (stmtNodes stmts) := by
  refine (row_between fun tree member => (reads tree member).stmts).bind fun groups between => ?_
  refine .pure ?_
  rw [stmtNodes_eq, flatMap_flatten]
  simpa only [← stmtNodes_eq] using between

/-- Punctuation and comments have no part in what is counted. -/
theorem total_partsOf : total must (partsOf trees) = total must trees :=
  total_filter_of_zero fun tree member noPart =>
    (reads tree member).must_of_isLeaf (by simp [Label.isLeaf, noPart])

theorem parts_exprs : Yields (Reading.exprs (Reading.named (trees.map (Tree.reading file))))
    fun exprs => Between (total must trees) (total may trees) (exprNodes exprs) := by
  rw [named_readings]
  refine (row_exprs fun tree member => reads tree (mem_of_mem_partsOf member)).mono
    fun exprs between => ?_
  exact between.mono (total_partsOf reads).ge (total_filter_le _ _ _)

theorem parts_stmts : Yields (Reading.body (Reading.named (trees.map (Tree.reading file))))
    fun stmts => Between (total must trees) (total may trees) (stmtNodes stmts) := by
  rw [named_readings]
  refine (row_stmts fun tree member => reads tree (mem_of_mem_partsOf member)).mono
    fun stmts between => ?_
  exact between.mono (total_partsOf reads).ge (total_filter_le _ _ _)

end Row

theorem slot_of_some {field : String} (weight : Tree → Multiset Span)
    (found : under? field children = some tree) : slot weight children field = weight tree := by
  simp [slot, found]

theorem slot_of_none {field : String} (weight : Tree → Multiset Span)
    (missing : under? field children = none) : slot weight children field = 0 := by
  simp [slot, missing]

/-- Of a list of expressions every expression is read. -/
theorem Reads.exprList (reads : tree.Reads file) : Yields (tree.reading file).exprList
    fun exprs => tree.Shows (exprNodes exprs) := by
  unfold Reading.exprList
  split
  · rename_i is_list
    refine reads.exprs ?_
    have kind : tree.label.kind = "expression_list" := by
      simpa [Reading.kind] using is_list
    rw [Label.isPlain, kind]
    rfl
  · refine reads.expr.bind fun expr shows => .pure ?_
    rwa [exprNodes, exprNodes, List.append_nil]

theorem exprsUnder_between (reads : ∀ child ∈ children, child.Reads file) (field : String) :
    Yields (Reading.exprsUnder field (children.map (Tree.reading file))) fun exprs =>
      Between (slot must children field) (slot may children field) (exprNodes exprs) := by
  unfold Reading.exprsUnder
  rw [under?_readings]
  cases found : under? field children with
  | none =>
      rw [slot_of_none _ found, slot_of_none _ found]
      exact .pure .nil
  | some child =>
      rw [slot_of_some _ found, slot_of_some _ found]
      exact (reads child (mem_of_under?_eq_some found)).exprList

/-- A case of a type switch shows what its parts show. -/
theorem Reads.case (reads : tree.Reads file) (isCase : tree.label.isCase = true) :
    Yields (Reading.compoundOf (tree.reading file).label (tree.reading file).children) fun stmt =>
      tree.Shows stmt.nodes := by
  have plain : tree.label.isPlain = true := by
    rw [Label.isCase, Bool.or_eq_true, beq_iff_eq, beq_iff_eq] at isCase
    rcases isCase with kind | kind <;> rw [Label.isPlain, kind] <;> rfl
  exact (reads.body plain).bind fun _ shows => .pure shows

/-! ## Nodes -/

theorem shows_row (noCall : label.isCall = false) (noPair : label.isKeyed = false)
    {nodes : List Node} (between : Between (total must children) (total may children) nodes) :
    (node label children).Shows nodes := by
  cases type : label.isType with
  | true =>
      refine between.mono ?_ (may_of_isType type)
      rw [must_of_isType type]
      exact Multiset.zero_le _
  | false =>
      refine between.mono ?_ ?_
      · rw [must_node type noPair, own, noCall]
        simp
      · rw [may_node type noPair, own, noCall]
        simp

section Forms

variable (admits : label.Admits (children.map Tree.label))
  (reads : ∀ child ∈ children, child.Reads file) {fields : List String} {nodes : List Node}

include reads

theorem otherOf_shows (plain : label.isCall = false ∧ label.isKeyed = false) :
    Yields (Reading.otherOf label (children.map (Tree.reading file))) fun expr =>
      (node label children).Shows expr.nodes :=
  (parts_exprs reads).bind fun _ between => .pure (shows_row plain.1 plain.2 between)

include admits

/-- Of a node whose parts stand in fields the calls are those in the fields. -/
theorem shows_slots (listed : Label.slots.lookup label.kind = some fields)
    (noSwitch : label.kind ≠ "type_switch_statement") (noType : label.isType = false)
    (noPair : label.isKeyed = false) (nodup : fields.Nodup)
    (between : Between (own label + (fields.map (slot must children)).sum)
      (own label + (fields.map (slot may children)).sum) nodes) :
    (node label children).Shows nodes := by
  have once (field : String) (member : field ∈ fields) :
      (children.filter fun child => child.label.field == field).length ≤ 1 := by
    have held := admits.once fields listed field member
    rwa [List.filter_map, List.length_map] at held
  have others : total must (outside fields children) = 0 := by
    refine total_eq_zero fun child member => ?_
    obtain ⟨member, outside⟩ := List.mem_filter.mp member
    have allowed := admits.slots fields listed child.label (List.mem_map_of_mem member)
    refine (reads child member).must_of_isQuiet ?_
    simp_all
  refine between.mono ?_ ?_
  · rw [must_node noType noPair, total_slots nodup once, others, add_zero]
  · rw [may_node noType noPair, total_slots nodup once, ← add_assoc]
    exact Multiset.le_add_right _ _

theorem shows_plain_slots (listed : Label.slots.lookup label.kind = some fields)
    (noSwitch : label.kind ≠ "type_switch_statement") (plain : label.isPlain = true)
    (nodup : fields.Nodup) (between : Between (fields.map (slot must children)).sum
      (fields.map (slot may children)).sum nodes) : (node label children).Shows nodes := by
  obtain ⟨noType, noCall, noPair⟩ := label.isPlain_iff.mp plain
  have none_own : own label = 0 := by simp [own, noCall]
  refine shows_slots admits reads listed noSwitch noType noPair nodup ?_
  rwa [none_own, zero_add, zero_add]

omit reads in
/-- The node that holds a list in a field of another node has parts of one sort. -/
theorem plain_of_holder {field : String} {kinds : List String}
    (listed : Label.holders.lookup (label.kind, field) = some kinds)
    (all : ∀ kind ∈ kinds, Label.isPlainKind kind = true)
    (found : under? field children = some tree) : tree.label.isPlain = true := by
  have matching := List.find?_some found
  have field_eq : tree.label.field = field := eq_of_beq matching
  have member : tree.label ∈ children.map Tree.label :=
    List.mem_map_of_mem (mem_of_under?_eq_some found)
  exact all _ (admits.holders tree.label member kinds (field_eq ▸ listed))

/-! ### Expressions -/

theorem selectorOf_shows (kind : label.kind = "selector_expression") :
    Yields (Reading.selectorOf file label (children.map (Tree.reading file))) fun expr =>
      (node label children).Shows expr.nodes := by
  have plain : label.isPlain = true := by rw [Label.isPlain, kind]; rfl
  have other := otherOf_shows reads (label.isPlain_iff.mp plain).2
  refine (Yields.any (fresh file)).bind fun id _ => ?_
  rw [under?_readings]
  cases found : under? "operand" children with
  | none => exact other
  | some operand =>
      split
      · rename_i reading field operand_eq _
        cases operand_eq
        refine (reads operand (mem_of_under?_eq_some found)).expr.bind fun base shows => ?_
        refine (Yields.any _).bind fun member _ => .pure ?_
        refine shows_plain_slots admits reads (by rw [kind]; rfl) (by rw [kind]; decide) plain
          (by decide) ?_
        have between : Between operand.must operand.may base.nodes := shows
        simpa [slot_of_some _ found, Expr.nodes] using between
      · exact other

theorem callOf_shows (kind : label.kind = "call_expression") :
    Yields (Reading.callOf file label (children.map (Tree.reading file))) fun expr =>
      (node label children).Shows expr.nodes := by
  have own_eq : own label = {label.span} := by simp [own, Label.isCall, kind]
  refine (Yields.any (fresh file)).bind fun id _ => ?_
  rw [under?_readings, under?_readings]
  cases found : under? "function" children with
  | none =>
      obtain ⟨child, child_mem, field⟩ := admits.required "function" (by rw [kind]; rfl)
      obtain ⟨tree, tree_mem, rfl⟩ := List.mem_map.mp child_mem
      have absent := List.find?_eq_none.mp found tree tree_mem
      simp [field] at absent
  | some function =>
      refine (reads function (mem_of_under?_eq_some found)).expr.bind fun callee callee_shows => ?_
      have close {args : List Expr} (between : Between (slot must children "arguments")
          (slot may children "arguments") (exprNodes args)) :
          (node label children).Shows (Expr.call id callee args label.span).nodes := by
        refine shows_slots admits reads (by rw [kind]; rfl) (by rw [kind]; decide)
          (by rw [Label.isType, kind]; decide) (by rw [Label.isKeyed, kind]; decide) (by decide) ?_
        rw [own_eq]
        have whole := (Between.append callee_shows between).call ⟨id, callee, args, label.span⟩
        simpa [slot_of_some _ found, Expr.nodes] using whole
      cases arguments : under? "arguments" children with
      | none =>
          refine .pure (close ?_)
          rw [slot_of_none _ arguments, slot_of_none _ arguments]
          exact .nil
      | some list =>
          have plain := plain_of_holder admits (by rw [kind]; rfl) (by decide) arguments
          refine ((reads list (mem_of_under?_eq_some arguments)).exprs plain).bind
            fun args shows => .pure (close ?_)
          rwa [slot_of_some _ arguments, slot_of_some _ arguments]

/-- A literal shows what its body shows. -/
theorem shows_body (kind : label.kind = "func_literal" ∨ label.kind = "composite_literal")
    (between : Between (slot must children "body") (slot may children "body") nodes) :
    (node label children).Shows nodes := by
  rcases kind with kind | kind
  all_goals
    refine shows_plain_slots admits reads (by rw [kind]; rfl) (by rw [kind]; decide)
      (by rw [Label.isPlain, kind]; rfl) (by decide) ?_
    simpa using between

theorem closureOf_shows (kind : label.kind = "func_literal") :
    Yields (Reading.closureOf file label (children.map (Tree.reading file))) fun expr =>
      (node label children).Shows expr.nodes := by
  refine (Yields.any (fresh file)).bind fun id _ => ?_
  refine (Yields.any _).bind fun params _ => ?_
  refine (Yields.any _).bind fun result _ => ?_
  rw [under?_readings]
  cases found : under? "body" children with
  | none =>
      refine .pure (shows_body admits reads (.inl kind) ?_)
      rw [slot_of_none _ found, slot_of_none _ found]
      exact Between.nil.cons (by simp)
  | some block =>
      have plain := plain_of_holder admits (by rw [kind]; rfl) (by decide) found
      refine ((reads block (mem_of_under?_eq_some found)).body plain).bind
        fun stmts shows => .pure (shows_body admits reads (.inl kind) ?_)
      rw [slot_of_some _ found, slot_of_some _ found]
      exact Between.cons shows (by simp)

theorem compositeOf_shows (kind : label.kind = "composite_literal") :
    Yields (Reading.compositeOf label (children.map (Tree.reading file))) fun expr =>
      (node label children).Shows expr.nodes := by
  refine (Yields.any _).bind fun type _ => ?_
  rw [under?_readings]
  cases found : under? "body" children with
  | none =>
      refine .pure (shows_body admits reads (.inr kind) ?_)
      rw [slot_of_none _ found, slot_of_none _ found]
      exact .nil
  | some list =>
      have plain := plain_of_holder admits (by rw [kind]; rfl) (by decide) found
      refine ((reads list (mem_of_under?_eq_some found)).exprs plain).bind
        fun elements shows => .pure (shows_body admits reads (.inr kind) ?_)
      rwa [slot_of_some _ found, slot_of_some _ found]

omit reads in
theorem length_partsOf (sole : label.kind ∈ Label.soleKinds) : (partsOf children).length ≤ 1 := by
  have bound := admits.sole sole
  rwa [List.filter_map, List.length_map] at bound

/-- A node with one part shows what the part shows. -/
theorem shows_sole (sole : label.kind ∈ Label.soleKinds) {part : Tree}
    (first : (partsOf children).head? = some part) (shows : part.Shows nodes) :
    (node label children).Shows nodes := by
  obtain ⟨-, noCall, noPair⟩ := label.isPlain_iff.mp (label.isPlain_of_sole sole)
  have parts_eq : partsOf children = [part] := by
    have alone := length_partsOf admits sole
    cases parts : partsOf children with
    | nil => simp [parts] at first
    | cons child more =>
        have none_left : more = [] := List.length_eq_zero_iff.mp (by simpa [parts] using alone)
        simp_all
  have must_eq : part.must = total must children := by
    rw [← total_partsOf reads, parts_eq, total_cons, total_nil, add_zero]
  have may_le : part.may ≤ total may children := by
    have below := total_filter_le may (fun child => child.label.isPart) children
    rwa [← partsOf, parts_eq, total_cons, total_nil, add_zero] at below
  exact shows_row noCall noPair (Between.mono shows must_eq.ge may_le)

omit admits in
/-- A node without parts has no calls. -/
theorem shows_nil (plain : label.isPlain = true) (none_first : (partsOf children).head? = none) :
    (node label children).Shows [] := by
  obtain ⟨-, noCall, noPair⟩ := label.isPlain_iff.mp plain
  have must_eq : total must children = 0 := by
    rw [← total_partsOf reads, List.head?_eq_none_iff.mp none_first, total_nil]
  exact shows_row noCall noPair (Between.nil.mono must_eq.le (Multiset.zero_le _))

theorem parenOf_shows (kind : label.kind = "parenthesized_expression") :
    Yields (Reading.parenOf label (children.map (Tree.reading file))) fun expr =>
      (node label children).Shows expr.nodes := by
  have plain : label.isPlain = true := by rw [Label.isPlain, kind]; rfl
  unfold Reading.parenOf
  rw [named_readings, List.head?_map]
  cases first : (partsOf children).head? with
  | none => exact otherOf_shows reads (label.isPlain_iff.mp plain).2
  | some part =>
      have member := mem_of_mem_partsOf (List.mem_of_head? first)
      refine (reads part member).expr.bind fun inner shows => .pure ?_
      exact shows_sole admits reads (by rw [kind]; decide) first shows

theorem unaryOf_shows (kind : label.kind = "unary_expression") :
    Yields (Reading.unaryOf label (children.map (Tree.reading file))) fun expr =>
      (node label children).Shows expr.nodes := by
  have plain : label.isPlain = true := by rw [Label.isPlain, kind]; rfl
  unfold Reading.unaryOf
  rw [under?_readings]
  cases found : under? "operand" children with
  | none => exact otherOf_shows reads (label.isPlain_iff.mp plain).2
  | some operand =>
      refine (reads operand (mem_of_under?_eq_some found)).expr.bind fun inner shows => .pure ?_
      refine shows_plain_slots admits reads (by rw [kind]; rfl) (by rw [kind]; decide) plain
        (by decide) ?_
      have between : Between operand.must operand.may inner.nodes := shows
      simpa [slot_of_some _ found, Expr.nodes] using between

theorem element_shows (kind : label.kind = "literal_element" ∨ label.kind = "element") :
    Yields (Reading.soleOf label (children.map (Tree.reading file))
      (Reading.named (children.map (Tree.reading file))).head?) fun expr =>
      (node label children).Shows expr.nodes := by
  have sole : label.kind ∈ Label.soleKinds := by
    rcases kind with kind | kind <;> rw [kind] <;> decide
  have plain : label.isPlain = true := by
    rcases kind with kind | kind <;> rw [Label.isPlain, kind] <;> rfl
  unfold Reading.soleOf
  rw [named_readings, List.head?_map]
  cases first : (partsOf children).head? with
  | none => exact otherOf_shows reads (label.isPlain_iff.mp plain).2
  | some part =>
      have member := mem_of_mem_partsOf (List.mem_of_head? first)
      exact (reads part member).expr.mono fun expr shows => shows_sole admits reads sole first shows

omit admits in
/-- Of an element with a key only the value is read. -/
theorem keyedElement_shows (kind : label.kind = "keyed_element") :
    Yields (Reading.soleOf label (children.map (Tree.reading file))
      (Reading.named (children.map (Tree.reading file))).getLast?) fun expr =>
      (node label children).Shows expr.nodes := by
  have noType : label.isType = false := by rw [Label.isType, kind]; decide
  have noCall : label.isCall = false := by rw [Label.isCall, kind]; decide
  have keyed : label.isKeyed = true := by rw [Label.isKeyed, kind]; decide
  have must_eq := must_of_isKeyed noType noCall keyed fun child member noPart =>
    (reads child member).must_of_isLeaf (by simp [Label.isLeaf, noPart])
  have may_le : ((partsOf children).getLast?.map may).getD 0 ≤ (node label children).may :=
    may_of_isKeyed noType noCall keyed
  unfold Reading.soleOf
  rw [named_readings, List.getLast?_map]
  cases last : (partsOf children).getLast? with
  | none =>
      have no_parts : partsOf children = [] := List.getLast?_eq_none_iff.mp last
      rw [Option.map_none]
      unfold Reading.otherOf
      rw [named_readings, no_parts]
      refine .pure ⟨?_, Multiset.zero_le _⟩
      rw [must_eq, last]
      exact Multiset.zero_le _
  | some value =>
      have member := mem_of_mem_partsOf (List.mem_of_getLast? last)
      refine (reads value member).expr.mono fun expr shows => ?_
      rw [last] at must_eq may_le
      exact Between.mono shows must_eq.le may_le

theorem exprOf_shows : Yields (Reading.exprOf file label (children.map (Tree.reading file)))
    fun expr => (node label children).Shows expr.nodes := by
  have kind_of {form : ExprForm} (is_form : ExprForm.ofKind label.kind = form)
      (special : form ≠ .other) (kinds : List String)
      (listed : ∀ entry ∈ ExprForm.table, entry.2 = form → entry.1 ∈ kinds) :
      label.kind ∈ kinds :=
    listed _ (ExprForm.mem_table is_form special) rfl
  have only {form : ExprForm} {kind : String} (is_form : ExprForm.ofKind label.kind = form)
      (special : form ≠ .other)
      (listed : ∀ entry ∈ ExprForm.table, entry.2 = form → entry.1 ∈ [kind]) : label.kind = kind :=
    List.mem_singleton.mp (kind_of is_form special _ listed)
  unfold Reading.exprOf
  cases form : ExprForm.ofKind label.kind with
  | name =>
      have kind : label.kind ∈ Label.nameKinds := kind_of form (by decide) _ (by decide)
      have leaf : label.isLeaf = true := by simp [Label.isLeaf, kind]
      obtain ⟨no_labels, noCall⟩ := admits.leaf leaf
      refine (Yields.any (fresh file)).bind fun id _ => .pure ?_
      have none_left : children = [] := List.map_eq_nil_iff.mp no_labels
      subst none_left
      have plain : label.isPlain = true := by
        have all_plain : ∀ kind ∈ Label.nameKinds, Label.isPlainKind kind = true := by decide
        exact all_plain _ kind
      exact shows_nil reads plain rfl
  | selector => exact selectorOf_shows admits reads (only form (by decide) (by decide))
  | call => exact callOf_shows admits reads (only form (by decide) (by decide))
  | closure => exact closureOf_shows admits reads (only form (by decide) (by decide))
  | paren => exact parenOf_shows admits reads (only form (by decide) (by decide))
  | unary => exact unaryOf_shows admits reads (only form (by decide) (by decide))
  | composite => exact compositeOf_shows admits reads (only form (by decide) (by decide))
  | element =>
      have kind := kind_of form (by decide) ["literal_element", "element"] (by decide)
      exact element_shows admits reads (by simpa using kind)
  | keyedElement => exact keyedElement_shows reads (only form (by decide) (by decide))
  | other =>
      have apart {kind : String} (known : ExprForm.ofKind kind ≠ .other) :
          (label.kind == kind) = false :=
        beq_eq_false_iff_ne.mpr fun same => known (same ▸ form)
      exact otherOf_shows reads ⟨apart (by decide), apart (by decide)⟩

end Forms

end Tree

end Relock
