import Relock.Proofs.Reading.Shown

/-!
# No call disappears

Where the grammar is kept to, the calls in the stream of a function are those that stand in the
expressions of its body, each of them as often as it stands there, and perhaps some that stand in
types. The calls in the keys of composite literals are lost.
-/

namespace Relock

namespace Tree

variable {file : Nat} {label : Label} {children : List Tree}

section Forms

variable (admits : label.Admits (children.map Tree.label))
  (reads : ∀ child ∈ children, child.Reads file)
  {wrap : NodeId → Expr → List Expr → Span → Span → Stmt}

include admits reads

/-! ## Statements -/

theorem spec_shows (kind : label.kind = "var_spec" ∨ label.kind = "const_spec") :
    Yields (((node label children).reading file).spec file) fun spec =>
      (node label children).Shows (exprNodes spec.values) := by
  rw [reading_node]
  refine (Yields.any (fresh file)).bind fun id _ => ?_
  refine (Yields.any _).bind fun names _ => ?_
  refine (Yields.any _).bind fun type _ => ?_
  refine (exprsUnder_between reads "value").bind fun values between => .pure ?_
  rcases kind with kind | kind
  · refine shows_plain_slots admits reads (by rw [kind]; rfl) (by rw [kind]; decide)
      (by rw [Label.isPlain, kind]; rfl) (by decide) ?_
    simpa using between
  · refine shows_plain_slots admits reads (by rw [kind]; rfl) (by rw [kind]; decide)
      (by rw [Label.isPlain, kind]; rfl) (by decide) ?_
    simpa using between

theorem specGroups_between (kind : label.kind ∈ Label.specHolders) :
    Yields (((partsOf children).map (Tree.reading file)).mapM fun node =>
      match node.kind with
      | "var_spec" | "const_spec" => return [← node.spec file]
      | "var_spec_list" | "const_spec_list" => node.specs
      | _ => return []) fun groups =>
        Between (total must (partsOf children)) (total may (partsOf children))
          (groups.flatMap fun specs => specs.flatMap fun spec => exprNodes spec.values) := by
  refine row_between fun child member => ?_
  have child_reads := reads child (mem_of_mem_partsOf member)
  have allowed := admits.specs kind child.label (List.mem_map_of_mem (mem_of_mem_partsOf member))
  have kind_eq : (child.reading file).kind = child.label.kind := by
    rw [Reading.kind, label_reading]
  rw [kind_eq]
  split
  · rename_i is_spec
    refine (child_reads.spec (.inl is_spec)).bind fun spec shows => .pure ?_
    simpa using shows
  · rename_i is_spec
    refine (child_reads.spec (.inr is_spec)).bind fun spec shows => .pure ?_
    simpa using shows
  · rename_i is_list
    exact child_reads.specs (by rw [Tree.kind, is_list]; decide)
  · rename_i is_list
    exact child_reads.specs (by rw [Tree.kind, is_list]; decide)
  · rename_i other_kind
    have quiet : child.label.isQuiet = true := by
      refine allowed.resolve_right fun listed => ?_
      simp_all [Label.specKinds]
    refine .pure ⟨?_, Multiset.zero_le _⟩
    rw [child_reads.must_of_isQuiet quiet]
    exact Multiset.zero_le _

theorem specsOf_shows (kind : label.kind ∈ Label.specHolders) :
    Yields (Reading.specsOf file (children.map (Tree.reading file))) fun specs =>
      (node label children).Shows (specs.flatMap fun spec => exprNodes spec.values) := by
  have all_plain : ∀ kind ∈ Label.specHolders, Label.isPlainKind kind = true := by decide
  obtain ⟨-, noCall, noPair⟩ := label.isPlain_iff.mp (all_plain _ kind)
  unfold Reading.specsOf
  rw [named_readings]
  refine (specGroups_between admits reads kind).bind fun groups between => .pure ?_
  rw [flatMap_flatten]
  refine shows_row noCall noPair (between.mono (total_partsOf reads).ge ?_)
  exact total_filter_le _ _ _

theorem assignmentOf_shows (listed : Label.slots.lookup label.kind = some ["left", "right"])
    (noSwitch : label.kind ≠ "type_switch_statement") (plain : label.isPlain = true)
    (define : Bool) :
    Yields (Reading.assignmentOf file label (children.map (Tree.reading file)) define) fun stmt =>
      (node label children).Shows stmt.nodes := by
  refine (Yields.any (fresh file)).bind fun id _ => ?_
  refine (exprsUnder_between reads "left").bind fun targets targets_between => ?_
  refine (exprsUnder_between reads "right").bind fun values values_between => .pure ?_
  refine shows_plain_slots admits reads listed noSwitch plain (by decide) ?_
  simpa [Stmt.nodes] using targets_between.append values_between

theorem clauseOf_shows (kind : label.kind = "range_clause" ∨ label.kind = "receive_statement") :
    Yields (Reading.clauseOf file label (children.map (Tree.reading file))) fun stmts =>
      (node label children).Shows (stmtNodes stmts) := by
  have listed : Label.slots.lookup label.kind = some ["left", "right"] := by
    rcases kind with kind | kind <;> rw [kind] <;> rfl
  have noSwitch : label.kind ≠ "type_switch_statement" := by
    rcases kind with kind | kind <;> rw [kind] <;> decide
  have plain : label.isPlain = true := by
    rcases kind with kind | kind <;> rw [Label.isPlain, kind] <;> rfl
  unfold Reading.clauseOf
  rw [under?_readings, under?_readings]
  cases left : under? "left" children with
  | some targets =>
      refine (assignmentOf_shows admits reads listed noSwitch plain _).bind fun stmt shows => ?_
      refine .pure ?_
      rwa [stmtNodes, stmtNodes, List.append_nil]
  | none =>
      have close {nodes : List Node} (between : Between (slot must children "right")
          (slot may children "right") nodes) : (node label children).Shows nodes := by
        refine shows_plain_slots admits reads listed noSwitch plain (by decide) ?_
        simpa [slot_of_none _ left] using between
      cases right : under? "right" children with
      | some source =>
          refine (reads source (mem_of_under?_eq_some right)).expr.bind fun expr shows => ?_
          refine .pure (close ?_)
          rw [slot_of_some _ right, slot_of_some _ right, stmtNodes, stmtNodes, List.append_nil]
          exact shows
      | none =>
          refine .pure (close ?_)
          rw [slot_of_none _ right, slot_of_none _ right]
          exact .nil

omit admits reads in
/-- A deferred or spawned call is the call that its statement is made of. -/
theorem callSpans_launched (wraps : ∀ id callee args callSpan span,
      Node.callSpans (wrap id callee args callSpan span).nodes =
        Node.callSpans (Expr.call id callee args callSpan).nodes) (span : Span) (expr : Expr) :
    Node.callSpans (Reading.launched wrap span expr).nodes = Node.callSpans expr.nodes := by
  unfold Reading.launched
  split
  · exact wraps _ _ _ _ _
  · rw [Stmt.nodes]

/-- What is read from the only part of a node shows the calls of the node. -/
theorem first_shows {α : Type} {read : Reading → Numbered α} {nothing : α} {shown : α → List Node}
    (sole : label.kind ∈ Label.soleKinds) (empty : Node.callSpans (shown nothing) = [])
    (part_shows : ∀ part ∈ children,
      Yields (read (part.reading file)) fun result => part.Shows (shown result)) :
    Yields (match (Reading.named (children.map (Tree.reading file))).head? with
      | some part => read part
      | none => pure nothing) fun result => (node label children).Shows (shown result) := by
  rw [named_readings, List.head?_map]
  cases first : (partsOf children).head? with
  | none =>
      obtain ⟨all, only⟩ := shows_nil reads (label.isPlain_of_sole sole) first
      exact .pure ⟨empty.symm ▸ all, empty.symm ▸ only⟩
  | some part =>
      have member := mem_of_mem_partsOf (List.mem_of_head? first)
      exact (part_shows part member).mono fun _ shows => shows_sole admits reads sole first shows

theorem launchedOf_shows (wraps : ∀ id callee args callSpan span,
      Node.callSpans (wrap id callee args callSpan span).nodes =
        Node.callSpans (Expr.call id callee args callSpan).nodes)
    (sole : label.kind ∈ Label.soleKinds) :
    Yields (Reading.launchedOf label (children.map (Tree.reading file)) wrap) fun stmts =>
      (node label children).Shows (stmtNodes stmts) := by
  unfold Reading.launchedOf
  refine first_shows admits reads sole rfl fun part member => ?_
  refine (reads part member).expr.bind fun expr shows => .pure ?_
  have same := callSpans_launched wraps label.span expr
  rw [stmtNodes, stmtNodes, List.append_nil]
  exact ⟨same ▸ shows.all, same ▸ shows.only⟩

omit admits in
/-- The guard of a type switch is its value and the name bound to it. -/
theorem guardOf_between {value : Tree} (found : under? "value" children = some value) :
    Yields (Reading.guardOf file (children.map (Tree.reading file))) fun stmts =>
      Between (slot must children "alias" + value.must) (slot may children "alias" + value.may)
        (stmtNodes stmts) := by
  unfold Reading.guardOf
  rw [under?_readings, under?_readings, found, Option.map_some, Option.mapM_some]
  have reading_value : Yields (some <$> (value.reading file).expr)
      fun result => ∃ expr, result = some expr ∧ value.Shows expr.nodes :=
    (reads value (mem_of_under?_eq_some found)).expr.bind fun expr shows =>
      .pure ⟨expr, rfl, shows⟩
  refine reading_value.bind ?_
  rintro _ ⟨expr, rfl, shows⟩
  cases bound : under? "alias" children with
  | none =>
      refine .pure ?_
      rw [slot_of_none _ bound, slot_of_none _ bound, zero_add, zero_add, stmtNodes, stmtNodes,
        List.append_nil, Stmt.nodes]
      exact shows
  | some name =>
      refine (Yields.any (fresh file)).bind fun id _ => ?_
      refine (reads name (mem_of_under?_eq_some bound)).exprList.bind
        fun targets targets_shows => .pure ?_
      rw [slot_of_some _ bound, slot_of_some _ bound]
      simpa [stmtNodes, Stmt.nodes, exprNodes] using Between.append targets_shows shows

omit admits in
theorem compoundOf_shows (noCall : label.isCall = false) (noPair : label.isKeyed = false) :
    Yields (Reading.compoundOf label (children.map (Tree.reading file))) fun stmt =>
      (node label children).Shows stmt.nodes :=
  (parts_stmts reads).bind fun _ between => .pure (shows_row noCall noPair between)

omit admits in
/-- The label of a labelled statement has no calls. -/
theorem labeled_shows (noCall : label.isCall = false) (noPair : label.isKeyed = false) :
    Yields (Reading.body ((Reading.named (children.map (Tree.reading file))).filter
      fun node => node.kind != "label_name")) fun stmts =>
        (node label children).Shows (stmtNodes stmts) := by
  let unnamed := (partsOf children).filter fun child => child.label.kind != "label_name"
  have readings_eq : ((Reading.named (children.map (Tree.reading file))).filter
      fun node => node.kind != "label_name") = unnamed.map (Tree.reading file) := by
    rw [named_readings, List.filter_map]
    simp [unnamed, Function.comp_def, Reading.kind]
  have in_children {child : Tree} (member : child ∈ unnamed) : child ∈ children :=
    mem_of_mem_partsOf (List.mem_filter.mp member).1
  have must_eq : total must unnamed = total must children := by
    rw [← total_partsOf reads]
    refine total_filter_of_zero fun child member is_name => ?_
    have kind : child.label.kind = "label_name" := by simpa using is_name
    refine (reads child (mem_of_mem_partsOf member)).must_of_isLeaf ?_
    rw [Label.isLeaf, kind]
    simp [Label.nameKinds]
  have may_le : total may unnamed ≤ total may children :=
    (total_filter_le _ _ _).trans (total_filter_le _ _ _)
  rw [readings_eq]
  refine (row_stmts fun child member => reads child (in_children member)).mono
    fun stmts between => ?_
  exact shows_row noCall noPair (between.mono must_eq.ge may_le)

/-- The cases of a type switch are what has calls outside of its fields. -/
theorem cases_between (kind : label.kind = "type_switch_statement") :
    Yields (((Reading.named (children.map (Tree.reading file))).filter fun node =>
      node.kind == "type_case" || node.kind == "default_case").mapM
        fun node => Reading.compoundOf node.label node.children) fun stmts =>
      Between (total must (outside ["initializer", "alias", "value"] children))
        (total may (outside ["initializer", "alias", "value"] children)) (stmtNodes stmts) := by
  let others := outside ["initializer", "alias", "value"] children
  let switched := others.filter fun child => child.label.isPart && child.label.isCase
  have readings_eq : ((Reading.named (children.map (Tree.reading file))).filter fun node =>
      node.kind == "type_case" || node.kind == "default_case") =
        switched.map (Tree.reading file) := by
    have fieldless (child : Tree) (member : child ∈ children) :
        (child.label.isCase && child.label.isPart) =
          (child.label.isPart && child.label.isCase &&
            !(["initializer", "alias", "value"].contains child.label.field)) := by
      cases isCase : child.label.isCase with
      | false => simp
      | true =>
          have free := admits.cases child.label (List.mem_map_of_mem member) isCase
          cases child.label.isPart <;> simp_all
    rw [named_readings, List.filter_map, partsOf]
    simp only [switched, others, outside, List.filter_filter]
    congr 1
    refine List.filter_congr fun child member => ?_
    rw [← fieldless child member]
    simp [Reading.kind, Label.isCase]
  rw [readings_eq]
  have in_children {child : Tree} (member : child ∈ switched) : child ∈ children :=
    (List.mem_filter.mp (List.mem_filter.mp member).1).1
  have quiet (child : Tree) (member : child ∈ others)
      (unswitched : (child.label.isPart && child.label.isCase) = false) : child.must = 0 := by
    obtain ⟨member, outside⟩ := List.mem_filter.mp member
    refine (reads child member).must_of_isQuiet ?_
    have allowed := admits.slots _ (by rw [kind]; rfl) child.label (List.mem_map_of_mem member)
    cases part : child.label.isPart with
    | false => simp [Label.isQuiet, Label.isLeaf, part]
    | true => simp_all
  have between : Yields ((switched.map (Tree.reading file)).mapM
      fun node => Reading.compoundOf node.label node.children) fun stmts =>
      Between (total must switched) (total may switched) (stmts.flatMap Stmt.nodes) := by
    refine row_between fun child member => (reads child (in_children member)).case ?_
    exact (Bool.and_eq_true_iff.mp (List.mem_filter.mp member).2).2
  refine between.mono fun stmts between => ?_
  rw [stmtNodes_eq]
  exact between.mono (total_filter_of_zero quiet).ge (total_filter_le _ _ _)

theorem typeSwitchOf_shows (kind : label.kind = "type_switch_statement") :
    Yields (Reading.typeSwitchOf file label (children.map (Tree.reading file))) fun stmt =>
      (node label children).Shows stmt.nodes := by
  have noType : label.isType = false := by rw [Label.isType, kind]; decide
  have noPair : label.isKeyed = false := by rw [Label.isKeyed, kind]; decide
  have none_own : own label = 0 := by simp [own, Label.isCall, kind]
  have value_found : ∃ value, under? "value" children = some value := by
    obtain ⟨child, child_mem, field⟩ := admits.required "value" (by rw [kind]; rfl)
    obtain ⟨tree, tree_mem, rfl⟩ := List.mem_map.mp child_mem
    exact Option.isSome_iff_exists.mp (List.find?_isSome.mpr ⟨tree, tree_mem, by simp [field]⟩)
  obtain ⟨value, found⟩ := value_found
  have once (field : String) (member : field ∈ ["initializer", "alias", "value"]) :
      (children.filter fun child => child.label.field == field).length ≤ 1 := by
    have held := admits.once _ (by rw [kind]; rfl) field member
    rwa [List.filter_map, List.length_map] at held
  have finish (initial : List Stmt) (initial_between : Between (slot must children "initializer")
      (slot may children "initializer") (stmtNodes initial)) :
      Yields (do
        let guard ← Reading.guardOf file (children.map (Tree.reading file))
        let cases ← ((Reading.named (children.map (Tree.reading file))).filter fun node =>
          node.kind == "type_case" || node.kind == "default_case").mapM
            fun node => Reading.compoundOf node.label node.children
        return Stmt.compound label.kind (initial ++ guard ++ cases) label.span) fun stmt =>
          (node label children).Shows stmt.nodes := by
    refine (guardOf_between reads found).bind fun guard guard_between => ?_
    refine (cases_between admits reads kind).bind fun cases cases_between => .pure ?_
    have whole := (initial_between.append guard_between).append cases_between
    rw [Shows, must_node noType noPair, may_node noType noPair, none_own,
      total_slots (by decide) once, total_slots (by decide) once]
    simpa [Stmt.nodes, stmtNodes_eq, slot_of_some _ found, add_assoc] using whole
  unfold Reading.typeSwitchOf
  rw [under?_readings]
  cases initial : under? "initializer" children with
  | none =>
      refine finish [] ?_
      rw [slot_of_none _ initial, slot_of_none _ initial]
      exact .nil
  | some stmt =>
      refine (reads stmt (mem_of_under?_eq_some initial)).stmts.bind fun stmts shows => ?_
      refine finish stmts ?_
      rwa [slot_of_some _ initial, slot_of_some _ initial]

/-- In a statement without calls only types can stand. -/
theorem silent_shows (kind : label.kind ∈ ["empty_statement", "break_statement",
    "continue_statement", "goto_statement", "fallthrough_statement", "type_declaration",
    "comment"]) : (node label children).Shows [] := by
  cases type : label.isType with
  | true =>
      refine ⟨?_, Multiset.zero_le _⟩
      rw [must_of_isType type]
      exact Multiset.zero_le _
  | false =>
      have empty : ∀ kind ∈ ["empty_statement", "break_statement", "continue_statement",
          "goto_statement", "fallthrough_statement", "type_declaration", "comment"],
          Label.typeKinds.contains kind = false →
            Label.slots.lookup kind = some [] ∧ kind ≠ "type_switch_statement" ∧
              Label.isPlainKind kind = true := by decide
      obtain ⟨listed, noSwitch, plain⟩ := empty _ kind type
      exact shows_plain_slots admits reads listed noSwitch plain List.nodup_nil Between.nil

theorem stmtsOf_shows : Yields (Reading.stmtsOf file label (children.map (Tree.reading file)))
    fun stmts => (node label children).Shows (stmtNodes stmts) := by
  have kind_of {form : StmtForm} (is_form : StmtForm.ofKind label.kind = form)
      (kinds : List String) (listed : (form ≠ .compound ∧ form ≠ .bare) ∧
        ∀ entry ∈ StmtForm.table, entry.2 = form → entry.1 ∈ kinds) : label.kind ∈ kinds :=
    listed.2 _ (StmtForm.mem_table is_form listed.1.1 listed.1.2) rfl
  have plain_of {kinds : List String} (kind : label.kind ∈ kinds)
      (all : ∀ kind ∈ kinds, Label.isPlainKind kind = true) : label.isPlain = true := all _ kind
  have one {stmt : Stmt} (shows : (node label children).Shows stmt.nodes) :
      (node label children).Shows (stmtNodes [stmt]) := by
    rwa [stmtNodes, stmtNodes, List.append_nil]
  unfold Reading.stmtsOf
  cases form : StmtForm.ofKind label.kind with
  | sequence =>
      have kind := kind_of form ["statement_list"] (by decide)
      obtain ⟨-, noCall, noPair⟩ := label.isPlain_iff.mp (plain_of kind (by decide))
      exact (parts_stmts reads).mono fun stmts between => shows_row noCall noPair between
  | labeled =>
      have kind := kind_of form ["labeled_statement"] (by decide)
      obtain ⟨-, noCall, noPair⟩ := label.isPlain_iff.mp (plain_of kind (by decide))
      exact labeled_shows reads noCall noPair
  | expression =>
      have kind := kind_of form ["expression_statement"] (by decide)
      have sole : label.kind ∈ Label.soleKinds := by rw [List.mem_singleton.mp kind]; decide
      refine first_shows admits reads sole rfl fun part member => ?_
      refine (reads part member).expr.bind fun expr shows => .pure ?_
      rwa [stmtNodes, stmtNodes, Stmt.nodes, List.append_nil]
  | assignment define =>
      have kind := kind_of form ["short_var_declaration", "assignment_statement"]
        (by simp [StmtForm.table])
      have listed : Label.slots.lookup label.kind = some ["left", "right"] := by
        have all : ∀ kind ∈ ["short_var_declaration", "assignment_statement"],
          Label.slots.lookup kind = some ["left", "right"] := by decide
        exact all _ kind
      have noSwitch : label.kind ≠ "type_switch_statement" := by
        intro same
        rw [same] at kind
        exact absurd kind (by decide)
      refine (assignmentOf_shows admits reads listed noSwitch
        (plain_of kind (by decide)) define).bind fun stmt shows => .pure (one shows)
  | clause =>
      have kind := kind_of form ["range_clause", "receive_statement"] (by decide)
      exact clauseOf_shows admits reads (by simpa using kind)
  | deferred =>
      have kind := kind_of form ["defer_statement"] (by decide)
      have sole : label.kind ∈ Label.soleKinds := by rw [List.mem_singleton.mp kind]; decide
      refine launchedOf_shows admits reads (fun _ _ _ _ _ => ?_) sole
      rw [Stmt.nodes, Expr.nodes]
      rfl
  | spawned =>
      have kind := kind_of form ["go_statement"] (by decide)
      have sole : label.kind ∈ Label.soleKinds := by rw [List.mem_singleton.mp kind]; decide
      refine launchedOf_shows admits reads (fun _ _ _ _ _ => ?_) sole
      rw [Stmt.nodes, Expr.nodes]
  | «return» =>
      have kind := kind_of form ["return_statement"] (by decide)
      have sole : label.kind ∈ Label.soleKinds := by rw [List.mem_singleton.mp kind]; decide
      simp only [pure_bind]
      refine first_shows admits reads sole rfl fun part member => ?_
      refine (reads part member).exprList.bind fun results shows => .pure ?_
      rw [stmtNodes, stmtNodes, List.append_nil, Stmt.nodes]
      exact Between.cons shows (by simp)
  | declaration =>
      have kind := kind_of form ["var_declaration", "const_declaration"] (by decide)
      have holder : label.kind ∈ Label.specHolders := by
        have all : ∀ kind ∈ ["var_declaration", "const_declaration"], kind ∈ Label.specHolders := by
          decide
        exact all _ kind
      refine (specsOf_shows admits reads holder).bind fun specs shows => .pure ?_
      rw [stmtNodes_eq, List.flatMap_map]
      simpa only [Stmt.nodes] using shows
  | block =>
      have kind := kind_of form ["block"] (by decide)
      obtain ⟨-, noCall, noPair⟩ := label.isPlain_iff.mp (plain_of kind (by decide))
      refine (parts_stmts reads).bind fun stmts between => .pure (one ?_)
      rw [Stmt.nodes]
      exact shows_row noCall noPair between
  | typeSwitch =>
      have kind := kind_of form ["type_switch_statement"] (by decide)
      exact (typeSwitchOf_shows admits reads (List.mem_singleton.mp kind)).bind
        fun stmt shows => .pure (one shows)
  | silent =>
      have kind := kind_of form
        ["empty_statement", "break_statement", "continue_statement", "goto_statement",
          "fallthrough_statement", "type_declaration", "comment"] (by decide)
      exact .pure (silent_shows admits reads kind)
  | compound =>
      have apart {kind : String} (known : StmtForm.ofKind kind ≠ .compound) :
          (label.kind == kind) = false :=
        beq_eq_false_iff_ne.mpr fun same => known (same ▸ form)
      exact (compoundOf_shows reads (apart (by decide)) (apart (by decide))).bind
        fun stmt shows => .pure (one shows)
  | bare =>
      refine (exprOf_shows admits reads).bind fun expr shows => .pure (one ?_)
      rwa [Stmt.nodes]

/-- Where the children of a node show their calls, the node does. -/
theorem reads_node : (node label children).Reads file := by
  constructor
  case leaf =>
    intro leaf
    obtain ⟨no_labels, noCall⟩ := admits.leaf leaf
    have none_left : children = [] := List.map_eq_nil_iff.mp no_labels
    subst none_left
    have noCall : label.isCall = false := noCall
    simp [may, calls, typeCalls, callsAt, rowCallsAt, pairCallsAt, noCall]
  case expr =>
    rw [reading_node]
    exact exprOf_shows admits reads
  case stmts =>
    rw [reading_node]
    exact stmtsOf_shows admits reads
  case exprs =>
    intro plain
    obtain ⟨-, noCall, noPair⟩ := label.isPlain_iff.mp plain
    rw [reading_node]
    exact (parts_exprs reads).mono fun exprs between => shows_row noCall noPair between
  case body =>
    intro plain
    obtain ⟨-, noCall, noPair⟩ := label.isPlain_iff.mp plain
    rw [reading_node]
    exact (parts_stmts reads).mono fun stmts between => shows_row noCall noPair between
  case specs =>
    intro holder
    rw [reading_node]
    exact specsOf_shows admits reads holder
  case spec => exact spec_shows admits reads

end Forms

/-- Reading a tree that keeps to the grammar shows its calls. -/
theorem reads_of_isGrammatical (file : Nat) (tree : Tree)
    (grammatical : tree.isGrammatical = true) : tree.Reads file := by
  induction tree with
  | node label children ih =>
      rw [isGrammatical_node] at grammatical
      exact reads_node grammatical.1 fun child member =>
        ih child member (grammatical.2 child member)

/-! ## Functions -/

/-- The node declares a function or method. -/
def isFunction (tree : Tree) : Bool :=
  tree.kind == "function_declaration" || tree.kind == "method_declaration"

/-- The body of a declaration. -/
def body? : Tree → Option Tree
  | node _ children => under? "body" children

/-- The calls that stand in expressions of the body of a declaration, outside types and keys. -/
def bodyCalls (tree : Tree) : List Span := (tree.body?.map calls).getD []

/-- The calls that stand in types in the body of a declaration. -/
def bodyTypeCalls (tree : Tree) : List Span := (tree.body?.map typeCalls).getD []

/-- The stream of a declaration has the calls of the body of a node, and perhaps some in types. -/
structure Streams (tree : Tree) (decl : FuncDecl) : Prop where
  all : tree.bodyCalls.Subperm (Node.callSpans decl.stream)
  only : (Node.callSpans decl.stream).Subperm (tree.bodyCalls ++ tree.bodyTypeCalls)

theorem funcDecl_streams (file : Nat) (tree : Tree) (grammatical : tree.isGrammatical = true)
    (function : tree.isFunction = true) :
    Yields ((tree.reading file).funcDecl file) tree.Streams := by
  obtain ⟨label, children⟩ := tree
  obtain ⟨admits, each⟩ := (isGrammatical_node label children).mp grammatical
  rw [reading_node]
  refine (Yields.any (fresh file)).bind fun id _ => ?_
  refine (Yields.any _).bind fun name _ => ?_
  refine (Yields.any _).bind fun receiver _ => ?_
  refine (Yields.any _).bind fun params _ => ?_
  refine (Yields.any _).bind fun result _ => ?_
  rw [show (Reading.ofChildren file label (children.map (Tree.reading file))).children =
    children.map (Tree.reading file) from rfl, under?_readings]
  cases found : under? "body" children with
  | none =>
      refine .pure ⟨?_, ?_⟩
      · simp [bodyCalls, body?, found]
      · simp [FuncDecl.stream, Node.callSpans]
  | some block =>
      have holder : Label.holders.lookup (label.kind, "body") = some ["block"] := by
        rw [isFunction, Bool.or_eq_true, beq_iff_eq, beq_iff_eq] at function
        have kind : label.kind = "function_declaration" ∨ label.kind = "method_declaration" :=
          function
        rcases kind with kind | kind <;> rw [kind] <;> rfl
      have plain := plain_of_holder admits holder (by decide) found
      have reads := reads_of_isGrammatical file block (each block (mem_of_under?_eq_some found))
      have block_shows : Yields (do
          let stmts ← Reading.body (Reading.named (block.reading file).children)
          return some (⟨stmts, (block.reading file).span⟩ : Block)) fun result =>
            ∃ body, result = some body ∧ block.Shows body.nodes :=
        (reads.body plain).bind fun stmts shows => .pure ⟨_, rfl, shows⟩
      refine block_shows.bind ?_
      rintro _ ⟨body, rfl, shows⟩
      have calls_eq : (node label children).bodyCalls = block.calls := by
        simp [bodyCalls, body?, found]
      have typeCalls_eq : (node label children).bodyTypeCalls = block.typeCalls := by
        simp [bodyTypeCalls, body?, found]
      refine .pure ⟨?_, ?_⟩
      · rw [calls_eq]
        exact Multiset.coe_le.mp shows.all
      · rw [calls_eq, typeCalls_eq]
        exact Multiset.coe_le.mp shows.only

/-- The functions among declarations. -/
def functionsOf (decls : List Decl) : List FuncDecl :=
  decls.filterMap fun
    | .func decl => some decl
    | _ => none

theorem functionsOf_append (left right : List Decl) :
    functionsOf (left ++ right) = functionsOf left ++ functionsOf right :=
  List.filterMap_append

/-- Only nodes that declare functions are read as functions. -/
theorem functionsOf_decls (file : Nat) {tree : Tree} (other : tree.isFunction = false) :
    Yields (Reading.decls file (tree.reading file)) fun group => functionsOf group = [] := by
  have kind_eq : (tree.reading file).kind = tree.kind := by
    rw [Reading.kind, label_reading, Tree.kind]
  rw [isFunction, Bool.or_eq_false_iff, beq_eq_false_iff_ne, beq_eq_false_iff_ne] at other
  unfold Reading.decls
  rw [kind_eq]
  split
  · rename_i kind
    exact absurd kind other.1
  · rename_i kind
    exact absurd kind other.2
  · refine (Yields.any _).bind fun specs _ => .pure ?_
    simp [functionsOf]
  · refine (Yields.any _).bind fun specs _ => .pure ?_
    simp [functionsOf]
  · refine (Yields.mapM_all fun spec _ => (?_ : Yields _ fun decl : Decl =>
      ∃ spec, decl = .type spec)).mono fun group types => ?_
    · exact (Yields.any _).bind fun spec _ => .pure ⟨spec, rfl⟩
    · rw [functionsOf, List.filterMap_eq_nil_iff]
      intro decl member
      obtain ⟨spec, rfl⟩ := types decl member
      rfl
  · exact .pure rfl

/-- A node that declares a function is read as one. -/
theorem function_decls {tree : Tree} (grammatical : tree.isGrammatical = true)
    (function : tree.isFunction = true) :
    Yields (Reading.decls file (tree.reading file)) fun group =>
      ∃ decl, group = [.func decl] ∧ tree.Streams decl := by
  have streams := funcDecl_streams file tree grammatical function
  have kind_eq : (tree.reading file).kind = tree.kind := by
    rw [Reading.kind, label_reading, Tree.kind]
  rw [isFunction, Bool.or_eq_true, beq_iff_eq, beq_iff_eq] at function
  unfold Reading.decls
  rw [kind_eq]
  rcases function with kind | kind
  · rw [kind]
    exact streams.bind fun decl streams => .pure ⟨decl, rfl, streams⟩
  · rw [kind]
    exact streams.bind fun decl streams => .pure ⟨decl, rfl, streams⟩

theorem decls_stream (file : Nat) (trees : List Tree)
    (grammatical : ∀ tree ∈ trees, tree.isGrammatical = true) :
    Yields ((trees.map (Tree.reading file)).mapM (Reading.decls file)) fun groups =>
      List.Forall₂ Streams (trees.filter isFunction) (functionsOf groups.flatten) := by
  induction trees with
  | nil => exact .pure .nil
  | cons tree trees ih =>
      rw [List.forall_mem_cons] at grammatical
      rw [List.map_cons, List.mapM_cons]
      cases function : tree.isFunction with
      | false =>
          refine (functionsOf_decls file function).bind fun group none_first => ?_
          refine (ih grammatical.2).bind fun groups streams => .pure ?_
          rw [List.filter_cons_of_neg (by simp [function]), List.flatten_cons, functionsOf_append,
            none_first]
          exact streams
      | true =>
          refine (function_decls grammatical.1 function).bind ?_
          rintro _ ⟨decl, rfl, first⟩
          refine (ih grammatical.2).bind fun groups streams => .pure ?_
          rw [List.filter_cons_of_pos function, List.flatten_cons, functionsOf_append]
          exact .cons first streams

/-- In every file that keeps to the grammar, the functions are those that its tree declares, in
order, and the calls of each are those that stand in expressions of its body, each of them as often
as it stands there; at most calls in types come with them. -/
theorem functions_stream_calls (number : Nat) (path : String) (tree : Tree)
    (grammatical : tree.isGrammatical = true) :
    List.Forall₂ Streams ((partsOf tree.children).filter isFunction)
      (tree.toFile number path).functions := by
  obtain ⟨label, children⟩ := tree
  obtain ⟨-, each⟩ := (isGrammatical_node label children).mp grammatical
  have streams := decls_stream number (partsOf children) fun child member =>
    each child (mem_of_mem_partsOf member)
  have reading_file : Yields (((node label children).reading number).file number path) fun file =>
      List.Forall₂ Streams ((partsOf children).filter isFunction) file.functions := by
    rw [reading_node]
    unfold Reading.file
    rw [show (Reading.ofChildren number label (children.map (Tree.reading number))).children =
      children.map (Tree.reading number) from rfl, named_readings]
    exact streams.bind fun groups streams => .pure streams
  exact reading_file 0

/-- The deferred call, the call in the literal, the one in the guard and the one returned. -/
theorem branching_stream_calls : Sample.branching.isGrammatical = true ∧
    ((partsOf Sample.branching.children).filter isFunction).map bodyCalls =
      [[⟨18, 34, 0, 0, 0, 0⟩, ⟨27, 30, 0, 0, 0, 0⟩, ⟨48, 51, 0, 0, 0, 0⟩, ⟨79, 83, 0, 0, 0, 0⟩]] ∧
    List.Forall₂ Streams ((partsOf Sample.branching.children).filter isFunction)
      (Sample.branching.toFile 0 "a.go").functions := by
  have grammatical : Sample.branching.isGrammatical = true := by decide +kernel
  exact ⟨grammatical, by decide +kernel, functions_stream_calls 0 "a.go" _ grammatical⟩

/-- A function that makes a map with a call for a key. -/
def keyedByCall : Tree :=
  Sample.tree "source_file" "" 0 43
    [Sample.tree "function_declaration" "" 0 43
      [Sample.tree "identifier" "name" 5 6 [], Sample.tree "parameter_list" "parameters" 6 8 [],
        Sample.tree "block" "body" 9 43
          [Sample.tree "assignment_statement" "" 12 40
            [Sample.tree "expression_list" "left" 12 13 [Sample.tree "identifier" "" 12 13 []],
              Sample.tree "expression_list" "right" 16 40
                [Sample.tree "composite_literal" "" 16 40
                  [Sample.tree "map_type" "type" 16 30
                    [Sample.tree "type_identifier" "key" 20 26 [],
                      Sample.tree "type_identifier" "value" 27 30 []],
                    Sample.tree "literal_value" "body" 30 40
                      [Sample.tree "keyed_element" "" 31 39
                        [Sample.tree "literal_element" "" 31 36 [Sample.callTree "" 31 36 []],
                          Sample.tree "literal_element" "" 38 39
                            [Sample.tree "int_literal" "" 38 39 []]]]]]]]]]

/-- The call in the key is not in the stream of the function. -/
theorem keyedByCall_loses_call : keyedByCall.isGrammatical = true ∧
    keyedByCall.keyCalls = [⟨31, 36, 0, 0, 0, 0⟩] ∧
    (keyedByCall.toFile 0 "a.go").functions.map
      (fun decl => Node.callSpans decl.stream) = [[]] := by
  decide +kernel

end Tree

end Relock
