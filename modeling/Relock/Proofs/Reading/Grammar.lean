import Mathlib.Algebra.BigOperators.Group.List.Basic
import Mathlib.Algebra.Order.Group.Multiset
import Relock.Proofs.Reading.Layout

/-!
# Calls in concrete trees

Where the calls of a body stand in its tree, and what the grammar of Go says of the nodes among
whose children reading chooses. A call stands in an expression unless it stands in a type, as in the
length of an array type, or in the key of an element of a composite literal.
-/

namespace Relock

namespace Label

/-- The kinds of nodes that are types, or in which only types and names stand. -/
def typeKinds : List String :=
  ["array_type", "channel_type", "function_type", "generic_type", "implicit_length_array_type",
    "interface_type", "map_type", "negated_type", "parameter_list", "parenthesized_type",
    "pointer_type", "qualified_type", "slice_type", "struct_type", "type_arguments",
    "type_declaration", "type_elem", "type_parameter_list"]

/-- The node is a type. -/
def isType (label : Label) : Bool := typeKinds.contains label.kind

/-- The node is a call. -/
def isCall (label : Label) : Bool := label.kind == "call_expression"

/-- The node is an element with a key. -/
def isKeyed (label : Label) : Bool := label.kind == "keyed_element"

/-- Nodes of the kind are no calls themselves, and all their parts are of one sort. -/
def isPlainKind (kind : String) : Bool :=
  !typeKinds.contains kind && kind != "call_expression" && kind != "keyed_element"

/-- The node is no call itself, and all its parts are of one sort. -/
def isPlain (label : Label) : Bool := isPlainKind label.kind

theorem isPlain_iff (label : Label) : label.isPlain = true ↔
    label.isType = false ∧ label.isCall = false ∧ label.isKeyed = false := by
  simp [isPlain, isPlainKind, isType, isCall, isKeyed, and_assoc]

/-- The node stands for a rule of the grammar and may not stand just anywhere. -/
def isPart (label : Label) : Bool := label.named && !label.extra

end Label

/-- Where a node of a body stands. -/
inductive Place where
  | expression
  /-- In the key of an element of a composite literal. -/
  | key
  | type
deriving DecidableEq, Repr

namespace Place

/-- The place of what stands in a node. -/
def inside (place : Place) (label : Label) : Place := if label.isType then type else place

/-- The place of a key. -/
def ofKey : Place → Place
  | type => type
  | _ => key

end Place

namespace Tree

mutual

/-- The ranges of the calls of a tree that stand in the wanted place, when the tree itself stands in
the place `here`. -/
def callsAt (wanted here : Place) : Tree → List Span
  | node label children =>
      (if label.isCall ∧ here.inside label = wanted then [label.span] else []) ++
        if label.isKeyed then
          pairCallsAt wanted (here.inside label) children
        else
          rowCallsAt wanted (here.inside label) children

/-- The same for trees side by side. -/
def rowCallsAt (wanted here : Place) : List Tree → List Span
  | [] => []
  | tree :: trees => tree.callsAt wanted here ++ rowCallsAt wanted here trees

/-- The same for the parts of an element with a key, the last of which is the value. -/
def pairCallsAt (wanted here : Place) : List Tree → List Span
  | [] => []
  | tree :: trees =>
      let isKey := trees.any fun later => later.label.isPart
      tree.callsAt wanted (if isKey then here.ofKey else here) ++ pairCallsAt wanted here trees

end

/-- The calls that stand in expressions of a tree, outside types and keys. -/
def calls (tree : Tree) : List Span := tree.callsAt .expression .expression

/-- The calls that stand in keys. -/
def keyCalls (tree : Tree) : List Span := tree.callsAt .key .expression

/-- The calls that stand in types. -/
def typeCalls (tree : Tree) : List Span := tree.callsAt .type .expression

end Tree

/-! ## Grammar -/

namespace Label

/-- Nodes of these kinds are names. -/
def nameKinds : List String :=
  ["identifier", "type_identifier", "field_identifier", "package_identifier", "label_name"]

/-- The node has no children: punctuation, a comment or a name. -/
def isLeaf (label : Label) : Bool := !label.isPart || nameKinds.contains label.kind

/-- No call stands in an expression of the node. -/
def isQuiet (label : Label) : Bool := label.isLeaf || label.isType

/-- The fields that hold the expressions and statements of a node, for the kinds of nodes that hold
nothing of the sort outside of fields, the cases of a type switch apart. -/
def slots : List (String × List String) :=
  [("selector_expression", ["operand"]), ("call_expression", ["function", "arguments"]),
    ("func_literal", ["body"]), ("unary_expression", ["operand"]),
    ("composite_literal", ["body"]), ("short_var_declaration", ["left", "right"]),
    ("assignment_statement", ["left", "right"]), ("range_clause", ["left", "right"]),
    ("receive_statement", ["left", "right"]), ("var_spec", ["value"]), ("const_spec", ["value"]),
    ("type_switch_statement", ["initializer", "alias", "value"]), ("empty_statement", []),
    ("break_statement", []), ("continue_statement", []), ("goto_statement", []),
    ("fallthrough_statement", []), ("comment", [])]

/-- The field without which a node of a kind is not complete. -/
def required : List (String × String) :=
  [("call_expression", "function"), ("type_switch_statement", "value")]

/-- The kinds of the nodes that hold the parts of a node in its stead. -/
def holders : List ((String × String) × List String) :=
  [(("call_expression", "arguments"), ["argument_list", "special_argument_list"]),
    (("func_literal", "body"), ["block"]), (("composite_literal", "body"), ["literal_value"]),
    (("function_declaration", "body"), ["block"]), (("method_declaration", "body"), ["block"])]

/-- The kinds of nodes with one part. -/
def soleKinds : List String :=
  ["parenthesized_expression", "literal_element", "element", "expression_statement",
    "defer_statement", "go_statement", "return_statement"]

theorem isPlain_of_sole (label : Label) (sole : label.kind ∈ soleKinds) : label.isPlain = true := by
  have all_plain : ∀ kind ∈ soleKinds, isPlainKind kind = true := by decide
  exact all_plain _ sole

/-- The kinds of declarations of variables and constants, alone and in groups. -/
def specKinds : List String := ["var_spec", "const_spec", "var_spec_list", "const_spec_list"]

/-- The kinds of nodes whose parts are such declarations. -/
def specHolders : List String :=
  ["var_declaration", "const_declaration", "var_spec_list", "const_spec_list"]

/-- The grammar lets a node have the children. -/
structure Admits (label : Label) (children : List Label) : Prop where
  leaf : label.isLeaf = true → children = [] ∧ label.isCall = false
  slots : ∀ fields ∈ slots.lookup label.kind, ∀ child ∈ children,
    child.field ∈ fields ∨ child.isQuiet = true ∨
      label.kind = "type_switch_statement" ∧ child.isCase = true
  once : ∀ fields ∈ Label.slots.lookup label.kind, ∀ field ∈ fields,
    (children.filter fun child => child.field == field).length ≤ 1
  required : ∀ field ∈ required.lookup label.kind, ∃ child ∈ children, child.field = field
  holders : ∀ child ∈ children, ∀ kinds ∈ holders.lookup (label.kind, child.field),
    child.kind ∈ kinds
  sole : label.kind ∈ soleKinds → (children.filter isPart).length ≤ 1
  specs : label.kind ∈ specHolders → ∀ child ∈ children,
    child.isQuiet = true ∨ child.kind ∈ specKinds
  cases : ∀ child ∈ children, child.isCase = true → child.field ∉ ["initializer", "alias", "value"]

instance (label : Label) (children : List Label) : Decidable (label.Admits children) :=
  decidable_of_iff
    ((label.isLeaf = true → children = [] ∧ label.isCall = false) ∧
      (∀ fields ∈ Label.slots.lookup label.kind, ∀ child ∈ children,
        child.field ∈ fields ∨ child.isQuiet = true ∨
          label.kind = "type_switch_statement" ∧ child.isCase = true) ∧
      (∀ fields ∈ Label.slots.lookup label.kind, ∀ field ∈ fields,
        (children.filter fun child => child.field == field).length ≤ 1) ∧
      (∀ field ∈ Label.required.lookup label.kind, ∃ child ∈ children, child.field = field) ∧
      (∀ child ∈ children, ∀ kinds ∈ Label.holders.lookup (label.kind, child.field),
        child.kind ∈ kinds) ∧
      (label.kind ∈ soleKinds → (children.filter isPart).length ≤ 1) ∧
      (label.kind ∈ specHolders → ∀ child ∈ children,
        child.isQuiet = true ∨ child.kind ∈ specKinds) ∧
      ∀ child ∈ children, child.isCase = true → child.field ∉ ["initializer", "alias", "value"])
    ⟨fun ⟨leaf, slots, once, required, holders, sole, specs, cases⟩ =>
        ⟨leaf, slots, once, required, holders, sole, specs, cases⟩,
      fun ⟨leaf, slots, once, required, holders, sole, specs, cases⟩ =>
        ⟨leaf, slots, once, required, holders, sole, specs, cases⟩⟩

end Label

namespace Tree

mutual

/-- The grammar lets every node of a tree have its children. -/
def isGrammatical : Tree → Bool
  | node label children =>
      decide (label.Admits (children.map Tree.label)) && areGrammatical children

/-- The same for all trees of a list. -/
def areGrammatical : List Tree → Bool
  | [] => true
  | tree :: trees => isGrammatical tree && areGrammatical trees

end

theorem areGrammatical_iff (trees : List Tree) :
    areGrammatical trees = true ↔ ∀ tree ∈ trees, tree.isGrammatical = true := by
  induction trees with
  | nil => simp [areGrammatical]
  | cons tree trees ih => simp [areGrammatical, ih]

theorem isGrammatical_node (label : Label) (children : List Tree) :
    (node label children).isGrammatical = true ↔
      label.Admits (children.map Tree.label) ∧ ∀ child ∈ children, child.isGrammatical = true := by
  rw [isGrammatical, Bool.and_eq_true, decide_eq_true_eq, areGrammatical_iff]

end Tree

/-! ## Counting calls -/

namespace Tree

/-- The calls of a tree that have to show in what it is read as. -/
def must (tree : Tree) : Multiset Span := tree.calls

/-- The calls of a tree that may show in what it is read as. -/
def may (tree : Tree) : Multiset Span := tree.calls + tree.typeCalls

/-- The sum over trees side by side. -/
def total (weight : Tree → Multiset Span) (trees : List Tree) : Multiset Span :=
  (trees.map weight).sum

section Total

variable {weight heavier : Tree → Multiset Span} {trees : List Tree}

@[simp]
theorem total_nil (weight : Tree → Multiset Span) : total weight [] = 0 := rfl

@[simp]
theorem total_cons (weight : Tree → Multiset Span) (tree : Tree) (trees : List Tree) :
    total weight (tree :: trees) = weight tree + total weight trees := by
  simp [total]

theorem total_filter_add (weight : Tree → Multiset Span) (chosen : Tree → Bool)
    (trees : List Tree) :
    total weight (trees.filter chosen) + total weight (trees.filter fun tree => !chosen tree) =
      total weight trees := by
  induction trees with
  | nil => rfl
  | cons tree trees ih =>
      cases holds : chosen tree <;> simp [holds, ← ih, add_left_comm, add_assoc]

theorem total_eq_zero (zero : ∀ tree ∈ trees, weight tree = 0) : total weight trees = 0 := by
  induction trees with
  | nil => rfl
  | cons tree trees ih =>
      rw [List.forall_mem_cons] at zero
      rw [total_cons, zero.1, ih zero.2, add_zero]

theorem total_mono (le : ∀ tree ∈ trees, weight tree ≤ heavier tree) :
    total weight trees ≤ total heavier trees := by
  induction trees with
  | nil => exact le_refl _
  | cons tree trees ih =>
      rw [List.forall_mem_cons] at le
      rw [total_cons, total_cons]
      exact add_le_add le.1 (ih le.2)

/-- Leaving out trees of no weight changes nothing. -/
theorem total_filter_of_zero {chosen : Tree → Bool}
    (zero : ∀ tree ∈ trees, chosen tree = false → weight tree = 0) :
    total weight (trees.filter chosen) = total weight trees := by
  have others : total weight (trees.filter fun tree => !chosen tree) = 0 := by
    refine total_eq_zero fun tree member => ?_
    obtain ⟨member, other⟩ := List.mem_filter.mp member
    exact zero tree member (by simpa using other)
  rw [← total_filter_add weight chosen trees, others, add_zero]

theorem total_filter_le (weight : Tree → Multiset Span) (chosen : Tree → Bool)
    (trees : List Tree) : total weight (trees.filter chosen) ≤ total weight trees := by
  rw [← total_filter_add weight chosen trees]
  exact Multiset.le_add_right _ _

theorem coe_rowCallsAt (wanted here : Place) (trees : List Tree) :
    (rowCallsAt wanted here trees : Multiset Span) =
      total (fun tree => tree.callsAt wanted here) trees := by
  induction trees with
  | nil => rfl
  | cons tree trees ih => rw [rowCallsAt, total_cons, ← ih, Multiset.coe_add]

end Total

/-! ### Places -/

/-- In a key or a type nothing stands in an expression that has to show. -/
theorem callsAt_expression {here : Place} (other : here ≠ .expression) (tree : Tree) :
    tree.callsAt .expression here = [] := by
  induction tree generalizing here with
  | node label children ih =>
      have inside : here.inside label ≠ .expression := by
        unfold Place.inside
        split
        · exact nofun
        · exact other
      have row (trees : List Tree) (sub : trees ⊆ children) :
          rowCallsAt .expression (here.inside label) trees = [] := by
        induction trees with
        | nil => rfl
        | cons tree trees ih_trees =>
            rw [List.cons_subset] at sub
            rw [rowCallsAt, ih tree sub.1 inside, ih_trees sub.2, List.append_nil]
      have pair (trees : List Tree) (sub : trees ⊆ children) :
          pairCallsAt .expression (here.inside label) trees = [] := by
        induction trees with
        | nil => rfl
        | cons tree trees ih_trees =>
            rw [List.cons_subset] at sub
            have place : (if trees.any fun later => later.label.isPart then
                (here.inside label).ofKey else here.inside label) ≠ .expression := by
              split
              · cases here.inside label <;> exact nofun
              · exact inside
            rw [pairCallsAt, ih tree sub.1 place, ih_trees sub.2, List.append_nil]
      rw [callsAt, row children (List.Subset.refl _), pair children (List.Subset.refl _)]
      simp [inside]

theorem pairCallsAt_type (wanted : Place) (trees : List Tree) :
    pairCallsAt wanted .type trees = rowCallsAt wanted .type trees := by
  induction trees with
  | nil => rfl
  | cons tree trees ih =>
      rw [pairCallsAt, rowCallsAt, ih]
      simp [Place.ofKey]

/-- Whatever shows of a tree is some call of it, and none shows twice. -/
theorem callsAt_le (here : Place) (tree : Tree) :
    (tree.callsAt .expression here + tree.callsAt .type here : Multiset Span) ≤
      tree.callsAt .type .type := by
  induction tree generalizing here with
  | node label children ih =>
      generalize inner_eq : here.inside label = inner
      have cons_le {tree : Tree} {place : Place} (member : tree ∈ children)
          {left right whole : Multiset Span} (rest : left + right ≤ whole) :
          (tree.callsAt .expression place + left) + (tree.callsAt .type place + right) ≤
            tree.callsAt .type .type + whole := by
        rw [add_add_add_comm]
        exact add_le_add (ih tree member place) rest
      have row (trees : List Tree) (sub : trees ⊆ children) :
          (rowCallsAt .expression inner trees + rowCallsAt .type inner trees : Multiset Span) ≤
            rowCallsAt .type .type trees := by
        induction trees with
        | nil => exact le_refl _
        | cons tree trees ih_trees =>
            rw [List.cons_subset] at sub
            simp only [rowCallsAt, ← Multiset.coe_add]
            exact cons_le sub.1 (ih_trees sub.2)
      have pair (trees : List Tree) (sub : trees ⊆ children) :
          (pairCallsAt .expression inner trees + pairCallsAt .type inner trees : Multiset Span) ≤
            rowCallsAt .type .type trees := by
        induction trees with
        | nil => exact le_refl _
        | cons tree trees ih_trees =>
            rw [List.cons_subset] at sub
            simp only [pairCallsAt, rowCallsAt, ← Multiset.coe_add]
            exact cons_le sub.1 (ih_trees sub.2)
      have own : ((if label.isCall ∧ inner = .expression then [label.span] else [] : List Span) +
          (if label.isCall ∧ inner = .type then [label.span] else [] : List Span) :
            Multiset Span) ≤ (if label.isCall then [label.span] else [] : List Span) := by
        cases label.isCall <;> cases inner <;> simp
      have inside_type : Place.type.inside label = .type := by simp [Place.inside]
      simp only [callsAt, inner_eq, inside_type, and_true, pairCallsAt_type, ite_self,
        ← Multiset.coe_add]
      rw [add_add_add_comm]
      refine add_le_add own ?_
      split
      · exact pair children (List.Subset.refl _)
      · exact row children (List.Subset.refl _)

/-! ### Nodes and their children -/

variable {label : Label} {children : List Tree}

/-- In a type no call has to show. -/
theorem must_of_isType (type : label.isType = true) : (node label children).must = 0 := by
  have same : (node label children).calls = (node label children).callsAt .expression .type := by
    simp [calls, callsAt, Place.inside, type]
  have outside : Place.type ≠ .expression := by decide
  rw [must, same, callsAt_expression outside]
  rfl

/-- In a type all calls may show. -/
theorem may_of_isType (type : label.isType = true) :
    total may children ≤ (node label children).may := by
  have whole : (rowCallsAt .type .type children : Multiset Span) ≤
      (node label children).typeCalls := by
    simp only [typeCalls, callsAt, Place.inside, type, if_true, pairCallsAt_type, ite_self,
      ← Multiset.coe_add]
    exact Multiset.le_add_left _ _
  calc total may children
      ≤ total (fun tree => (tree.callsAt .type .type : Multiset Span)) children :=
        total_mono fun tree _ => callsAt_le .expression tree
    _ = rowCallsAt .type .type children := (coe_rowCallsAt _ _ _).symm
    _ ≤ (node label children).typeCalls := whole
    _ ≤ (node label children).may := Multiset.le_add_left _ _

/-- The call that a node itself is. -/
def own (label : Label) : Multiset Span := if label.isCall then {label.span} else 0

theorem must_node (noType : label.isType = false) (noPair : label.isKeyed = false) :
    (node label children).must = own label + total must children := by
  simp only [must, calls, callsAt, Place.inside, noType, noPair, Bool.false_eq_true, if_false,
    ← Multiset.coe_add, coe_rowCallsAt, own]
  cases label.isCall <;> rfl

theorem may_node (noType : label.isType = false) (noPair : label.isKeyed = false) :
    (node label children).may = own label + total may children := by
  have types : ((node label children).typeCalls : Multiset Span) =
      total (fun tree => (tree.typeCalls : Multiset Span)) children := by
    simp only [typeCalls, callsAt, Place.inside, noType, noPair, Bool.false_eq_true, if_false,
      ← coe_rowCallsAt]
    simp
  have sum : total may children =
      total must children + total (fun tree => (tree.typeCalls : Multiset Span)) children :=
    List.sum_map_add
  rw [may, ← must, must_node noType noPair, types, sum, add_assoc]

/-- The children that stand for rules of the grammar, without comments and the like. -/
def partsOf (children : List Tree) : List Tree := children.filter fun child => child.label.isPart

theorem getLast?_partsOf_cons (child : Tree) (children : List Tree) :
    (partsOf (child :: children)).getLast? =
      if children.any fun later => later.label.isPart then (partsOf children).getLast?
      else if child.label.isPart then some child else none := by
  have any_iff : (children.any fun later => later.label.isPart) = !(partsOf children).isEmpty := by
    rw [Bool.eq_iff_iff]
    simp [partsOf]
  rw [any_iff, partsOf, List.filter_cons, ← partsOf]
  cases partsOf children <;> cases child.label.isPart <;> simp

/-- Of an element with a key the value has to show. -/
theorem must_of_isKeyed (noType : label.isType = false) (noCall : label.isCall = false)
    (keyed : label.isKeyed = true)
    (leaves : ∀ child ∈ children, child.label.isPart = false → child.must = 0) :
    (node label children).must = ((partsOf children).getLast?.map must).getD 0 := by
  have pair : (node label children).must = pairCallsAt .expression .expression children := by
    simp [must, calls, callsAt, Place.inside, noType, noCall, keyed]
  rw [pair]
  clear pair
  induction children with
  | nil => rfl
  | cons child children ih =>
      rw [List.forall_mem_cons] at leaves
      rw [pairCallsAt, ← Multiset.coe_add, ih leaves.2, getLast?_partsOf_cons]
      cases later : children.any fun later => later.label.isPart with
      | true => simp [callsAt_expression, Place.ofKey]
      | false =>
          have no_parts : partsOf children = [] := by simpa [partsOf, List.any_eq] using later
          have last : (child.callsAt .expression .expression : Multiset Span) =
              ((if child.label.isPart then some child else none).map must).getD 0 := by
            cases part : child.label.isPart with
            | true => rfl
            | false => exact leaves.1 part
          simpa [no_parts] using last

/-- Of an element with a key the value may show. -/
theorem may_of_isKeyed (noType : label.isType = false) (noCall : label.isCall = false)
    (keyed : label.isKeyed = true) :
    ((partsOf children).getLast?.map may).getD 0 ≤ (node label children).may := by
  have pair : (node label children).may = pairCallsAt .expression .expression children +
      pairCallsAt .type .expression children := by
    simp [may, calls, typeCalls, callsAt, Place.inside, noType, noCall, keyed]
  rw [pair]
  clear pair
  induction children with
  | nil => exact le_refl _
  | cons child children ih =>
      simp only [pairCallsAt, ← Multiset.coe_add]
      rw [add_add_add_comm, getLast?_partsOf_cons]
      cases later : children.any fun later => later.label.isPart with
      | true => exact ih.trans (Multiset.le_add_left _ _)
      | false =>
          refine le_trans ?_ (Multiset.le_add_right _ _)
          cases child.label.isPart with
          | true => exact le_refl _
          | false => exact Multiset.zero_le _

/-! ### Fields -/

/-- The first child under a field. -/
def under? (field : String) (children : List Tree) : Option Tree :=
  children.find? fun child => child.label.field == field

/-- The weight of the first child under a field. -/
def slot (weight : Tree → Multiset Span) (children : List Tree) (field : String) : Multiset Span :=
  ((under? field children).map weight).getD 0

/-- The children that are not under any of the fields. -/
def outside (fields : List String) (children : List Tree) : List Tree :=
  children.filter fun child => !fields.contains child.label.field

/-- Of a field that holds one child the weight is that of the first. -/
theorem total_filter_field {weight : Tree → Multiset Span} {field : String}
    (once : (children.filter fun child => child.label.field == field).length ≤ 1) :
    total weight (children.filter fun child => child.label.field == field) =
      slot weight children field := by
  have head : (children.filter fun child => child.label.field == field).head? =
      under? field children := List.head?_filter
  rw [slot, ← head]
  generalize (children.filter fun child => child.label.field == field) = held at once
  cases held with
  | nil => rfl
  | cons child more =>
      have alone : more = [] := List.length_eq_zero_iff.mp (by simpa using once)
      simp [alone]

/-- The children of a node are those in fields that hold one each, and the others. -/
theorem total_slots {weight : Tree → Multiset Span} {fields : List String} (nodup : fields.Nodup)
    (once : ∀ field ∈ fields,
      (children.filter fun child => child.label.field == field).length ≤ 1) :
    total weight children =
      (fields.map (slot weight children)).sum + total weight (outside fields children) := by
  induction fields generalizing children with
  | nil => simp [outside]
  | cons field fields ih =>
      rw [List.nodup_cons] at nodup
      rw [List.forall_mem_cons] at once
      let others := children.filter fun child => !(child.label.field == field)
      have found (name : String) (member : name ∈ fields) :
          slot weight others name = slot weight children name := by
        have different : name ≠ field := fun same => nodup.1 (same ▸ member)
        simp only [slot, under?, others, List.find?_filter]
        congr 3
        funext child
        by_cases same : child.label.field = name <;> simp [same, different]
      have once_others (name : String) (member : name ∈ fields) :
          (others.filter fun child => child.label.field == name).length ≤ 1 := by
        refine le_trans (List.Sublist.length_le ?_) (once.2 name member)
        exact List.filter_sublist.filter _
      have rest : outside fields others = outside (field :: fields) children := by
        simp only [outside, others, List.filter_filter]
        congr 1
        funext child
        rw [List.contains_cons, Bool.not_or, Bool.and_comm]
      rw [← total_filter_add weight (fun child => child.label.field == field) children,
        total_filter_field once.1, ih nodup.2 once_others, rest, List.map_congr_left found,
        List.map_cons, List.sum_cons, add_assoc]

end Tree

end Relock
