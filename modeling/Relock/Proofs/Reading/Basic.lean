import Relock.Program.Reading.File

/-!
# Readings by induction

A reading means what its own rule makes of the readings of its children, and some rules look at the
children of a child as well. So what holds of readings is proved of a node from all the nodes below
it.
-/

namespace Relock

namespace Tree

/-- What holds of a tree whenever it holds of its children holds of all trees. -/
@[elab_as_elim, induction_eliminator]
theorem induct {motive : Tree → Prop}
    (node : ∀ label children, (∀ child ∈ children, motive child) → motive (node label children)) :
    ∀ tree, motive tree
  | .node label children => node label children fun child _ => induct node child

@[simp]
theorem label_reading (file : Nat) (tree : Tree) : (tree.reading file).label = tree.label := by
  cases tree
  rw [reading]
  rfl

theorem reading_node (file : Nat) (label : Label) (children : List Tree) :
    (node label children).reading file =
      .ofChildren file label (children.map (Tree.reading file)) := by
  rw [reading, readings_eq_map]

end Tree

namespace Reading

/-- Something holds of a node and of every node below it. -/
inductive All (holds : Reading → Prop) : Reading → Prop where
  | node {reading : Reading} (here : holds reading)
      (children : ∀ child ∈ reading.children, All holds child) : All holds reading

namespace All

variable {holds : Reading → Prop} {reading : Reading}

theorem own : reading.All holds → holds reading
  | node here _ => here

theorem child : reading.All holds → ∀ child ∈ reading.children, child.All holds
  | node _ children => children

end All

variable {nodes : List Reading} {node : Reading}

/-! ## Looking for children -/

theorem field_of_under? {field : String}
    (found : under? field nodes = some node) : node.label.field = field := by
  have matching := List.find?_some found
  exact eq_of_beq matching

theorem mem_of_under? {field : String} (found : under? field nodes = some node) : node ∈ nodes :=
  List.mem_of_find?_eq_some found

theorem mem_of_mem_named (member : node ∈ named nodes) :
    node ∈ nodes :=
  (List.mem_filter.mp member).1

theorem mem_of_head? (found : (named nodes).head? = some node) : node ∈ nodes :=
  mem_of_mem_named (List.mem_of_mem_head? found)

end Reading

theorem flatMap_flatten {α β : Type} (groups : List (List α)) (parts : α → List β) :
    groups.flatten.flatMap parts = groups.flatMap fun group => group.flatMap parts := by
  rw [← List.flatMap_id, List.flatMap_assoc]
  rfl

end Relock
