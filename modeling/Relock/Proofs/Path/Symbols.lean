import Relock.Lock.Path

/-!
# Paths as sequences of entities

Every comparison of paths looks at the entities of their steps alone. So equality of paths is an
equivalence, and what is left of a path after its first steps depends on its entities only.
-/

namespace Relock

namespace AccessPath

variable {left right : AccessPath} {offset : Nat}

/-- The entities that the steps of a path refer to. -/
def symbols (path : AccessPath) : List SymbolId := path.nodes.map PathNode.symbol

@[simp]
theorem length_symbols (path : AccessPath) : path.symbols.length = path.length := List.length_map _

@[simp]
theorem symbols_withRoot (path : AccessPath) (root : PathNode) :
    (path.withRoot root).symbols = root.symbol :: path.symbols.tail := rfl

theorem agree_iff_front {left right : List PathNode} (length_le : right.length ≤ left.length) :
    agree left right = true ↔ right.map PathNode.symbol <+: left.map PathNode.symbol := by
  induction right generalizing left with
  | nil => simp [agree]
  | cons node right ih =>
      cases left with
      | nil => simp at length_le
      | cons other left =>
          have unfolded : agree (other :: left) (node :: right) =
              (other.same node && agree left right) := rfl
          have rest := ih (Nat.le_of_succ_le_succ length_le)
          rw [unfolded, Bool.and_eq_true, rest, PathNode.same, beq_iff_eq, List.map_cons,
            List.map_cons, List.cons_prefix_cons, eq_comm]

/-- Paths are equal up to some last steps if they have the same length and their other steps refer
to the same entities. -/
theorem equal_iff :
    left.equal right offset = true ↔
      left.length = right.length ∧
        left.symbols.take (left.length - offset) = right.symbols.take (right.length - offset) := by
  simp only [equal, Bool.and_eq_true, beq_iff_eq]
  refine and_congr_right fun same_length => ?_
  have taken_length : (right.nodes.take (left.length - offset)).length =
      (left.nodes.take (left.length - offset)).length := by
    rw [List.length_take, List.length_take]
    exact congrArg _ same_length.symm
  rw [agree_iff_front (Nat.le_of_eq taken_length), ← same_length, List.map_take, List.map_take]
  constructor
  · intro front
    refine (front.eq_of_length ?_).symm
    simpa using taken_length
  · intro same
    exact same ▸ List.prefix_rfl

theorem equal_comm :
    left.equal right offset = right.equal left offset := by
  rw [Bool.eq_iff_iff, equal_iff, equal_iff, eq_comm, @eq_comm _ (List.take _ _)]

theorem equal_trans {middle : AccessPath} (first : left.equal middle offset = true)
    (second : middle.equal right offset = true) :
    left.equal right offset = true := by
  rw [equal_iff] at first second ⊢
  exact ⟨first.1.trans second.1, first.2.trans second.2⟩

/-- Paths to the same lock take each other's place in comparisons with further ones. -/
theorem equal_congr {middle : AccessPath} (same : left.equal middle offset = true) :
    left.equal right offset = middle.equal right offset := by
  rw [Bool.eq_iff_iff]
  constructor
  · intro first
    exact equal_trans (equal_comm.trans same) first
  · intro second
    exact equal_trans same second

/-- Paths that perform the same operation refer to the same entities throughout. -/
theorem equal_zero_iff :
    left.equal right 0 = true ↔ left.symbols = right.symbols := by
  rw [equal_iff, Nat.sub_zero, Nat.sub_zero, ← length_symbols, ← length_symbols, List.take_length,
    List.take_length]
  exact ⟨And.right, fun same => ⟨congrArg _ same, same⟩⟩

/-- Paths that perform the same operation operate on the same lock. -/
theorem equal_of_equal_zero (offset : Nat)
    (same : left.equal right 0 = true) : left.equal right offset = true := by
  have symbols := equal_zero_iff.mp same
  have length : left.length = right.length := (equal_iff.mp same).1
  rw [equal_iff, symbols, length]
  exact ⟨rfl, rfl⟩

/-- The last step of a path is the last of its entities. -/
theorem getLast?_symbols (path : AccessPath) : path.symbols.getLast? = some path.last.symbol := by
  rw [symbols, List.getLast?_map, nodes, List.getLast?_cons, last, Option.map_some,
    List.getLastD_eq_getLast?]

/-- Paths that perform the same operation end in the same entity. -/
theorem last_symbol_of_equal (same : left.equal right 0 = true) :
    left.last.symbol = right.last.symbol := by
  have ends := congrArg List.getLast? (equal_zero_iff.mp same)
  rw [getLast?_symbols, getLast?_symbols] at ends
  exact Option.some.inj ends

/-! ## What is left of a path -/

/-- What is left of entities after the given first ones, of which the last is kept. -/
def stripSymbols (symbols front : List SymbolId) : Option (List SymbolId) :=
  if front ≠ [] ∧ front.length < symbols.length ∧ front <+: symbols then
    some (symbols.drop (front.length - 1))
  else
    none

theorem map_symbols_ofNodes? {nodes : List PathNode} (nonempty : nodes ≠ []) :
    (ofNodes? nodes).map symbols = some (nodes.map PathNode.symbol) := by
  cases nodes with
  | nil => exact absurd rfl nonempty
  | cons root rest => rfl

/-- There is something left of a path exactly if it begins with the given steps and goes on. -/
theorem blocked_eq_false_iff {path : AccessPath} {front : List PathNode} :
    (front.isEmpty || decide (path.length ≤ front.length) || !path.startsWith front) = false ↔
      front.map PathNode.symbol ≠ [] ∧
        (front.map PathNode.symbol).length < path.symbols.length ∧
        front.map PathNode.symbol <+: path.symbols := by
  rw [Bool.or_eq_false_iff, Bool.or_eq_false_iff, List.isEmpty_eq_false_iff,
    decide_eq_false_iff_not, Nat.not_le, Bool.not_eq_false', startsWith, Bool.and_eq_true,
    decide_eq_true_iff, List.length_map, length_symbols, and_assoc, ne_eq, ne_eq,
    List.map_eq_nil_iff]
  refine and_congr_right fun _ => and_congr_right fun shorter => ?_
  rw [agree_iff_front (Nat.le_of_lt shorter)]
  exact ⟨And.right, fun front_of => ⟨Nat.le_of_lt shorter, front_of⟩⟩

theorem map_symbols_stripFront (path : AccessPath) (front : List PathNode) :
    (path.stripFront front).map symbols =
      stripSymbols path.symbols (front.map PathNode.symbol) := by
  unfold stripFront stripSymbols
  cases blocked :
    front.isEmpty || decide (path.length ≤ front.length) || !path.startsWith front with
  | true =>
      rw [if_pos rfl, if_neg, Option.map_none]
      intro fits
      rw [blocked_eq_false_iff.mpr fits] at blocked
      cases blocked
  | false =>
      obtain ⟨nonempty, shorter, front_of⟩ := blocked_eq_false_iff.mp blocked
      rw [if_neg Bool.false_ne_true, if_pos ⟨nonempty, shorter, front_of⟩, map_symbols_ofNodes?,
        List.map_drop, List.length_map]
      · rfl
      · rw [ne_eq, List.drop_eq_nil_iff]
        rw [List.length_map, length_symbols, length] at shorter
        omega

theorem map_symbols_suffix (path call : AccessPath) :
    (path.suffix call).map symbols =
      if call.length < 2 ∨ path.symbols.length < call.length then
        none
      else
        stripSymbols path.symbols call.symbols.dropLast := by
  unfold suffix
  rw [length_symbols, apply_ite (Option.map symbols), map_symbols_stripFront, List.map_dropLast]
  simp [symbols]

end AccessPath

end Relock
