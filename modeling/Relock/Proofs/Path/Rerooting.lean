import Relock.Proofs.Path.Symbols

/-!
# Paths across several boundaries

At a boundary a lock path loses the steps that lead there, except the last, in whose place the other
side puts a root of its own. Two boundaries one after the other leave the path that both together
do, whatever root stands between them.
-/

namespace Relock

namespace AccessPath

variable {path rest result : AccessPath} {front back : List PathNode}

theorem exists_before_of_ofNodes? {position : Nat} (within : position < path.length)
    (left : ofNodes? (path.nodes.drop position) = some rest) :
    ∃ before, before.length = position ∧ path.nodes = before ++ rest.nodes := by
  refine ⟨path.nodes.take position, List.length_take_of_le (Nat.le_of_lt within), ?_⟩
  have left_eq : path.nodes.drop position = rest.nodes := by
    cases dropped : path.nodes.drop position with
    | nil =>
        rw [dropped] at left
        cases left
    | cons root tail =>
        rw [dropped] at left
        cases left
        rfl
  rw [← left_eq, List.take_append_drop]

/-- What is left of a path ends it and has more than one step. The steps before it and its root
refer to the entities of the given steps. -/
theorem stripFront_eq_some_iff :
    path.stripFront front = some rest ↔
      rest.rest ≠ [] ∧ ∃ before, path.nodes = before ++ rest.nodes ∧
        front.map PathNode.symbol = before.map PathNode.symbol ++ [rest.root.symbol] := by
  constructor
  · intro stripped
    unfold stripFront at stripped
    split at stripped
    · cases stripped
    · rename_i usable
      obtain ⟨nonempty, shorter, front_of⟩ := blocked_eq_false_iff.mp (Bool.eq_false_iff.mpr usable)
      have positive := List.length_pos_iff.mpr nonempty
      rw [List.length_map] at positive shorter
      rw [length_symbols] at shorter
      obtain ⟨before, before_length, nodes_eq⟩ := exists_before_of_ofNodes? (by omega) stripped
      rw [symbols, nodes_eq] at front_of
      rw [length, nodes_eq] at shorter
      refine ⟨fun ended => ?_, before, nodes_eq, ?_⟩
      · simp only [nodes, ended, List.length_append, List.length_singleton] at shorter
        omega
      · -- Both are the first entities of the path, in the same number.
        have kept : before.map PathNode.symbol ++ [rest.root.symbol] <+:
            (before ++ rest.nodes).map PathNode.symbol := by
          simp [nodes]
        refine (List.prefix_of_prefix_length_le front_of kept ?_).eq_of_length ?_ <;> simp <;> omega
  · rintro ⟨continues, before, nodes_eq, front_eq⟩
    have front_length : front.length = before.length + 1 := by
      simpa using congrArg List.length front_eq
    have longer := List.length_pos_iff.mpr continues
    have usable := (@blocked_eq_false_iff path front).mpr (by
      rw [front_eq, symbols, nodes_eq]
      refine ⟨by simp, ?_, by simp [nodes]⟩
      simp only [nodes, List.length_map, List.length_append, List.length_cons, List.length_nil]
      omega)
    rw [stripFront, if_neg (Bool.eq_false_iff.mp usable), nodes_eq, front_length,
      Nat.add_sub_cancel, List.drop_left]
    rfl

/-- A path that crosses two boundaries at once crosses them one after the other. -/
theorem exists_stripFront_of_append (root : PathNode) (front_ne : front ≠ []) (back_ne : back ≠ [])
    (stripped : path.stripFront (front ++ back) = some result) :
    ∃ rest, path.stripFront front = some rest ∧
      (rest.withRoot root).stripFront (root :: back) = some result := by
  obtain ⟨continues, before, nodes_eq, symbols_eq⟩ := stripFront_eq_some_iff.mp stripped
  -- The last step of `back` is the root of the result, and the other steps come before it.
  obtain ⟨middle, last, rfl⟩ := (List.eq_nil_or_concat back).resolve_left back_ne
  rw [List.concat_eq_append, ← List.append_assoc, List.map_append] at symbols_eq
  obtain ⟨known, last_eq⟩ := List.append_inj' symbols_eq rfl
  rw [List.map_append] at known
  obtain ⟨outer, inner, rfl, outer_eq, inner_eq⟩ := List.map_eq_append_iff.mp known.symm
  have outer_ne : outer ≠ [] := by
    rintro rfl
    exact front_ne (List.map_eq_nil_iff.mp outer_eq.symm)
  obtain ⟨start, junction, rfl⟩ := (List.eq_nil_or_concat outer).resolve_left outer_ne
  refine ⟨⟨junction, inner ++ result.nodes⟩, stripFront_eq_some_iff.mpr ⟨?_, start, ?_, ?_⟩,
    stripFront_eq_some_iff.mpr ⟨continues, root :: inner, rfl, ?_⟩⟩
  · simp [nodes]
  · rw [nodes_eq]
    simp [nodes]
  · simp [← outer_eq]
  · simpa [inner_eq] using last_eq

/-- A path that crosses two boundaries one after the other crosses them at once. -/
theorem stripFront_append_of_rerooted {root : PathNode} (back_ne : back ≠ [])
    (outer_stripped : path.stripFront front = some rest)
    (inner_stripped : (rest.withRoot root).stripFront (root :: back) = some result) :
    path.stripFront (front ++ back) = some result := by
  obtain ⟨-, outer, nodes_eq, front_eq⟩ := stripFront_eq_some_iff.mp outer_stripped
  obtain ⟨continues, before, rest_eq, back_eq⟩ := stripFront_eq_some_iff.mp inner_stripped
  cases before with
  | nil => simp [back_ne] at back_eq
  | cons node inner =>
      have inner_eq : rest.rest = inner ++ result.nodes := (List.cons.inj rest_eq).2
      have middle_eq : back.map PathNode.symbol =
          inner.map PathNode.symbol ++ [result.root.symbol] := (List.cons.inj back_eq).2
      refine stripFront_eq_some_iff.mpr ⟨continues, outer ++ rest.root :: inner, ?_, ?_⟩
      · rw [nodes_eq, nodes, inner_eq, List.append_assoc, List.cons_append]
      · simp [front_eq, middle_eq]

/-- To take two lists of steps off a path is to take off the first, to put any root in place of the
step that is kept, and to take that root and the second list off; the path that is left is the same,
step by step. Taking steps off leaves two steps at least, and the entities of the path are those of
the steps taken off and those after the step that is kept. -/
theorem stripFront_append_iff (path : AccessPath) {front back : List PathNode} (root : PathNode)
    (front_ne : front ≠ []) (back_ne : back ≠ []) :
    (∀ result, path.stripFront (front ++ back) = some result ↔
      ∃ rest, path.stripFront front = some rest ∧
        (rest.withRoot root).stripFront (root :: back) = some result) ∧
    ∀ rest, path.stripFront front = some rest →
      path.symbols = front.map PathNode.symbol ++ rest.symbols.tail ∧ 2 ≤ rest.length := by
  refine ⟨fun result => ⟨exists_stripFront_of_append root front_ne back_ne, ?_⟩,
    fun rest left => ?_⟩
  · rintro ⟨rest, outer_stripped, inner_stripped⟩
    exact stripFront_append_of_rerooted back_ne outer_stripped inner_stripped
  · obtain ⟨continues, before, nodes_eq, front_eq⟩ := stripFront_eq_some_iff.mp left
    refine ⟨?_, Nat.succ_le_succ (List.length_pos_iff.mpr continues)⟩
    rw [symbols, nodes_eq, front_eq]
    simp [symbols, nodes]

/-- The step of a name that refers to an entity. -/
def step (name : String) (symbol : SymbolId) : PathNode := ⟨name, symbol, .zero⟩

/-- From `t.c`, under other names than in the path, the lock of `s.cache.mu.RLock` is `cache.mu`,
and so it is by way of a receiver `r`. -/
theorem stripFront_by_way_of_receiver :
    (∃ rest, (AccessPath.mk (step "s" 1) [step "cache" 2, step "mu" 3, step "RLock" 4]).stripFront
        [step "t" 1] = some rest ∧
      (rest.withRoot (step "r" 9)).stripFront [step "r" 9, step "c" 2] =
        some ⟨step "cache" 2, [step "mu" 3, step "RLock" 4]⟩) :=
  ((stripFront_append_iff ⟨step "s" 1, [step "cache" 2, step "mu" 3, step "RLock" 4]⟩ (step "r" 9)
    (List.cons_ne_nil (step "t" 1) []) (List.cons_ne_nil (step "c" 2) [])).1 _).mp (by decide)

end AccessPath

end Relock
