import Relock.Proofs.Renaming.Keys
import Relock.Proofs.Resolution.Bindings

/-!
# Programs that correspond

When the tables of two programs match, the subjects of analysis correspond if the declarations and
bindings of the first program stand in the second as well, and what else stands there concerns none
of its functions and variables.
-/

namespace Relock

theorem Assignment.mark_of_target {assignment : Assignment} {target : Expr}
    (listed : target ∈ assignment.targets) {ident : Ident}
    (named : Binding.targetName? target = some ident) :
    ident.mark ∈ (Binding.assign assignment).marks :=
  Binding.mark_of_name (List.mem_map.mpr ⟨target, listed, named⟩)

namespace Subject

variable {program other : Program} {config : Config} {moved : Renaming} {view : View}

theorem isReassigned_iff {id : SymbolId} : (ofProgram program config).isReassigned id = true ↔
    ∃ assignment ∈ program.assignments,
      id ∈ ProgramIndex.reassignedBy program.resolve assignment := by
  rw [isReassigned]
  change (Std.TreeSet.ofList (program.assignments.flatMap _)).contains id = true ↔ _
  rw [Std.TreeSet.contains_ofList, List.contains_iff_mem, List.mem_flatMap]

/-- What an analysis of the first program can enter has a legible key. -/
theorem Enterable.legible (unique : program.UniqueIds)
    (names : ∀ decl ∈ program.functions, ':' ∉ decl.name.name.toList) {callee : Callee}
    (enterable : (ofProgram program config).Enterable callee) : callee.Legible := by
  rcases enterable with ⟨call, -, callee_eq, found⟩ | ⟨literal, -, rfl⟩
  · refine Program.legible_of_call unique names callee_eq ?_
    unfold declaration? at found
    split at found
    · assumption
    · cases found
  · trivial

variable (same : program.resolve.Matches moved view other.resolve)
  (seen : ∀ mark ∈ program.marks, view.node mark.id)
include same seen

/-- An assignment reassigns corresponding variables. -/
theorem reassignedBy_eq (typed : ∀ id, view.typed id) {assignment : Assignment}
    (listed : assignment ∈ program.assignments) :
    ProgramIndex.reassignedBy other.resolve (assignment.renumber moved.file) =
      (ProgramIndex.reassignedBy program.resolve assignment).map moved.symbol := by
  have injective := NodeId.renumber_injective moved.file_injective
  rw [ProgramIndex.reassignedBy, ProgramIndex.reassignedBy, List.map_filterMap,
    Assignment.renumber, renumberExprs_eq_map, List.filterMap_map]
  refine List.filterMap_congr fun target target_mem => ?_
  rw [Function.comp_apply, Binding.targetName?_renumber]
  cases named : Binding.targetName? target with
  | none => rfl
  | some ident =>
      have marked := Program.marks_of_binding (Program.mem_assignments.mp listed)
        (Assignment.mark_of_target target_mem named)
      have object := same.objectOf_eq (seen _ marked : view.node ident.id)
      simp only [Option.map_some, Option.bind_eq_bind, Option.bind_some, object]
      cases program.resolve.objectOf ident with
      | none => rfl
      | some id =>
          have symbol := same.symbol?_eq (typed id)
          simp only [Option.map_some, Option.bind_some, symbol]
          cases found : program.resolve.symbol? id with
          | none => simp
          | some symbol =>
              have decls : (symbol.rename moved).decl = some (assignment.id.renumber moved.file) ↔
                  symbol.decl = some assignment.id := by
                rw [Symbol.rename, Option.map_eq_some_iff]
                constructor
                · rintro ⟨node, node_eq, nodes⟩
                  rw [node_eq, injective nodes]
                · exact fun declared => ⟨_, declared, rfl⟩
              simp only [Option.map_some, Option.bind_some, decls]
              split <;> rfl

theorem hasKey_eq (unique : program.UniqueIds)
    (names : ∀ decl ∈ program.functions, ':' ∉ decl.name.name.toList)
    (typed : ∀ id, view.typed id) {decl : FuncDecl} (member : decl ∈ program.functions)
    {callee : Callee} (legible : callee.Legible) :
    ProgramIndex.hasKey other.resolve (callee.rename moved).key (decl.renumber moved.file) =
      ProgramIndex.hasKey program.resolve callee.key decl := by
  have own := same.ofDecl?_eq typed fun mark marked =>
    seen mark (program.marks_of_function member marked)
  rw [ProgramIndex.hasKey, ProgramIndex.hasKey, own]
  cases own_eq : Callee.ofDecl? program.resolve decl with
  | none => rfl
  | some another =>
      have legible_own := Program.legible_of_decl unique names member own_eq
      rw [Option.map_some, Option.any_some, Option.any_some, Bool.eq_iff_iff, beq_iff_eq, beq_iff_eq]
      exact Callee.key_rename_iff moved legible_own legible

omit same seen in
/-- The bindings of corresponding variables correspond. -/
theorem binding_eq (unique : program.UniqueIds) (other_unique : other.UniqueIds)
    (bindings : ∀ binding ∈ program.bindings, binding.renumber moved.file ∈ other.bindings)
    {id : SymbolId} {node : NodeId} (declared : program.resolve.declOf? id = some node) :
    other.bindingTable[node.renumber moved.file]? =
      program.bindingTable[node]?.map (Binding.renumber moved.file) := by
  rcases (Resolution.resolve_binds unique).bound id node declared with old | ⟨binding, bound, rfl, -⟩
  · rw [Predeclared.declOf?_eq_none] at old
    cases old
  · have listed := program.bound_subset bound
    have found := other_unique.bindingTable_eq (bindings binding listed)
    rw [Binding.id_renumber] at found
    rw [found, unique.bindingTable_eq listed, Option.map_some]

end Subject

end Relock
