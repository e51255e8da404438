import Relock.Proofs.Resolution.Program

/-!
# Selectors and the names they end in

What a selector selects is recorded twice: for the selector and for the name it ends in. In a
program with unique numbers nothing else is recorded for either of them, so that the two records
always agree.
-/

namespace Relock

namespace Resolution

variable {program : Program} {scope : FileScope} {id member : NodeId}

/-- The name that a selector ends in is recorded for no name and no function. -/
theorem Change.uses_member_eq {declared : List (PackageId × FuncDecl)} {before after : Tables}
    (unique : program.UniqueIds) (marked : ⟨member, .member id⟩ ∈ program.marks)
    (functions : ∀ package decl, (package, decl) ∈ declared → decl ∈ program.functions)
    (change : Change declared program.marks before after) :
    after.uses[member]? = before.uses[member]? := by
  apply change.uses_eq
  · intro mark mark_mem role same
    rw [unique.eq_of_id_eq mark_mem marked same] at role
    cases role
  · intro package decl listed same
    have function_mem := program.function_mem_marks (functions package decl listed)
    have roles := congrArg Mark.role (unique.eq_of_id_eq function_mem marked same)
    cases roles

/-- A step records both for the selector and for its name, or for neither. -/
theorem Step.selection_eq {before after : Resolving} (unique : program.UniqueIds)
    (selector_marked : ⟨id, .selector member⟩ ∈ program.marks)
    (member_marked : ⟨member, .member id⟩ ∈ program.marks)
    (step : Step scope program.marks before after)
    (agree : before.tables.selections[id]? = before.tables.uses[member]?) :
    after.tables.selections[id]? = after.tables.uses[member]? := by
  have name_apart (ident : Ident) (marked : ident.mark ∈ program.marks) : ident.id ≠ member := by
    intro same
    have roles := congrArg Mark.role (unique.eq_of_id_eq marked member_marked same)
    cases roles
  cases step with
  | push | pop | retype => exact agree
  | declare place type decl ident marked =>
      have apart := name_apart ident marked
      simpa [Resolving.declare, Tables.recordUse, Tables.addSymbol, Std.TreeMap.getElem?_insert,
        apart] using agree
  | refer ident symbol marked found =>
      have apart := name_apart ident marked
      simpa [Tables.recordUse, Std.TreeMap.getElem?_insert, apart] using agree
  | select other name symbol other_marked name_marked found =>
      by_cases same : other = id
      · have roles := congrArg Mark.role (unique.eq_of_id_eq other_marked selector_marked same)
        cases roles
        simp [Tables.recordSelection, same]
      · have apart : name.id ≠ member := by
          intro same_name
          have roles := congrArg Mark.role (unique.eq_of_id_eq name_marked member_marked same_name)
          cases roles
          exact same rfl
        simpa [Tables.recordSelection, Std.TreeMap.getElem?_insert, apart, same] using agree

end Resolution

namespace Program

variable {program : Program}

open Resolution in
/-- What a selector selects is what the name it ends in refers to. -/
theorem selection_eq_objectOf (unique : program.UniqueIds) {id : NodeId} {member : Ident}
    (selector_marked : ⟨id, .selector member.id⟩ ∈ program.marks)
    (member_marked : ⟨member.id, .member id⟩ ∈ program.marks) :
    program.resolve.selection id = program.resolve.objectOf member := by
  obtain ⟨units, declared, final, run⟩ := exists_resolves unique
  have functions (package : PackageId) (decl : FuncDecl)
      (listed : (package, decl) ∈ declaredIn units) : decl ∈ program.functions :=
    functions_of_units run.files listed
  have selected : declared.selections[id]? = none := by
    have keeps (before after : Tables)
        (change : Change (declaredIn units) program.marks before after)
        (same : before.selections[id]? = none) : after.selections[id]? = none := by
      rw [change.selections_eq, same]
    exact kept_of_steps keeps run.changes (Predeclared.selections_eq_none id)
  have used : declared.uses[member.id]? = none := by
    have keeps (before after : Tables)
        (change : Change (declaredIn units) program.marks before after)
        (same : before.uses[member.id]? = none) : after.uses[member.id]? = none :=
      (change.uses_member_eq unique member_marked functions).trans same
    exact kept_of_steps keeps run.changes (Predeclared.uses_eq_none member.id)
  rw [run.tables_eq]
  have keeps (before after : Resolving) (step : StepIn units program.marks before after)
      (agree : before.tables.selections[id]? = before.tables.uses[member.id]?) :
      after.tables.selections[id]? = after.tables.uses[member.id]? := by
    obtain ⟨unit, -, step⟩ := step
    exact step.selection_eq unique selector_marked member_marked agree
  exact kept_of_steps keeps run.steps (selected.trans used.symm)

end Program

end Relock
