import Relock.Proofs.Resolution.Body
import Relock.Proofs.Resolution.Passes

/-!
# The steps of resolution

The whole of resolution starts from the predeclared tables, makes the changes that the declarations
of the program ask for, and then takes the steps that its values and bodies ask for. What each of
these keeps, the tables of the program have.
-/

namespace Relock

namespace Predeclared

theorem uses_eq_none (node : NodeId) : tables.uses[node]? = none :=
  Std.TreeMap.getElem?_of_isEmpty (by decide +kernel)

theorem selections_eq_none (node : NodeId) : tables.selections[node]? = none :=
  Std.TreeMap.getElem?_of_isEmpty (by decide +kernel)

theorem receivers_eq_none (node : NodeId) : tables.receivers[node]? = none :=
  Std.TreeMap.getElem?_of_isEmpty (by decide +kernel)

theorem isWithin_all : ∀ symbol ∈ tables.symbols.toList,
    symbol.isWithin tables.packages.size = true := by
  decide +kernel

theorem named_isWithin_all : ∀ entry ∈ tables.named.toList,
    entry.1.package < tables.packages.size ∧
      entry.2.underlying.isWithin tables.packages.size = true := by
  decide +kernel

theorem housed : tables.Housed where
  predeclared := by decide +kernel
  within.symbol _ symbol found :=
    isWithin_all symbol (Array.mem_toList_iff.mpr (Array.mem_of_getElem? found))
  within.receiver node type found := by
    rw [receivers_eq_none node] at found
    cases found
  within.named ref type found :=
    named_isWithin_all (ref, type) (Std.TreeMap.mem_toList_iff_getElem?_eq_some.mpr found)

end Predeclared

namespace Resolution

/-- One step in the bodies of some file. -/
def StepIn (units : List (FileScope × File)) (marks : List Mark) (before after : Resolving) :
    Prop :=
  ∃ unit ∈ units, Step unit.1 marks before after

/-- How the tables of a program come about. -/
structure Runs (program : Program) (units : List (FileScope × File)) (declared : Tables)
    (final : Resolving) : Prop where
  files : units.map Prod.snd = program.files
  changes : Relation.ReflTransGen (Change (declaredIn units) program.marks) Predeclared.tables
    declared
  sees : ∀ unit ∈ units, declared.Sees unit.1 unit.2
  steps : Relation.ReflTransGen (StepIn units program.marks) { tables := declared } final
  tables_eq : program.resolve = final.tables

/-- How the tables of a program with unique numbers come about. -/
structure Resolves (program : Program) (units : List (FileScope × File)) (declared : Tables)
    (final : Resolving) : Prop extends Runs program units declared final where
  unique : program.UniqueIds

variable {program : Program} {units : List (FileScope × File)} {count : Nat}

theorem StepIn.ready {marks : List Mark} {scope : FileScope} {before after : Resolving}
    (step : StepIn units marks before after) (ready : Ready scope count before) :
    Ready scope count after := by
  obtain ⟨unit, -, step⟩ := step
  exact step.ready ready

section Bodies

variable {state : Resolving} (ready : ∀ unit ∈ units, Ready unit.1 count state)
include ready

/-- What a file takes steps for can be done after any steps of the files. -/
theorem leads_of_takes {unit : FileScope × File} (unit_mem : unit ∈ units)
    {computation : Resolve PUnit} (takes : Takes unit.1 program.marks count computation)
    {reached : Resolving}
    (steps : Relation.ReflTransGen (StepIn units program.marks) state reached) :
    Leads (StepIn units program.marks) reached computation := by
  have still := kept_of_steps (fun _ _ step => step.ready) steps (ready unit unit_mem)
  exact (takes reached still).mono fun _ _ step => ⟨unit, unit_mem, step⟩

variable (files : units.map Prod.snd = program.files)
include files

theorem values_lead : Leads (StepIn units program.marks) state
    (units.forM fun unit => unit.2.vars.forM (resolvePackageVars unit.1)) := by
  refine .forM fun unit unit_mem reached => leads_of_takes ready unit_mem
    (.forM fun spec spec_mem => ?_)
  have decl_mem := File.mem_vars.mp spec_mem
  have marked := program.marks_of_decl (files ▸ List.mem_map_of_mem unit_mem) decl_mem
  exact resolvePackageVars_takes fun mark found => marked (by simp [Decl.marks, found])

theorem bodies_lead : Leads (StepIn units program.marks) state
    (units.forM fun unit => unit.2.functions.forM (resolveBody unit.1)) := by
  refine .forM fun unit unit_mem reached => leads_of_takes ready unit_mem
    (.forM fun decl decl_mem => ?_)
  have listed_mem := File.mem_functions.mp decl_mem
  have marked := program.marks_of_decl (files ▸ List.mem_map_of_mem unit_mem) listed_mem
  exact resolveBody_takes fun mark found => marked (by simp [Decl.marks, FuncDecl.marks, found])

theorem resolveBodies_leads : Leads (StepIn units program.marks) state (resolveBodies units) :=
  (values_lead ready files).bind fun _ _ steps _ => bodies_lead
    (fun unit member => kept_of_steps (fun _ _ step => step.ready) steps (ready unit member)) files

end Bodies

/-- The tables of every program come about in this way. -/
theorem exists_runs (program : Program) :
    ∃ units declared final, Runs program units declared final := by
  let scopes := (declareScopes program.files).run Predeclared.tables
  let units := scopes.1.zip program.files
  let declared := ((declareMembers units).run scopes.2).2
  let final := ((resolveBodies units).run { tables := declared }).2
  obtain ⟨early, seen⟩ :=
    @declareScopes_leads [] program.marks _ program.files Predeclared.housed.predeclared
  have housed := housed_of_changes early Predeclared.housed
  have files : units.map Prod.snd = program.files :=
    List.map_snd_zip (Nat.le_of_eq seen.length_eq.symm)
  have sees (unit : FileScope × File) (member : unit ∈ units) : scopes.2.Sees unit.1 unit.2 :=
    (List.forall₂_iff_zip.mp seen).2 member
  have owned (unit : FileScope × File) (member : unit ∈ units) :
      unit.1.package < scopes.2.packages.size :=
    Tables.lt_size_of_label? (sees unit member).owns.2
  have fresh (unique : program.UniqueIds) (decl : FuncDecl) (member : decl ∈ program.functions) :
      scopes.2.objectOf decl.name = none :=
    (objectOf_of_changes early (unique.name_apart member) (by simp)).trans
      (Predeclared.uses_eq_none decl.name.id)
  have late := (declareMembers_leads files housed owned fresh).1
  have ready (unit : FileScope × File) (member : unit ∈ units) :
      Ready unit.1 declared.packages.size { tables := declared } :=
    ⟨rfl, package_lt_of_changes late (owned unit member),
      housed_of_changes late housed⟩
  refine ⟨units, declared, final, files, ?_, ?_, ?_, ?_⟩
  · exact (Relation.ReflTransGen.mono (fun _ _ change => change.mono (List.nil_subset _)) _ _
      early).trans late
  · exact fun unit member => (sees unit member).extend (grows_of_changes late)
  · exact (resolveBodies_leads ready files).1
  · rw [Program.resolve, declareProgram_eq]
    rfl

theorem exists_resolves (unique : program.UniqueIds) :
    ∃ units declared final, Resolves program units declared final := by
  obtain ⟨units, declared, final, run⟩ := exists_runs program
  exact ⟨units, declared, final, run, unique⟩

/-- What the tables of a program mention are packages of the program. -/
theorem Runs.housed {declared : Tables} {final : Resolving}
    (run : Runs program units declared final) : final.tables.Housed := by
  have keeps (before after : Resolving) (step : StepIn units program.marks before after) :
      before.tables.Housed → after.tables.Housed := by
    obtain ⟨unit, -, step⟩ := step
    exact step.housed
  exact kept_of_steps keeps run.steps (housed_of_changes run.changes Predeclared.housed)

end Resolution

end Relock
