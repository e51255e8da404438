import Relock.Proofs.Renaming.Body
import Relock.Proofs.Renaming.Declaration
import Relock.Proofs.Renaming.Growth

/-!
# Rounds in lockstep

A round over files and a round over the corresponding files, which see the same things up to the
numbers, take matching tables to matching tables.
-/

namespace Relock

namespace Resolution

/-- Two files are the same up to their numbers, and they see the same things. -/
structure UnitMatches (moved : Renaming) (unit other : FileScope × File) : Prop where
  scope : unit.1.Matches moved other.1
  file : other.2 = unit.2.renumber moved.file

theorem UnitMatches.continues {more moved : Renaming} {size : Nat}
    (continues : more.Continues moved size) {units others : List (FileScope × File)}
    (pairs : List.Forall₂ (UnitMatches moved) units others)
    (old : ∀ unit ∈ units, ∀ (name : String) id, unit.1.imports[name]? = some id → id < size) :
    List.Forall₂ (UnitMatches more) units others := by
  induction pairs with
  | nil => exact .nil
  | cons first rest ih =>
      rw [List.forall_mem_cons] at old
      exact .cons ⟨continues.scope first.scope old.1, by rw [first.file, continues.file]⟩
        (ih old.2)

theorem UnitMatches.zip {moved : Renaming} {scopes others : List FileScope}
    (pairs : List.Forall₂ (FileScope.Matches moved) scopes others) {files copies : List File}
    (sources : List.Forall₂ (fun file copy => copy = file.renumber moved.file) files copies) :
    List.Forall₂ (UnitMatches moved) (scopes.zip files) (others.zip copies) := by
  induction pairs generalizing files copies with
  | nil => exact .nil
  | cons first rest ih =>
      cases sources with
      | nil => exact .nil
      | cons source sources => exact .cons ⟨first, source⟩ (ih sources)

/-- The values of one file, as far as the types of what they refer to are compared. -/
theorem values_inStep {moved : Renaming} {view : View} {unit other : FileScope × File}
    (corresponds : UnitMatches moved unit other) (full : view.Full)
    (seen : ∀ spec ∈ unit.2.vars, ∀ mark ∈ (Decl.var spec).marks, view.node mark.id)
    (unique : Mark.Unique (unit.2.recorded .values)) :
    InStep moved view (unit.2.recorded .values) (unit.2.vars.forM (resolvePackageVars unit.1))
      (other.2.vars.forM (resolvePackageVars other.1)) := by
  rw [File.recorded_values] at unique ⊢
  rw [corresponds.file, File.vars_renumber]
  rw [Mark.Unique, List.map_flatMap, List.nodup_flatMap] at unique
  refine .forM_map (fun spec declared => resolvePackageVars_inStep corresponds.scope full spec
    (seen spec declared) (unique.1 spec declared)) (unique.2.imp_of_mem fun _ declared disjoint => ?_)
  refine resolvePackageVars_leave moved.file moved.file_injective _ _ (unique.1 _ declared) ?_
  exact fun mark marked later later_marked same =>
    disjoint (List.mem_map_of_mem marked) (same ▸ List.mem_map_of_mem later_marked)

variable {moved : Renaming} {view : View} {units others : List (FileScope × File)}
  (pairs : List.Forall₂ (UnitMatches moved) units others)
include pairs

theorem names_alongside {count total : Nat} (owned : ∀ unit ∈ units,
      unit.1.package < count ∧ moved.package unit.1.package < total) :
    Alongside (Tables.MatchesWithin moved view count total)
      (units.forM fun unit => unit.2.decls.forM (declareNames unit.1.package))
      (others.forM fun unit => unit.2.decls.forM (declareNames unit.1.package)) := by
  refine .forM pairs fun unit listed other corresponds => ?_
  obtain ⟨own, other_own⟩ := owned unit listed
  rw [corresponds.file, corresponds.scope.package]
  exact .forM_map fun decl _ => declareNames_alongside own other_own decl

theorem types_alongside (members : ∀ package name, view.member package name) :
    Alongside (Tables.Matches moved view)
      (units.forM fun unit => unit.2.types.forM (completeType unit.1))
      (others.forM fun unit => unit.2.types.forM (completeType unit.1)) := by
  refine .forM pairs fun unit listed other corresponds => ?_
  rw [corresponds.file, File.types_renumber]
  exact .forM_map fun spec _ => completeType_alongside corresponds.scope members spec

theorem signatures_alongside (members : ∀ package name, view.member package name)
    (seen : ∀ unit ∈ units, ∀ decl ∈ unit.2.functions, decl.isMethod = false →
      view.node decl.name.id) :
    Alongside (Tables.Matches moved view)
      (units.forM fun unit => unit.2.functions.forM (declareSignature unit.1))
      (others.forM fun unit => unit.2.functions.forM (declareSignature unit.1)) := by
  refine .forM pairs fun unit listed other corresponds => ?_
  rw [corresponds.file, File.functions_renumber]
  refine .forM_map fun decl declared => ?_
  exact declareSignature_alongside corresponds.scope members decl (seen unit listed decl declared)

theorem values_alongside (full : view.Full) (typed : ∀ id, view.typed id)
    (seen : ∀ unit ∈ units, ∀ spec ∈ unit.2.vars, ∀ mark ∈ (Decl.var spec).marks, view.node mark.id)
    (unique : ∀ unit ∈ units, ∀ spec ∈ unit.2.vars, Mark.Unique (exprMarks spec.values)) :
    Alongside (Resolving.Matches moved view)
      (units.forM fun unit => unit.2.vars.forM (resolvePackageVars unit.1))
      (others.forM fun unit => unit.2.vars.forM (resolvePackageVars unit.1)) := by
  refine .forM pairs fun unit listed other corresponds => ?_
  rw [corresponds.file, File.vars_renumber]
  refine .forM_map fun spec declared => ?_
  exact (resolvePackageVars_inStep corresponds.scope full spec (seen unit listed spec declared)
    (unique unit listed spec declared)).alongside typed

theorem bodies_alongside (full : view.Full) (typed : ∀ id, view.typed id)
    (seen : ∀ unit ∈ units, ∀ decl ∈ unit.2.functions, ∀ mark ∈ decl.marks, view.node mark.id)
    (unique : ∀ unit ∈ units, ∀ decl ∈ unit.2.functions, Mark.Unique decl.innerMarks) :
    Alongside (Resolving.Matches moved view)
      (units.forM fun unit => unit.2.functions.forM (resolveBody unit.1))
      (others.forM fun unit => unit.2.functions.forM (resolveBody unit.1)) := by
  refine .forM pairs fun unit listed other corresponds => ?_
  rw [corresponds.file, File.functions_renumber]
  refine .forM_map fun decl declared => ?_
  exact (resolveBody_inStep corresponds.scope full decl (seen unit listed decl declared)
    (unique unit listed decl declared)).alongside typed

end Resolution

end Relock
