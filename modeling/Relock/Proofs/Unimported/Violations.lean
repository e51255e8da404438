import Mathlib.Data.List.Find
import Relock.Proofs.Reading.Numbering
import Relock.Proofs.Renaming.Programs
import Relock.Proofs.Sample
import Relock.Proofs.Tracking.Encounters
import Relock.Proofs.Unimported.Names
import Relock.Proofs.Unimported.Resolution

/-!
# Violations with one more file

A file that comes last, makes a package of its own and is imported by no other file changes nothing
of what is reported for the functions of the other files. It declares none of the callees of their
calls, and assigns to none of their variables.
-/

namespace Relock

/-- The marks of an assignment stand where values and bodies are resolved. -/
theorem Decl.recorded_of_assignment {decl : Decl} {assignment : Assignment}
    (listed : .assign assignment ∈ decl.bindings) :
    (Binding.assign assignment).marks ⊆ decl.recorded .values ++ decl.recorded .bodies := by
  have roots : decl.roots.flatMap Construct.marks ⊆
      decl.recorded .values ++ decl.recorded .bodies := by
    intro mark found
    cases decl with
    | func decl =>
        cases body : decl.body <;> simp_all [Decl.roots, Construct.marks_map_stmt, recorded,
          FuncDecl.innerMarks]
    | var spec => simp_all [Decl.roots, Construct.marks_map_expr, recorded]
    | type spec => simp [Decl.roots] at found
  rw [bindings_eq, List.mem_append, Option.mem_toList] at listed
  rcases listed with own | inner
  · cases decl <;> cases own
  · exact List.Subset.trans (decl.marks_of_roots inner) roots

namespace Program

variable {program : Program} {extra : File}

theorem functions_extend : (program.extend extra).functions = program.functions ++ extra.functions := by
  simp [functions, extend]

theorem bindings_extend :
    (program.extend extra).bindings = program.bindings ++ extra.decls.flatMap Decl.bindings := by
  simp [bindings_eq, decls, extend]

theorem pathOf_extend {id : NodeId} (inside : id.file < program.files.length) :
    (program.extend extra).pathOf id = program.pathOf id := by
  rw [pathOf, pathOf, extend, List.getElem?_append_left inside]

theorem ofTrees_concat (trees : List (String × Tree)) (path : String) (tree : Tree) :
    ofTrees (trees ++ [(path, tree)]) = (ofTrees trees).extend (tree.toFile trees.length path) := by
  simp [ofTrees, extend, List.zipIdx_append]

end Program

namespace Resolution

variable {assignment : Assignment} {id : SymbolId} {node : NodeId} {callee : Callee}

variable {program : Program} {extra : File} (unique : (program.extend extra).UniqueIds)
  {moved : Renaming} {others : List (FileScope × File)} {own : FileScope}
  (units_eq : (program.extend extra).units = others ++ [(own, extra)])
  (own_package : own.package = program.ownCount)
  (alike : Alike program.ownCount extra moved program.units others program.resolve
    (program.extend extra).resolve)
include unique units_eq own_package alike

/-- The file assigns to no variable of the others. -/
theorem Alike.not_reassigned (listed : .assign assignment ∈ extra.decls.flatMap Decl.bindings)
    (declared : program.resolve.declOf? id = some node) :
    moved.symbol id ∉ ProgramIndex.reassignedBy (program.extend extra).resolve assignment := by
  intro reassigned
  obtain ⟨target, target_mem, changed⟩ := List.mem_filterMap.mp reassigned
  simp only [Option.bind_eq_bind, Option.bind_eq_some_iff] at changed
  obtain ⟨ident, named, other, used, changed⟩ := changed
  split at changed
  · cases changed
  · cases changed
    obtain ⟨decl, decl_mem, listed⟩ := List.mem_flatMap.mp listed
    have marked : ident.mark ∈ innerMarks extra :=
      List.mem_flatMap.mpr ⟨decl, decl_mem, Decl.recorded_of_assignment listed
        (Assignment.mark_of_target target_mem named)⟩
    have member : (own, extra) ∈ (program.extend extra).units := by simp [units_eq]
    obtain ⟨symbol, found, home⟩ := Program.atHome_of_name unique member marked rfl used
    obtain ⟨before, before_found, decl_eq⟩ := Option.bind_eq_some_iff.mp declared
    obtain ⟨later, later_found, untyped⟩ := alike.same.exists_symbol? before_found
    cases found.symm.trans later_found
    have package : symbol.package = moved.package before.package :=
      Symbol.package_eq_of_untyped untyped
    rcases home with undeclared | at_home
    · have kept : symbol.decl = before.decl.map (NodeId.renumber moved.file) :=
        congrArg Symbol.decl untyped
      rw [undeclared, decl_eq] at kept
      cases kept
    · exact alike.moved_ne before.package (package.symm.trans (at_home.trans own_package))

omit alike in
/-- The functions of the file belong to its own package. -/
theorem package_of_extra {decl : FuncDecl} (member : decl ∈ extra.functions) {package : PackageId}
    (listed : (package, decl) ∈ declaredIn (program.extend extra).units) :
    package = program.ownCount := by
  obtain ⟨unit, unit_mem, declared, rfl⟩ := mem_declaredIn.mp listed
  rw [units_eq, List.mem_append, List.mem_singleton] at unit_mem
  rcases unit_mem with other | rfl
  · have file_mem : unit.2 ∈ program.files := map_snd_others units_eq ▸ List.mem_map_of_mem other
    have elsewhere := program.marks_of_function (List.mem_flatMap.mpr ⟨unit.2, file_mem, declared⟩)
      (List.mem_cons_self : ⟨decl.id, .declaration decl⟩ ∈ decl.marks)
    have here_mem := File.mem_functions.mp member
    exact absurd rfl (node_outside unique elsewhere _ here_mem _ List.mem_cons_self)
  · exact own_package

/-- The file declares no callee of the others. -/
theorem Alike.hasKey_eq_false {decl : FuncDecl} (member : decl ∈ extra.functions)
    (is_declared : callee.isDeclared = true) :
    ProgramIndex.hasKey (program.extend extra).resolve (callee.rename moved).key decl = false := by
  have run : Resolves _ _ _ _ := ⟨(program.extend extra).runs, unique⟩
  have extended : decl ∈ (program.extend extra).functions := by
    simp [Program.functions_extend, member]
  rw [ProgramIndex.hasKey, run.tables_eq]
  cases found_eq : Callee.ofDecl? (program.extend extra).resolved.tables decl with
  | none => rfl
  | some found =>
      obtain ⟨id, recorded⟩ := Callee.exists_objectOf found_eq
      obtain ⟨package, listed, declares⟩ := run.declares unique extended recorded
      obtain ⟨found_declared, found_package⟩ := Callee.package?_of_declares declares found_eq
      rw [package_of_extra unique units_eq own_package member listed] at found_package
      rw [Option.any_some, beq_eq_false_iff_ne]
      intro same
      have packages := Callee.package?_eq_of_key_eq found_declared
        ((callee.isDeclared_rename moved).trans is_declared) same
      rw [found_package, Callee.package?_rename, eq_comm, Option.map_eq_some_iff] at packages
      obtain ⟨package, -, moved_eq⟩ := packages
      exact alike.moved_ne package moved_eq

/-! ## Corresponding subjects -/

omit units_eq own_package in
theorem Alike.reassignedBy_eq (listed : assignment ∈ program.assignments) :
    ProgramIndex.reassignedBy (program.extend extra).resolve assignment =
      (ProgramIndex.reassignedBy program.resolve assignment).map moved.symbol := by
  have kept : assignment.renumber moved.file = assignment := by
    rw [alike.files]
    exact Binding.assign.inj (binding_renumber_id (.assign assignment))
  have reassigned := Subject.reassignedBy_eq alike.same (fun _ => node_outside unique)
    (fun _ => trivial) listed
  rwa [kept] at reassigned

variable (config : Config)

theorem Alike.isReassigned_eq (declared : program.resolve.declOf? id = some node) :
    (Subject.ofProgram (program.extend extra) config).isReassigned (moved.symbol id) =
      (Subject.ofProgram program config).isReassigned id := by
  rw [Bool.eq_iff_iff, Subject.isReassigned_iff, Subject.isReassigned_iff]
  constructor
  · rintro ⟨assignment, listed, reassigned⟩
    rw [Program.mem_assignments, Program.bindings_extend, List.mem_append] at listed
    rcases listed with old | new
    · have listed := Program.mem_assignments.mpr old
      rw [alike.reassignedBy_eq unique listed, List.mem_map] at reassigned
      obtain ⟨other, other_mem, same⟩ := reassigned
      exact ⟨assignment, listed, moved.symbol_injective same ▸ other_mem⟩
    · exact absurd reassigned (alike.not_reassigned unique units_eq own_package new declared)
  · rintro ⟨assignment, listed, reassigned⟩
    refine ⟨assignment, ?_, ?_⟩
    · rw [Program.mem_assignments, Program.bindings_extend]
      exact List.mem_append_left _ (Program.mem_assignments.mp listed)
    · rw [alike.reassignedBy_eq unique listed]
      exact List.mem_map_of_mem reassigned

variable (names : ∀ decl ∈ program.functions, ':' ∉ decl.name.name.toList)
include names

theorem Alike.declaration?_eq {call : Call}
    (callee_eq : Callee.ofCall? program.resolve call = some callee) :
    (Subject.ofProgram (program.extend extra) config).declaration? (callee.rename moved) =
      (Subject.ofProgram program config).declaration? callee := by
  rw [Subject.declaration?, Subject.declaration?, Callee.isDeclared_rename]
  split
  · rename_i is_declared
    have legible := Program.legible_of_call unique.of_extend names callee_eq is_declared
    have missing : extra.functions.find? (ProgramIndex.hasKey (program.extend extra).resolve
        (callee.rename moved).key) = none := by
      rw [List.find?_eq_none]
      intro decl member
      rw [alike.hasKey_eq_false unique units_eq own_package member is_declared]
      exact Bool.false_ne_true
    have found : program.functions.find? (ProgramIndex.hasKey (program.extend extra).resolve
        (callee.rename moved).key) =
          program.functions.find? (ProgramIndex.hasKey program.resolve callee.key) := by
      refine List.find?_congr fun decl member => ?_
      have keys := Subject.hasKey_eq alike.same (fun _ => node_outside unique) unique.of_extend names
        (fun _ => trivial) member legible
      rwa [alike.files, funcDecl_renumber_id] at keys
    change (ProgramIndex.declarationTable _ _)[_]? = (ProgramIndex.declarationTable _ _)[_]?
    rw [ProgramIndex.declarationTable_eq_find?, ProgramIndex.declarationTable_eq_find?,
      Program.functions_extend, List.find?_append, missing, Option.or_none, found]
  · rfl

/-- The program as a subject corresponds to the program with the file. -/
theorem Alike.corresponds
    (inside : ∀ mark ∈ program.marks, mark.id.file < program.files.length) :
    (Subject.ofProgram program config).Corresponds moved (.outside extra)
      (Subject.ofProgram (program.extend extra) config) where
  tables := alike.same
  full := View.outside_full extra
  typed _ := trivial
  seen _ := node_outside unique
  lock := rfl
  search := rfl
  place mark marked := by
    rw [alike.files]
    exact Program.pathOf_extend (inside mark marked)
  reassigned _ _ := alike.isReassigned_eq unique units_eq own_package config
  binding id node declared := by
    refine Subject.binding_eq unique.of_extend unique (fun binding listed => ?_) declared
    rw [alike.files, binding_renumber_id, Program.bindings_extend]
    exact List.mem_append_left _ listed
  declaration call callee _ callee_eq := by
    have same := alike.declaration?_eq unique units_eq own_package config names callee_eq
    have kept : FuncDecl.renumber moved.file = id := by
      rw [alike.files]
      exact funext funcDecl_renumber_id
    rw [same, kept, Option.map_id_fun, id]
  keys _ _ enterable other_enterable :=
    (Callee.key_rename_iff moved (enterable.legible unique.of_extend names)
      (other_enterable.legible unique.of_extend names)).symm

end Resolution

namespace Subject

theorem exists_corresponds {program : Program} {extra : File}
    (unimported : program.Unimported extra) (unique : (program.extend extra).UniqueIds)
    (inside : ∀ mark ∈ program.marks, mark.id.file < program.files.length)
    (names : ∀ decl ∈ program.functions, ':' ∉ decl.name.name.toList)
    (unqualified : ∀ decl ∈ extra.functions, ∀ receiver, decl.receiver = some receiver →
      receiver.type.isQualified = false) (config : Config) :
    ∃ moved : Renaming, moved.file = id ∧
      (ofProgram program config).Corresponds moved (.outside extra)
        (ofProgram (program.extend extra) config) := by
  obtain ⟨moved, others, own, units_eq, own_package, alike⟩ :=
    Resolution.exists_alike unimported unique unqualified
  exact ⟨moved, alike.files, alike.corresponds unique units_eq own_package config names inside⟩

/-- A last file that makes a package of its own, that no other file imports, and that declares no
methods on types of other packages changes none of the violations in the functions of the other
files. -/
theorem violationsIn_extend {program : Program} {extra : File}
    (unimported : program.Unimported extra) (unique : (program.extend extra).UniqueIds)
    (inside : ∀ mark ∈ program.marks, mark.id.file < program.files.length)
    (names : ∀ decl ∈ program.functions, ':' ∉ decl.name.name.toList)
    (unqualified : ∀ decl ∈ extra.functions, ∀ receiver, decl.receiver = some receiver →
      receiver.type.isQualified = false)
    (config : Config) {decl : FuncDecl} (declared : decl ∈ program.functions) :
    (ofProgram (program.extend extra) config).violationsIn decl =
      (ofProgram program config).violationsIn decl := by
  obtain ⟨moved, files, corresponds⟩ :=
    exists_corresponds unimported unique inside names unqualified config
  have same := corresponds.violationsIn_eq declared
  rwa [files, funcDecl_renumber_id] at same

/-- Of programs that are read from trees no more is asked than that the last tree makes such a file:
their constructs have numbers of their own. -/
theorem violationsIn_ofTrees_concat {trees : List (String × Tree)} {path : String} {tree : Tree}
    (unimported : (Program.ofTrees trees).Unimported (tree.toFile trees.length path))
    (names : ∀ decl ∈ (Program.ofTrees trees).functions, ':' ∉ decl.name.name.toList)
    (unqualified : ∀ decl ∈ (tree.toFile trees.length path).functions, ∀ receiver,
      decl.receiver = some receiver → receiver.type.isQualified = false)
    (config : Config) {decl : FuncDecl} (declared : decl ∈ (Program.ofTrees trees).functions) :
    (ofProgram (.ofTrees (trees ++ [(path, tree)])) config).violationsIn decl =
      (ofProgram (.ofTrees trees) config).violationsIn decl := by
  have unique := Program.nodup_ids_ofTrees (trees ++ [(path, tree)])
  rw [Program.ofTrees_concat] at unique ⊢
  obtain ⟨moved, files, corresponds⟩ := exists_corresponds unimported unique
    (fun _ => Program.file_lt_of_mem_marks) names unqualified config
  have same := corresponds.violationsIn_eq declared
  rwa [files, funcDecl_renumber_id] at same

/-- A function that acquires the lock of its argument and hands the argument on. -/
def lendingDecl : FuncDecl :=
  Sample.function 10 "F" ["s"] [Sample.lockCall 20 "s" "RLock", Sample.plainCall 30 "G" ["s"]]

/-- The program of that function and of another one, which acquires the lock of its argument. -/
def lending : Program :=
  Sample.program [lendingDecl, Sample.function 40 "G" ["s"] [Sample.lockCall 50 "s" "RLock"]]

/-- The same functions and the same type once more, in another package. -/
def lendingCopy : File :=
  ⟨1, "q/q.go", "q", "q", [⟨none, "sync"⟩], lending.decls.map (Decl.renumber fun _ => 1)⟩

/-- The copy does not change what is reported for the first function. -/
theorem lending_beside_copy :
    lending.Unimported lendingCopy ∧ (lending.extend lendingCopy).UniqueIds ∧
    (ofProgram (lending.extend lendingCopy) {}).violationsIn lendingDecl =
      [⟨.nested, "F", ⟨"p.go", 30, 1⟩, "s.mu",
        [⟨"G", ⟨"p.go", 30, 1⟩⟩, ⟨"RWMutex.RLock", ⟨"p.go", 50, 1⟩⟩]⟩] := by
  have unimported : lending.Unimported lendingCopy := ⟨by decide +kernel, by decide +kernel⟩
  have unique : (lending.extend lendingCopy).UniqueIds := by decide +kernel
  have unqualified : ∀ decl ∈ lendingCopy.functions, ∀ receiver, decl.receiver = some receiver →
      receiver.type.isQualified = false := by
    have plain : ∀ decl ∈ lendingCopy.functions, decl.receiver.isNone = true := by decide +kernel
    intro decl member receiver receiver_eq
    have missing := plain decl member
    rw [receiver_eq] at missing
    cases missing
  refine ⟨unimported, unique, ?_⟩
  rw [violationsIn_extend unimported unique (by decide +kernel) (by decide +kernel) unqualified {}
    (List.mem_cons_self : lendingDecl ∈ lending.functions)]
  exact @violationsIn_of_settled _ 4 _ _ (by decide +kernel)

end Subject

end Relock
