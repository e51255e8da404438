import Relock.Proofs.Program.Renumber
import Relock.Proofs.Reordering.Numbering

/-!
# Files in another order

A program whose files come in another order has the same declarations, bindings and functions, under
other numbers of files.
-/

namespace Relock

namespace Program

/-- The files of the second program are those of the first under other numbers, in some order. -/
def Reordered (program other : Program) (file : Nat → Nat) : Prop :=
  (program.files.map (File.renumber file)).Perm other.files

namespace Reordered

variable {program other : Program} {file : Nat → Nat} (order : program.Reordered other file)
include order

theorem exists_iff (holds : File → Prop) :
    (∃ source ∈ other.files, holds source) ↔ ∃ source ∈ program.files, holds (source.renumber file) := by
  simp [← order.mem_iff]

theorem forall_iff (holds : File → Prop) :
    (∀ source ∈ other.files, holds source) ↔ ∀ source ∈ program.files, holds (source.renumber file) := by
  simp [← order.mem_iff]

theorem functions_perm :
    (program.functions.map (FuncDecl.renumber file)).Perm other.functions := by
  have functions := order.flatMap_right File.functions
  rw [List.flatMap_map] at functions
  simp only [File.functions_renumber] at functions
  rwa [← List.map_flatMap] at functions

theorem decls_perm : (program.decls.map (Decl.renumber file)).Perm other.decls := by
  have decls := order.flatMap_right File.decls
  rw [List.flatMap_map] at decls
  rw [Program.decls, List.map_flatMap]
  exact decls

theorem bindings_perm : (program.bindings.map (Binding.renumber file)).Perm other.bindings := by
  have bindings := order.decls_perm.flatMap_right Decl.bindings
  rw [List.flatMap_map] at bindings
  simp only [Decl.bindings_renumber] at bindings
  rwa [← List.map_flatMap, ← program.bindings_eq, ← other.bindings_eq] at bindings

theorem marks_perm : (program.marks.map (Mark.renumber file)).Perm other.marks := by
  have marks := order.decls_perm.flatMap_right Decl.marks
  rw [List.flatMap_map] at marks
  simp only [Decl.marks_renumber] at marks
  rwa [← List.map_flatMap, ← program.marks_eq, ← other.marks_eq] at marks

theorem uniqueIds (injective : Function.Injective file) (unique : program.UniqueIds) :
    other.UniqueIds := by
  have ids := order.marks_perm.map Mark.id
  rw [List.map_map] at ids
  refine ids.nodup_iff.mp ?_
  have renumbered : Mark.id ∘ Mark.renumber file = NodeId.renumber file ∘ Mark.id := rfl
  rw [renumbered, ← List.map_map]
  exact List.Nodup.map (NodeId.renumber_injective injective) unique

theorem assign_mem_iff {assignment : Assignment} : assignment ∈ other.assignments ↔
    ∃ own ∈ program.assignments, own.renumber file = assignment := by
  rw [mem_assignments, ← order.bindings_perm.mem_iff, List.mem_map]
  constructor
  · rintro ⟨binding, listed, same⟩
    cases binding with
    | assign own => exact ⟨own, mem_assignments.mpr listed, Binding.assign.inj same⟩
    | declare spec => cases same
  · rintro ⟨own, listed, rfl⟩
    exact ⟨.assign own, mem_assignments.mp listed, rfl⟩

end Reordered

/-! ## Places as numbers -/

/-- The program of some files, each of which gets the number of its place. -/
def ofFiles (files : List File) : Program :=
  ⟨files.zipIdx.map fun entry => entry.1.renumber fun _ => entry.2⟩

theorem path_ofFiles (files : List File) (number : Nat) :
    (ofFiles files).files[number]?.map File.path = files[number]?.map File.path := by
  simp [ofFiles, List.getElem?_zipIdx, Function.comp_def, File.renumber]

/-- The same files in another order get other numbers. -/
theorem exists_reordered {files others : List File} (order : files.Perm others) :
    ∃ place : Equiv.Perm Nat, (ofFiles files).Reordered (ofFiles others) place ∧
      ∀ number, others[place number]? = files[number]? := by
  obtain ⟨place, renumbers⟩ := @exists_renumbers _ (fun _ => 1) _ _ order 0
  refine ⟨place, ?_, fun number => ?_⟩
  · have entries := (renumbers.zipIdx_perm (fun file => [file]) fun _ => rfl).map
      fun entry => entry.1.renumber fun _ => entry.2
    rw [List.flatMap_singleton', List.flatMap_singleton', List.map_map] at entries
    refine List.Perm.trans (.of_eq ?_) entries
    rw [ofFiles, List.map_map]
    exact List.map_congr_left fun entry _ => entry.1.renumber_renumber _ _
  · have same := renumbers.getElem?_eq (fun file => [file]) (fun _ => rfl) (Nat.zero_le number)
    rwa [List.flatMap_singleton', List.flatMap_singleton'] at same

end Program

end Relock
