import Mathlib.Data.List.Find
import Mathlib.Data.List.Pairwise
import Relock.Proofs.Renaming.Programs
import Relock.Proofs.Reordering.Resolution
import Relock.Proofs.Sample
import Relock.Proofs.Tracking.Encounters

/-!
# Violations in another order

The violations of a program do not depend on the order of its files, if no package declares a name
twice, no two packages have the same name, no type gets two methods of one name, and no value of a
variable refers to a variable of another file whose type becomes known. The last two conditions are
needed: values are read in the order of the files, with the types that are known by then, and the
last method that a type gets under a name is the one that is found.
-/

namespace Relock

/-- Where at most one item has a property, the same item is found in any order. -/
theorem find?_eq_of_perm {α : Type} {items others : List α} {holds : α → Bool}
    (order : items.Perm others)
    (one : ∀ item ∈ items, ∀ other ∈ items, holds item = true → holds other = true → item = other) :
    others.find? holds = items.find? holds := by
  cases found : items.find? holds with
  | none =>
      rw [List.find?_eq_none] at found ⊢
      exact fun item listed => found item (order.mem_iff.mpr listed)
  | some item =>
      have right := List.find?_some found
      have listed := List.mem_of_find?_eq_some found
      obtain ⟨other, other_found⟩ := Option.isSome_iff_exists.mp
        (List.find?_isSome.mpr ⟨item, order.mem_iff.mp listed, right⟩)
      have other_mem := order.mem_iff.mpr (List.mem_of_find?_eq_some other_found)
      rw [other_found, one item listed other other_mem right (List.find?_some other_found)]

theorem eq_of_mem_flatMap {α β : Type} {items : List α} {parts : α → List β}
    (nodup : (items.flatMap parts).Nodup) {item other : α} (listed : item ∈ items)
    (other_listed : other ∈ items) {part : β} (inside : part ∈ parts item)
    (other_inside : part ∈ parts other) : item = other := by
  by_contra distinct
  have symmetric : Std.Symm (Function.onFun List.Disjoint parts) :=
    ⟨fun _ _ disjoint _ right left => disjoint left right⟩
  exact (List.nodup_flatMap.mp nodup).2.forall listed other_listed distinct inside other_inside

namespace Program

variable {program other : Program} {file : Nat → Nat} {first second : FuncDecl} {call : Call}
  {callee : Callee}

/-- A package that declares no name twice declares no function twice. -/
theorem eq_of_function_name (members : program.members.Nodup) {left right : File}
    (left_mem : left ∈ program.files) (right_mem : right ∈ program.files)
    (labels : (left.dir, left.package) = (right.dir, right.package))
    (first_mem : first ∈ left.functions) (second_mem : second ∈ right.functions)
    (plain : first.isMethod = false) (other_plain : second.isMethod = false)
    (names : first.name.name = second.name.name) : first = second := by
  let declared := program.files.flatMap fun file =>
    file.decls.map fun decl => ((file.dir, file.package), decl)
  have members_eq : program.members =
      declared.flatMap fun entry => entry.2.members.map (entry.1, ·) := by
    simp only [declared, Program.members, File.members, List.flatMap_assoc, List.flatMap_map,
      List.map_flatMap]
  have listed {file : File} (file_mem : file ∈ program.files) {decl : FuncDecl}
      (decl_mem : decl ∈ file.functions) : ((file.dir, file.package), .func decl) ∈ declared :=
    List.mem_flatMap.mpr ⟨file, file_mem, List.mem_map_of_mem (File.mem_functions.mp decl_mem)⟩
  have first_member : ((left.dir, left.package), first.name.name) ∈
      (Decl.func first).members.map ((left.dir, left.package), ·) := by simp [Decl.members, plain]
  have second_member : ((left.dir, left.package), first.name.name) ∈
      (Decl.func second).members.map ((right.dir, right.package), ·) := by
    simp [Decl.members, other_plain, labels, names]
  have same := eq_of_mem_flatMap (members_eq ▸ members) (listed left_mem first_mem)
    (listed right_mem second_mem) first_member second_member
  exact Decl.func.inj (congrArg Prod.snd same)

theorem Orderless.declaresOnce (orderless : program.Orderless) : program.DeclaresOnce where
  function _ left_mem _ right_mem labels _ first_mem _ second_mem plain other_plain names :=
    congrArg FuncDecl.id (eq_of_function_name orderless.members left_mem right_mem labels first_mem
      second_mem plain other_plain names)
  method left left_mem right right_mem _ first first_mem second second_mem known same names :=
    orderless.methods first (List.mem_flatMap.mpr ⟨left, left_mem, first_mem⟩) second
      (List.mem_flatMap.mpr ⟨right, right_mem, second_mem⟩) known same names

theorem pathOf_eq_of_path {id number : NodeId}
    (same : other.files[number.file]?.map File.path = program.files[id.file]?.map File.path) :
    other.pathOf number = program.pathOf id := by
  rw [pathOf, pathOf]
  cases found : program.files[id.file]? <;> cases other_found : other.files[number.file]? <;>
    simp_all

theorem exists_symbol_of_isDeclared {tables : Tables}
    (callee_eq : Callee.ofCall? tables call = some callee) (is_declared : callee.isDeclared = true) :
    ∃ id symbol, Callee.symbol? tables call.callee = some id ∧ tables.symbol? id = some symbol ∧
      symbol.kind.isCallable = true ∧ Callee.ofSymbolId? tables id = some callee := by
  have through : ∃ id, Callee.symbol? tables call.callee = some id := by
    rw [Callee.ofCall?, Callee.ofExpr?] at callee_eq
    rw [Callee.symbol?]
    generalize call.callee.unparen = called at callee_eq ⊢
    cases called with
    | ident | selector =>
        obtain ⟨id, recorded, -⟩ := Option.bind_eq_some_iff.mp callee_eq
        exact ⟨id, recorded⟩
    | literal =>
        cases callee_eq
        cases is_declared
    | call | paren | unary | composite | other => cases callee_eq
  obtain ⟨id, through⟩ := through
  rw [Callee.ofCall?, Callee.ofExpr?_of_symbol? through] at callee_eq
  obtain ⟨symbol, known, own⟩ := Option.bind_eq_some_iff.mp callee_eq
  refine ⟨id, symbol, through, known, ?_, callee_eq⟩
  rcases Callee.symbol_of_isDeclared own is_declared with ⟨kind, -⟩ | ⟨receiver, kind, -⟩ <;>
    rw [kind] <;> rfl

open Resolution in
/-- One declaration at most has the key of what a call calls. -/
theorem Orderless.eq_of_hasKey (orderless : program.Orderless) (site : .call call ∈ program.nodes)
    (callee_eq : Callee.ofCall? program.resolve call = some callee)
    (is_declared : callee.isDeclared = true) (first_mem : first ∈ program.functions)
    (second_mem : second ∈ program.functions)
    (first_key : ProgramIndex.hasKey program.resolve callee.key first = true)
    (second_key : ProgramIndex.hasKey program.resolve callee.key second = true) :
    first = second := by
  have unique := orderless.unique
  obtain ⟨units, declared, final, run⟩ := exists_resolves unique
  rw [run.tables_eq] at callee_eq first_key second_key
  obtain ⟨id, symbol, through, known, callable, callee_eq⟩ :=
    exists_symbol_of_isDeclared callee_eq is_declared
  have reachable := run.reachable unique site through
  have declares {decl : FuncDecl} (member : decl ∈ program.functions)
      (key : ProgramIndex.hasKey final.tables callee.key decl = true) :
      (Callee.ofDecl? final.tables decl).map Callee.key = some callee.key ∧
        ∃ package, (package, decl) ∈ declaredIn units ∧ final.tables.Declares package decl id := by
    rw [ProgramIndex.hasKey] at key
    cases own_eq : Callee.ofDecl? final.tables decl with
    | none => simp [own_eq] at key
    | some own =>
        rw [own_eq, Option.any_some, beq_iff_eq] at key
        have recorded := run.objectOf_of_key_eq unique orderless.names orderless.declaresOnce known
          callable reachable callee_eq member own_eq key
        exact ⟨congrArg some key, run.declares unique member recorded⟩
  obtain ⟨key_eq, package, listed, declared⟩ := declares first_mem first_key
  obtain ⟨other_key_eq, other_package, other_listed, other_declared⟩ :=
    declares second_mem second_key
  exact run.eq_of_key_eq unique orderless.names orderless.declaresOnce listed declared reachable
    other_listed other_declared (key_eq.trans other_key_eq.symm)

end Program

namespace Subject

variable {program other : Program} {file : Nat → Nat} {moved : Renaming}

section Correspondence

variable (order : program.Reordered other file) (files : moved.file = file)
  (same : program.resolve.Matches moved {} other.resolve) (config : Config)
include order files same

theorem isReassigned_eq (id : SymbolId) :
    (ofProgram other config).isReassigned (moved.symbol id) =
      (ofProgram program config).isReassigned id := by
  rw [Bool.eq_iff_iff, isReassigned_iff, isReassigned_iff]
  have reassigned {assignment : Assignment} (listed : assignment ∈ program.assignments) :
      moved.symbol id ∈ ProgramIndex.reassignedBy other.resolve (assignment.renumber file) ↔
        id ∈ ProgramIndex.reassignedBy program.resolve assignment := by
    rw [← files, reassignedBy_eq same (fun _ _ => trivial) (fun _ => trivial) listed,
      List.mem_map_of_injective moved.symbol_injective]
  constructor
  · rintro ⟨_, listed, found⟩
    obtain ⟨assignment, own, rfl⟩ := order.assign_mem_iff.mp listed
    exact ⟨assignment, own, (reassigned own).mp found⟩
  · rintro ⟨assignment, own, found⟩
    exact ⟨_, order.assign_mem_iff.mpr ⟨assignment, own, rfl⟩, (reassigned own).mpr found⟩

variable (orderless : program.Orderless)
include orderless

/-- A call runs the corresponding declaration in another order. -/
theorem declaration?_eq {call : Call} (site : .call call ∈ program.nodes) {callee : Callee}
    (callee_eq : Callee.ofCall? program.resolve call = some callee) :
    (ofProgram other config).declaration? (callee.rename moved) =
      ((ofProgram program config).declaration? callee).map (FuncDecl.renumber file) := by
  rw [declaration?, declaration?, Callee.isDeclared_rename]
  split
  · rename_i is_declared
    have legible := Program.legible_of_call orderless.unique orderless.names callee_eq is_declared
    have keys (decl : FuncDecl) (member : decl ∈ program.functions) :
        ProgramIndex.hasKey other.resolve (callee.rename moved).key (decl.renumber file) =
          ProgramIndex.hasKey program.resolve callee.key decl :=
      files ▸ hasKey_eq same (fun _ _ => trivial) orderless.unique orderless.names
        (fun _ => trivial) member legible
    change (ProgramIndex.declarationTable _ _)[_]? =
      ((ProgramIndex.declarationTable _ _)[_]?).map _
    rw [ProgramIndex.declarationTable_eq_find?, ProgramIndex.declarationTable_eq_find?,
      find?_eq_of_perm order.functions_perm ?_, List.find?_map]
    · exact congrArg _ (List.find?_congr keys)
    · intro _ listed _ other_listed key other_key
      obtain ⟨decl, member, rfl⟩ := List.mem_map.mp listed
      obtain ⟨another, another_mem, rfl⟩ := List.mem_map.mp other_listed
      rw [keys decl member] at key
      rw [keys another another_mem] at other_key
      rw [orderless.eq_of_hasKey site callee_eq is_declared member another_mem key other_key]
  · rfl

/-- The program as a subject corresponds to the program in another order. -/
theorem corresponds_reordered (unique : other.UniqueIds)
    (place : ∀ number, other.files[file number]?.map File.path =
      program.files[number]?.map File.path) :
    (ofProgram program config).Corresponds moved {} (ofProgram other config) where
  tables := same
  full := View.full_all
  typed _ := trivial
  seen _ _ := trivial
  lock := rfl
  search := rfl
  place mark _ := by
    rw [files]
    exact Program.pathOf_eq_of_path (place mark.id.file)
  reassigned id _ _ := isReassigned_eq order files same config id
  binding id node declared := by
    refine binding_eq orderless.unique unique (fun binding listed => ?_) declared
    rw [files]
    exact order.bindings_perm.subset (List.mem_map_of_mem listed)
  declaration call callee site callee_eq :=
    files ▸ declaration?_eq order files same config orderless site callee_eq
  keys _ _ enterable other_enterable :=
    (Callee.key_rename_iff moved (enterable.legible orderless.unique orderless.names)
      (other_enterable.legible orderless.unique orderless.names)).symm

end Correspondence

/-- The violations of a program do not depend on the order of its files. -/
theorem violations_perm_of_perm (files others : List File) (order : files.Perm others)
    (orderless : (Program.ofFiles files).Orderless) (config : Config) :
    (ofProgram (.ofFiles others) config).violations.Perm
      (ofProgram (.ofFiles files) config).violations := by
  obtain ⟨place, reordered, same_place⟩ := Program.exists_reordered order
  obtain ⟨moved, moved_file, same⟩ :=
    Resolution.exists_matches orderless reordered place.injective
  have corresponds := corresponds_reordered reordered moved_file same config orderless
    (reordered.uniqueIds place.injective orderless.unique) fun number => by
      rw [Program.path_ofFiles, Program.path_ofFiles, same_place]
  rw [violations, violations]
  refine (List.mergeSort_perm _ _).trans (.trans ?_ (List.mergeSort_perm _ _).symm)
  have functions := (reordered.functions_perm.flatMap_right
    (ofProgram (.ofFiles others) config).violationsIn).symm
  refine functions.trans (.of_eq ?_)
  rw [List.flatMap_map]
  exact List.flatMap_congr fun decl declared => moved_file ▸ corresponds.violationsIn_eq declared

/-- A file of package `p`. -/
def sourceFile (path : String) (decls : List Decl) : File :=
  ⟨0, path, "p", ".", [⟨none, "sync"⟩], decls⟩

/-- The type `S`, which has a lock in its field `mu`. -/
def holderType : Decl :=
  .type ⟨Sample.name 0 "S", .struct [⟨[Sample.name 1 "mu"], .qualified "sync" "RWMutex"⟩], .zero⟩

/-- The method `Get` of the type `S`, which makes calls. -/
def holderMethod (index : Nat) (calls : List Call) : Decl :=
  .func ⟨⟨0, index⟩, Sample.name (index + 1) "Get",
    some ⟨some (Sample.name (index + 2) "s"), .pointer (.name "S")⟩, [], none,
    some ⟨calls.map Sample.statement, .zero⟩, .zero⟩

/-- The variable `shared` of the package, which holds a new `S`. -/
def sharedHolder (index : Nat) : Decl :=
  .var ⟨⟨0, index⟩, [Sample.name (index + 1) "shared"], none,
    [.unary "&" (.composite (.name "S") [] .zero) .zero], .zero⟩

/-- The variable `held` of the package, which is another name for `shared`. -/
def heldHolder (index : Nat) : Decl :=
  .var ⟨⟨0, index⟩, [Sample.name (index + 1) "held"], none,
    [.ident (Sample.name (index + 2) "shared")], .zero⟩

/-- Two files that need each other: the first has a variable of a type of the second, and acquires
the lock of the variable before it calls the method of the type, which acquires the lock again. -/
def entangled : List File :=
  [sourceFile "a.go" [sharedHolder 0, heldHolder 2,
      .func (Sample.function 10 "F" []
        [Sample.lockCall 20 "held" "RLock", Sample.memberCall 30 "held" "Get"])],
    sourceFile "b.go" [holderType, holderMethod 10 [Sample.lockCall 20 "s" "RLock"]]]

/-- In either order of the files the second acquisition is reported. -/
theorem entangled_violations :
    entangled.Perm entangled.reverse ∧ (Program.ofFiles entangled).Orderless ∧
      (ofProgram (.ofFiles entangled) default).violations.length = 1 ∧
      (ofProgram (.ofFiles entangled.reverse) default).violations.Perm
        (ofProgram (.ofFiles entangled) default).violations := by
  have order : entangled.Perm entangled.reverse := (List.reverse_perm _).symm
  have orderless : (Program.ofFiles entangled).Orderless :=
    { unique := by decide +kernel
      members := by decide +kernel
      packages := by unfold Program.OneName; decide +kernel
      methods := by unfold Program.OneMethod; decide +kernel
      names := by decide +kernel
      values := by decide +kernel }
  refine ⟨order, orderless, ?_, violations_perm_of_perm _ _ order orderless default⟩
  rw [@length_violations_of_settled _ 3 (by decide +kernel)]
  decide +kernel

/-! ## Where the order matters -/

/-- A variable whose type becomes known from a variable of a later file. -/
def valueAhead : List File :=
  [sourceFile "a.go" [heldHolder 0],
    sourceFile "b.go" [holderType, sharedHolder 2,
      .func (Sample.function 10 "F" []
        [Sample.lockCall 20 "held" "RLock", Sample.lockCall 30 "held" "RLock"])]]

/-- A type that gets a method twice, and acquires its lock in one of them. -/
def methodTwice : List File :=
  [sourceFile "a.go" [holderType,
      .func (Sample.function 10 "F" ["s"]
        [Sample.lockCall 20 "s" "RLock", Sample.memberCall 30 "s" "Get"]),
      holderMethod 40 [Sample.lockCall 50 "s" "RLock"]],
    sourceFile "b.go" [holderMethod 40 []]]

theorem not_perm_of_settled {subject other : Subject} {count : Nat}
    (settled : ∀ decl ∈ subject.program.functions, subject.settledWithin count decl = true)
    (other_settled : ∀ decl ∈ other.program.functions, other.settledWithin count decl = true)
    (lengths : (subject.program.functions.flatMap (subject.violationsWithin count)).length ≠
      (other.program.functions.flatMap (other.violationsWithin count)).length) :
    ¬ subject.violations.Perm other.violations := by
  intro perm
  rw [← length_violations_of_settled settled, ← length_violations_of_settled other_settled]
    at lengths
  exact lengths perm.length_eq

/-- No package declares a name twice and no two packages have the same name, and yet the files in the
reverse order make other violations. -/
def OrderMatters (files : List File) : Prop :=
  ((files.map File.path).Nodup ∧ (Program.ofFiles files).UniqueIds ∧
    (Program.ofFiles files).members.Nodup ∧ (Program.ofFiles files).OneName) ∧
  ¬ (ofProgram (.ofFiles files.reverse) default).violations.Perm
    (ofProgram (.ofFiles files) default).violations

/-- The order of files matters where the type of a value becomes known in a later file, and where a
type gets a method twice. -/
theorem order_matters : OrderMatters valueAhead ∧ OrderMatters methodTwice := by
  unfold OrderMatters Program.OneName
  refine ⟨⟨by decide +kernel, ?_⟩, by decide +kernel, ?_⟩
  · exact @not_perm_of_settled _ _ 3 (by decide +kernel) (by decide +kernel) (by decide +kernel)
  · exact @not_perm_of_settled _ _ 3 (by decide +kernel) (by decide +kernel) (by decide +kernel)

end Subject

end Relock
