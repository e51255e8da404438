import Mathlib.Data.List.Flatten
import Relock.Proofs.Callee.Declaration
import Relock.Proofs.Renaming.Rounds
import Relock.Proofs.Renaming.Signatures
import Relock.Proofs.Reordering.Order

/-!
# The rounds of declaration in any order

Files that declare different members and methods can be taken in any order when names are declared,
types are completed, signatures are declared and bodies are resolved. Each file has a view of what it
leaves alone: the records of other files, and what is not a member of its own.
-/

namespace Relock

open Tables (afterAll Orderly)

namespace File

/-- The names of members of its package that a file declares. -/
def members (file : File) : List String := file.decls.flatMap Decl.members

/-- The names of the variables of its package that a file declares. -/
def variableNames (file : File) : List Ident := file.vars.flatMap ValueSpec.names

theorem function_mem_members {file : File} {decl : FuncDecl} (declared : decl ∈ file.functions)
    (plain : decl.isMethod = false) : decl.name.name ∈ file.members :=
  List.mem_flatMap.mpr ⟨.func decl, mem_functions.mp declared, by simp [Decl.members, plain]⟩

theorem type_mem_members {file : File} {spec : TypeSpec} (declared : spec ∈ file.types)
    (nonempty : spec.name.name.isEmpty = false) : spec.name.name ∈ file.members :=
  List.mem_flatMap.mpr ⟨.type spec, mem_types.mp declared, by simp [Decl.members, nonempty]⟩

end File

/-! ## Some of the files -/

namespace Program

open Resolution

variable {program : Program} {items : List (FileScope × File)}

/-- The program with some of the files. -/
def ofUnits (items : List (FileScope × File)) : Program := ⟨items.map Prod.snd⟩

section Part

variable (part : items.Subperm program.units)
include part

theorem flatMap_ofUnits {α : Type} (parts : File → List α) :
    ((ofUnits items).files.flatMap parts).Subperm (program.files.flatMap parts) := by
  obtain ⟨list, order, inside⟩ := part
  rw [← program.map_snd_units]
  exact ⟨_, (order.map Prod.snd).flatMap_right _, (inside.map Prod.snd).flatMap _⟩

theorem marks_ofUnits : (ofUnits items).marks.Subperm program.marks :=
  flatMap_ofUnits part _

theorem functions_ofUnits {decl : FuncDecl} (member : decl ∈ (ofUnits items).functions) :
    decl ∈ program.functions := by
  obtain ⟨file, listed, declared⟩ := List.mem_flatMap.mp member
  obtain ⟨unit, unit_mem, rfl⟩ := List.mem_map.mp listed
  exact List.mem_flatMap.mpr ⟨unit.2, (List.of_mem_zip (part.subset unit_mem)).2, declared⟩

theorem declaredIn_subset : declaredIn items ⊆ declaredIn program.units := by
  intro entry member
  obtain ⟨unit, unit_mem, declared⟩ := List.mem_flatMap.mp member
  exact List.mem_flatMap.mpr ⟨unit, part.subset unit_mem, declared⟩

end Part

/-- What some of the files change, in whatever order, the program can change. -/
theorem Reaches.changes {start tables : Tables} (reaches : program.Reaches start)
    (part : items.Subperm program.units)
    (changes : Relation.ReflTransGen (Change (declaredIn items) (ofUnits items).marks) start
      tables) : program.Reaches tables :=
  reaches.trans (Relation.ReflTransGen.mono
    (fun _ _ change => change.widen (declaredIn_subset part) (marks_ofUnits part)) _ _ changes)

theorem Reaches.bounded {tables : Tables} (reaches : program.Reaches tables) : tables.Bounded :=
  bounded_of_changes reaches

theorem reaches_names (unique : program.UniqueIds) (part : items.Subperm program.units) :
    program.Reaches ((namesRound items).run program.imported.2).2 := by
  have plain := @declareNames_all_leads (ofUnits items) items _ rfl
    (fun unit member => program.lt_size_of_mem_units (part.subset member))
    fun _ decl member => program.objectOf_imported unique (functions_ofUnits part member)
  exact program.reaches_imported.changes part (plain.mono fun _ _ change =>
    change.mono (plainIn_subset items)).1

theorem reaches_types (part : items.Subperm program.units) :
    program.Reaches ((typesRound items).run program.named).2 := by
  refine program.reaches_named.changes part ?_
  exact (@completeType_all_leads _ (ofUnits items) items _ rfl program.reaches_named.housed
    fun unit member => package_lt_of_changes program.steps_named
      (program.lt_size_of_mem_units (part.subset member))).1

theorem reaches_signatures (unique : program.UniqueIds) (part : items.Subperm program.units) :
    program.Reaches ((signaturesRound items).run program.completed).2 := by
  refine program.reaches_completed.changes part ?_
  exact (@declareSignature_all_leads (ofUnits items) items _ rfl program.reaches_completed.housed
    (fun unit member => package_lt_of_changes (program.steps_named.trans program.steps_completed)
      (program.lt_size_of_mem_units (part.subset member)))
    fun _ decl member => program.objectOf_completed unique (functions_ofUnits part member)).1

end Program

namespace Resolution

/-- What an action makes of the tables. -/
def stepOf {α : Type} (action : α → Building PUnit) (item : α) (tables : Tables) : Tables :=
  ((action item).run tables).2

theorem afterAll_stepOf {α : Type} (action : α → Building PUnit) (items : List α)
    (tables : Tables) : afterAll (stepOf action) items tables = ((items.forM action).run tables).2 := by
  induction items generalizing tables with
  | nil => rfl
  | cons item items ih => exact ih _

theorem UnitMatches.of_continues {moved : Renaming} {size : Nat}
    (continues : moved.Continues .refl size) {unit : FileScope × File}
    (old : ∀ (name : String) id, unit.1.imports[name]? = some id → id < size) :
    UnitMatches moved unit unit where
  scope := continues.scope ⟨rfl, Scope.renamed_refl _⟩ old
  file := by rw [continues.file]; exact (file_renumber_id unit.2).symm

end Resolution

/-! ## Methods -/

namespace Program

open Resolution

/-- The named type whose method a declaration is, is written as the type of its receiver. -/
theorem base?_eq {program : Program} (unique : program.UniqueIds) {unit : FileScope × File}
    (listed : unit ∈ program.units) {decl : FuncDecl} (declared : decl ∈ unit.2.functions)
    {receiver : Receiver} (receiver_eq : decl.receiver = some receiver) :
    program.base? decl = (resolveType unit.1 program.completed receiver.type).named? := by
  rw [base?, receiverType?_resolve, receiverType?_signed unique listed declared receiver_eq,
    Option.bind_some]

end Program

/-! ## Two files -/

theorem Mark.Apart.node_or {left right : List Mark} (apart : Mark.Apart left right) (node : NodeId) :
    (∀ mark ∈ left, mark.id ≠ node) ∨ ∀ mark ∈ right, mark.id ≠ node := by
  by_contra neither
  simp only [not_or, not_forall, not_not, exists_prop] at neither
  obtain ⟨⟨mark, listed, same⟩, other, other_listed, other_same⟩ := neither
  exact apart mark listed other other_listed (same.trans other_same.symm)

namespace Program

open Resolution

theorem UniqueIds.recorded_file {program : Program} (unique : program.UniqueIds)
    {unit : FileScope × File} (listed : unit ∈ program.units) (round : Round) :
    Mark.Unique (unit.2.recorded round) := by
  have inside : unit.2.decls.Sublist program.decls :=
    List.sublist_flatten_of_mem (List.mem_map_of_mem (List.of_mem_zip listed).2)
  exact (unique.recorded_round round).sublist ((inside.flatMap _).map Mark.id)

/-- The members that the files of a program declare, each with its package. -/
def members (program : Program) : List ((String × String) × String) :=
  program.files.flatMap fun file => file.members.map ((file.dir, file.package), ·)

/-- No two methods of one type have one name. -/
def OneMethod (program : Program) : Prop :=
  ∀ first ∈ program.functions, ∀ second ∈ program.functions, (program.base? first).isSome = true →
    program.base? first = program.base? second → first.name.name = second.name.name →
      first.id = second.id

variable {program : Program} {first second : FileScope × File}
  (pair : [first, second].Subperm program.units)
include pair

theorem apart_of_pair (unique : program.UniqueIds) :
    Mark.Apart (first.2.decls.flatMap Decl.marks) (second.2.decls.flatMap Decl.marks) := by
  obtain ⟨list, order, inside⟩ := marks_ofUnits pair
  have nodup := (order.map Mark.id).nodup_iff.mp (unique.sublist (inside.map Mark.id))
  simp only [Program.marks, ofUnits, List.map_cons, List.map_nil, List.flatMap_cons,
    List.flatMap_nil, List.append_nil, List.map_append, List.nodup_append] at nodup
  exact fun mark listed other other_listed =>
    nodup.2.2 _ (List.mem_map_of_mem listed) _ (List.mem_map_of_mem other_listed)

/-- Functions and methods of two files have different numbers, and so have their names. -/
theorem functions_apart_of_pair (unique : program.UniqueIds) {decl other : FuncDecl}
    (declared : decl ∈ first.2.functions) (other_declared : other ∈ second.2.functions) :
    (decl.name.id ≠ other.name.id ∧ decl.id ≠ other.name.id) ∧
      decl.name.id ≠ other.id ∧ decl.id ≠ other.id := by
  have in_file {file : File} {decl : FuncDecl} (declared : decl ∈ file.functions) :
      ⟨decl.id, .declaration decl⟩ ∈ file.decls.flatMap Decl.marks ∧
        ⟨decl.name.id, .function decl⟩ ∈ file.decls.flatMap Decl.marks :=
    have listed := File.mem_functions.mp declared
    ⟨List.mem_flatMap.mpr ⟨_, listed, by simp [Decl.marks, FuncDecl.marks]⟩,
      List.mem_flatMap.mpr ⟨_, listed, by simp [Decl.marks, FuncDecl.marks]⟩⟩
  obtain ⟨number, name⟩ := in_file declared
  obtain ⟨other_number, other_name⟩ := in_file other_declared
  have apart := apart_of_pair pair unique
  exact ⟨⟨apart _ name _ other_name, apart _ number _ other_name⟩,
    apart _ name _ other_number, apart _ number _ other_number⟩

theorem recorded_apart_of_pair (unique : program.UniqueIds) (round other : Round) :
    Mark.Apart (first.2.recorded round) (second.2.recorded other) := by
  intro mark listed another other_listed
  obtain ⟨decl, declared, marked⟩ := File.exists_of_recorded listed
  obtain ⟨later, later_declared, later_marked⟩ := File.exists_of_recorded other_listed
  exact apart_of_pair pair unique mark (List.mem_flatMap.mpr ⟨decl, declared, marked⟩) another
    (List.mem_flatMap.mpr ⟨later, later_declared, later_marked⟩)

/-- Two files of one package declare different members. -/
theorem not_mem_members_of_pair (nodup : program.members.Nodup)
    (package : first.1.package = second.1.package) {name : String}
    (listed : name ∈ first.2.members) : name ∉ second.2.members := by
  have first_mem : first ∈ program.units := pair.subset (by simp)
  have second_mem : second ∈ program.units := pair.subset (by simp)
  have labels : (first.2.dir, first.2.package) = (second.2.dir, second.2.package) := by
    have own := (program.sees_of_mem_units first_mem).owns.2
    rw [package, (program.sees_of_mem_units second_mem).owns.2] at own
    exact (Option.some.inj own).symm
  obtain ⟨list, order, inside⟩ := flatMap_ofUnits pair
    fun file => file.members.map ((file.dir, file.package), ·)
  have apart := order.nodup_iff.mp (nodup.sublist inside)
  simp only [ofUnits, List.map_cons, List.map_nil, List.flatMap_cons, List.flatMap_nil,
    List.append_nil, List.nodup_append] at apart
  intro also
  exact apart.2.2 _ (List.mem_map_of_mem listed) _ (List.mem_map_of_mem also) (by rw [labels])

end Program

/-! ## Names -/

/-- All but the names that a file declares. -/
def View.ofNames (unit : FileScope × File) : View where
  node node := ∀ mark ∈ unit.2.recorded .names, mark.id ≠ node
  member package name := ¬(package = unit.1.package ∧ name ∈ unit.2.members)
  underlying ref := ¬(ref.package = unit.1.package ∧ ref.name ∈ unit.2.members)
  method ref _ := ¬(ref.package = unit.1.package ∧ ref.name ∈ unit.2.members)

namespace Resolution

theorem ofNames_kept (unit : FileScope × File) (tables : Tables) :
    tables.Keeps (.ofNames unit) ((unit.2.decls.forM (declareNames unit.1.package)).run tables).2 := by
  have each : Always (Tables.Keeps (.ofNames unit))
      (unit.2.decls.forM (declareNames unit.1.package)) := by
    refine .forM fun decl declared => declareNames_keeps ?_
    have own {name : String} (listed : name ∈ decl.members) : name ∈ unit.2.members :=
      List.mem_flatMap.mpr ⟨decl, declared, listed⟩
    exact
    { node := fun mark listed seen => seen mark (File.mem_recorded declared listed) rfl
      member := fun name listed seen => seen ⟨rfl, own listed⟩
      type := fun spec _ listed => ⟨fun seen => seen ⟨rfl, own listed⟩,
        fun _ seen => seen ⟨rfl, own listed⟩⟩ }
  exact .of_steps (each tables).1

variable {program : Program} {moved : Renaming} {size : Nat} {items : List (FileScope × File)}

theorem unit_matches {tables : Tables} (growth : program.imported.2.Extends tables)
    (continues : moved.Continues .refl tables.symbols.size) {unit : FileScope × File}
    (listed : unit ∈ program.units) :
    List.Forall₂ (UnitMatches moved) [unit] [unit] :=
  .cons (.of_continues continues (program.imports_lt_size growth unit listed)) .nil

theorem packages_size_names (part : items.Subperm program.units) :
    ((namesRound items).run program.imported.2).2.packages.size =
      program.imported.2.packages.size := by
  have pairs : List.Forall₂ (UnitMatches .refl) items items :=
    List.forall₂_same.mpr fun unit _ => ⟨⟨rfl, Scope.renamed_refl _⟩, (file_renumber_id unit.2).symm⟩
  have start : Tables.MatchesWithin .refl {} _ _ program.imported.2 program.imported.2 :=
    ⟨.refl (fun _ => trivial) fun _ _ _ _ => trivial, rfl, rfl⟩
  exact (names_alongside pairs (fun unit listed =>
    ⟨program.lt_size_of_mem_units (part.subset listed),
      program.lt_size_of_mem_units (part.subset listed)⟩) _ _ start).1.left_size

theorem names_orderly (unique : program.UniqueIds) (nodup : program.members.Nodup) :
    Orderly (stepOf fun unit : FileScope × File => unit.2.decls.forM (declareNames unit.1.package))
      program.imported.2 program.units .ofNames fun _ _ => True where
  bounded items part := by
    rw [afterAll_stepOf]
    exact (program.reaches_names unique part).bounded
  keeps items unit _ := by
    rw [Tables.afterAll_concat]
    exact ofNames_kept unit _
  closed _ _ _ :=
    { fresh := fun _ => trivial
      types := fun _ _ _ _ => trivial
      underlying := fun _ => id
      method := fun _ _ => id }
  along items others unit part other_part moved view _ continues matching := by
    have listed : unit ∈ program.units := part.subset (by simp)
    have size {items : List (FileScope × File)} (part : (items ++ [unit]).Subperm program.units) :=
      packages_size_names ((List.sublist_append_left items [unit]).subperm.trans part)
    have own := program.lt_size_of_mem_units listed
    rw [Tables.afterAll_concat, Tables.afterAll_concat]
    rw [afterAll_stepOf, afterAll_stepOf] at matching ⊢
    have along := names_alongside (unit_matches (.refl _) continues listed)
      (fun other other_listed => by
        cases List.mem_singleton.mp other_listed
        rw [continues.package]
        exact ⟨own, own⟩) _ _ ⟨matching, size part, size other_part⟩
    exact along.1.same
  whole _ _ := trivial
  apart _ _ _ := trivial
  cover items first second part := by
    have pair := (List.sublist_append_right items _).subperm.trans part
    have apart := Program.recorded_apart_of_pair pair unique .names .names
    have member (package : PackageId) (name : String) :
        (View.ofNames first).member package name ∨ (View.ofNames second).member package name := by
      by_contra neither
      simp only [View.ofNames, not_or, not_not] at neither
      obtain ⟨⟨own, listed⟩, other_own, also⟩ := neither
      exact Program.not_mem_members_of_pair pair nodup (own.symm.trans other_own) listed also
    exact
    { node := apart.node_or
      typed := fun _ => .inl trivial
      member := member
      underlying := fun ref _ => (member ref.package ref.name).imp (fun seen => ⟨seen, seen⟩)
        fun seen => ⟨seen, seen⟩
      method := fun ref name _ => (member ref.package ref.name).imp (fun seen => ⟨seen, seen⟩)
        fun seen => ⟨seen, seen⟩ }

/-! ## Types -/

end Resolution

/-- Members of packages, methods and the types of entities. -/
def View.declared : View where
  node _ := False
  underlying _ := False

/-- All but the records and the types of a file. -/
def View.ofTypes (unit : FileScope × File) : View where
  node node := ∀ mark ∈ unit.2.recorded .types, mark.id ≠ node
  underlying ref := ∀ spec ∈ unit.2.types, ref ≠ ⟨unit.1.package, spec.name.name⟩

namespace Resolution

theorem ofTypes_kept (unit : FileScope × File) (tables : Tables) :
    tables.Keeps (.ofTypes unit) ((unit.2.types.forM (completeType unit.1)).run tables).2 := by
  have each : Always (Tables.Keeps (.ofTypes unit)) (unit.2.types.forM (completeType unit.1)) := by
    refine .forM fun spec declared => completeType_keeps (fun ident named seen => ?_)
      fun seen => seen spec declared rfl
    have listed : ident.mark ∈ (Decl.type spec).recorded .types := List.mem_map_of_mem named
    exact seen ident.mark (File.mem_recorded (File.mem_types.mp declared) listed) rfl
  exact .of_steps (each tables).1

/-- There are no more types without a name than before. -/
def SameNameless (before after : Tables) : Prop :=
  ∀ ref : NamedRef, ref.name.isEmpty = true → after.named.contains ref = before.named.contains ref

theorem declareNames_nameless (package : PackageId) (decl : Decl) :
    Always SameNameless (declareNames package decl) := by
  have member (ident : Ident) (symbol : Symbol) : Always SameNameless (declareMember ident symbol) :=
    .bind (.modifyGet fun _ _ _ => rfl) fun _ => .modify fun _ _ _ => rfl
  cases decl with
  | type spec =>
      rw [declareNames]
      split
      · exact .pure _
      · rename_i nonempty
        refine (member _ _).bind fun _ => .modify fun tables ref empty => ?_
        have apart : (⟨package, spec.name.name⟩ : NamedRef) ≠ ref := by
          rintro rfl
          exact nonempty empty
        simp [Tables.setNamed, Std.TreeMap.contains_insert, apart]
  | func decl =>
      rw [declareNames]
      split
      · exact .pure _
      · exact member _ _
  | var spec =>
      rw [declareNames]
      refine .forM fun ident _ => ?_
      split
      · exact .pure _
      · exact member _ _

theorem nonempty_of_named {program : Program} {ref : NamedRef} (known : program.named.named.contains ref = true) :
    ref.name.isEmpty = false := by
  by_contra empty
  rw [Bool.not_eq_false] at empty
  have names : Always SameNameless (namesRound program.units) :=
    .forM fun unit _ => .forM fun decl _ => declareNames_nameless unit.1.package decl
  have named : program.named.named.contains ref = program.imported.2.named.contains ref :=
    @kept_of_steps _ SameNameless
      (fun tables => tables.named.contains ref = program.imported.2.named.contains ref)
      (fun _ _ same earlier => (same ref empty).trans earlier) _ _ (names program.imported.2).1 rfl
  have imported : program.imported.2.named.contains ref = Predeclared.tables.named.contains ref :=
    (Tables.Keeps.of_steps (@declareScopes_keeps {} program.files Predeclared.tables).1).named ref
      trivial
  rw [named, imported] at known
  have predeclared : ∀ entry ∈ Predeclared.tables.named.toList, entry.1.name.isEmpty = false := by
    decide +kernel
  obtain ⟨type, found⟩ := Tables.exists_of_contains known
  have nonempty := predeclared (ref, type) (Std.TreeMap.mem_toList_iff_getElem?_eq_some.mpr found)
  rw [empty] at nonempty
  cases nonempty

variable {program : Program}

theorem types_keep_declared (items : List (FileScope × File)) (tables : Tables) :
    tables.Keeps .declared ((typesRound items).run tables).2 := by
  have each : Always (Tables.Keeps .declared) (typesRound items) :=
    .forM fun _ _ => .forM fun _ _ => completeType_keeps (fun _ _ => id) id
  exact .of_steps (each tables).1

theorem types_orderly (unique : program.UniqueIds) (nodup : program.members.Nodup) :
    Orderly (stepOf fun unit : FileScope × File => unit.2.types.forM (completeType unit.1))
      program.named program.units .ofTypes fun view _ => ∀ package name, view.member package name where
  bounded items part := by
    rw [afterAll_stepOf]
    exact (program.reaches_types part).bounded
  keeps items unit _ := by
    rw [Tables.afterAll_concat]
    exact ofTypes_kept unit _
  closed _ _ _ :=
    { fresh := fun _ => trivial
      types := fun _ _ _ _ => trivial
      underlying := fun _ _ => trivial
      method := fun _ _ _ => trivial }
  along items others unit part other_part moved view members continues matching := by
    have listed : unit ∈ program.units := part.subset (by simp)
    rw [Tables.afterAll_concat, Tables.afterAll_concat]
    exact (types_alongside (unit_matches (grows_of_changes program.steps_named) continues listed)
      members _ _ matching).1
  whole _ _ _ _ := trivial
  apart _ _ _ _ _ := trivial
  cover items first second part := by
    have pair := (List.sublist_append_right items _).subperm.trans part
    have apart := Program.recorded_apart_of_pair pair unique .types .types
    exact
    { node := apart.node_or
      typed := fun _ => .inl trivial
      member := fun _ _ => .inl trivial
      underlying := fun ref known => by
        by_contra neither
        simp only [View.ofTypes, true_and, not_or, not_forall, not_not, exists_prop] at neither
        obtain ⟨⟨spec, declared, rfl⟩, other, other_declared, same⟩ := neither
        rw [afterAll_stepOf, (types_keep_declared _ _).named _ trivial] at known
        have nonempty := nonempty_of_named known
        obtain ⟨package, name⟩ := NamedRef.mk.inj same
        refine Program.not_mem_members_of_pair pair nodup package
          (File.type_mem_members declared nonempty) ?_
        rw [name] at nonempty ⊢
        exact File.type_mem_members other_declared nonempty
      method := fun _ _ _ => .inl ⟨trivial, trivial⟩ }

end Resolution

/-! ## Signatures -/

/-- All but the functions and methods of a file, as they are known before signatures. -/
def View.ofSignatures (tables : Tables) (unit : FileScope × File) : View where
  node node := ∀ decl ∈ unit.2.functions, decl.isMethod = true → decl.name.id ≠ node ∧ decl.id ≠ node
  typed id := ∀ decl ∈ unit.2.functions, decl.isMethod = false → tables.objectOf decl.name ≠ some id
  method ref name := ∀ decl ∈ unit.2.functions, ∀ receiver, decl.receiver = some receiver →
    (Resolution.resolveType unit.1 tables receiver.type).named? = some ref → decl.name.name ≠ name

namespace Resolution

variable {program : Program} (unique : program.UniqueIds) {unit : FileScope × File}
  {items : List (FileScope × File)}
include unique

/-- What functions are recorded for is no type. -/
theorem ofSignatures_typed (listed : unit ∈ program.units) {id : SymbolId} {symbol : Symbol}
    (found : program.completed.symbol? id = some symbol) (is_type : symbol.kind = .typeName) :
    (View.ofSignatures program.completed unit).typed id := by
  intro decl declared plain recorded
  obtain ⟨other, other_found, entity⟩ := Option.map_eq_some_iff.mp
    (Program.entity_of_function unique listed declared plain recorded)
  cases found.symm.trans other_found
  cases is_type.symm.trans (congrArg Entity.kind entity)

theorem ofSignatures_kept (part : (items ++ [unit]).Subperm program.units) :
    ((signaturesRound items).run program.completed).2.Keeps (.ofSignatures program.completed unit)
      ((signaturesRound [unit]).run ((signaturesRound items).run program.completed).2).2 := by
  have listed : unit ∈ program.units := part.subset (by simp)
  have some_items : items ⊆ program.units := fun _ member => part.subset (by simp [member])
  have in_program {decl : FuncDecl} (declared : decl ∈ unit.2.functions) : decl ∈ program.functions :=
    functions_of_units program.map_snd_units (mem_declaredIn.mpr ⟨unit, listed, declared, rfl⟩)
  refine signatures_keep_after unique some_items (by simpa using listed) (fun _ _ => trivial)
    (fun _ _ => ofSignatures_typed unique listed) (fun other other_mem decl declared plain => ?_)
    (fun other other_mem decl declared method => ?_)
    fun other other_mem decl declared receiver ref receiver_eq named seen => ?_ <;>
    cases List.mem_singleton.mp other_mem
  · refine ⟨fun other other_declared method => ?_, fun id recorded typed =>
      typed decl declared plain recorded⟩
    obtain ⟨mark, mark_mem, same⟩ := mem_recorded_names (in_program declared) plain
    obtain ⟨name, number⟩ := unique.names_apart mark_mem (in_program other_declared) method
    rw [same] at name number
    exact ⟨name.symm, number.symm⟩
  · exact ⟨fun seen => (seen decl declared method).1 rfl,
      fun seen => (seen decl declared method).2 rfl⟩
  · exact seen decl declared receiver receiver_eq named rfl

theorem ofSignatures_closed (part : (items ++ [unit]).Subperm program.units) :
    (View.ofSignatures program.completed unit).Closed
      ((signaturesRound items).run program.completed).2 := by
  have listed : unit ∈ program.units := part.subset (by simp)
  have names := signatures_keep_names unique (fun _ member => part.subset
    (List.mem_append_left _ member) : items ⊆ program.units)
  have beyond (id : SymbolId) (new : program.completed.symbols.size ≤ id) :
      (View.ofSignatures program.completed unit).typed id := fun decl _ _ recorded =>
    absurd (program.reaches_completed.bounded.uses _ _ recorded) (Nat.not_lt.mpr new)
  refine ⟨fun count => beyond _ (Nat.le_trans names.size (Nat.le_add_right _ _)),
    fun id symbol found is_type => ?_, fun _ _ => trivial, fun _ _ _ => trivial⟩
  by_cases old : id < program.completed.symbols.size
  · have shape := names.shape id old
    rw [found, Option.map_some] at shape
    obtain ⟨before, before_found, untyped⟩ := Option.map_eq_some_iff.mp shape.symm
    exact ofSignatures_typed unique listed before_found
      ((Symbol.kind_eq_of_untyped untyped).trans is_type)
  · exact beyond id (Nat.not_lt.mp old)

section Pairs

variable {first second : FileScope × File} (pair : [first, second].Subperm program.units)
include pair

/-- No function is declared in two files. -/
theorem ofSignatures_typed_or (nodup : program.members.Nodup) (id : SymbolId) :
    (View.ofSignatures program.completed first).typed id ∨
      (View.ofSignatures program.completed second).typed id := by
  by_contra neither
  simp only [View.ofSignatures, not_or, not_forall, not_not, exists_prop] at neither
  obtain ⟨⟨decl, declared, plain, recorded⟩, other, other_declared, other_plain,
    other_recorded⟩ := neither
  have entity :=
    Program.entity_of_function unique (pair.subset (by simp)) declared plain recorded
  rw [Program.entity_of_function unique (pair.subset (by simp)) other_declared other_plain
    other_recorded] at entity
  obtain ⟨name, -, package⟩ := Entity.mk.inj (Option.some.inj entity)
  refine Program.not_mem_members_of_pair pair nodup package.symm
    (File.function_mem_members declared plain) ?_
  rw [← name]
  exact File.function_mem_members other_declared other_plain

/-- No method is declared in two files. -/
theorem ofSignatures_method_or (methods : program.OneMethod) (ref : NamedRef) (name : String) :
    (View.ofSignatures program.completed first).method ref name ∨
      (View.ofSignatures program.completed second).method ref name := by
  have in_program {unit : FileScope × File} (listed : unit ∈ [first, second]) {decl : FuncDecl}
      (declared : decl ∈ unit.2.functions) : decl ∈ program.functions :=
    functions_of_units program.map_snd_units
      (mem_declaredIn.mpr ⟨unit, pair.subset listed, declared, rfl⟩)
  by_contra neither
  simp only [View.ofSignatures, not_or, not_forall, not_not, exists_prop] at neither
  obtain ⟨⟨decl, declared, receiver, receiver_eq, named, rfl⟩, other, other_declared,
    other_receiver, other_receiver_eq, other_named, same⟩ := neither
  rw [← Program.base?_eq unique (pair.subset (by simp)) declared receiver_eq] at named
  rw [← Program.base?_eq unique (pair.subset (by simp)) other_declared other_receiver_eq]
    at other_named
  exact (Program.functions_apart_of_pair pair unique declared other_declared).2.2
    (methods decl (in_program (by simp) declared) other (in_program (by simp) other_declared)
      (by rw [named]; rfl) (named.trans other_named.symm) same.symm)

theorem ofSignatures_node_or (node : NodeId) :
    (View.ofSignatures program.completed first).node node ∨
      (View.ofSignatures program.completed second).node node := by
  by_contra neither
  simp only [View.ofSignatures, not_or, not_forall, exists_prop] at neither
  obtain ⟨⟨decl, declared, -, named⟩, other, other_declared, -, other_named⟩ := neither
  have apart := Program.functions_apart_of_pair pair unique declared other_declared
  grind

end Pairs

theorem signatures_orderly (nodup : program.members.Nodup) (methods : program.OneMethod) :
    Orderly (stepOf fun unit : FileScope × File => unit.2.functions.forM (declareSignature unit.1))
      program.completed program.units (.ofSignatures program.completed) fun view unit =>
        (∀ package name, view.member package name) ∧
          ∀ decl ∈ unit.2.functions, decl.isMethod = false → view.node decl.name.id where
  bounded items part := by
    rw [afterAll_stepOf]
    exact (program.reaches_signatures unique part).bounded
  keeps items unit part := by
    rw [Tables.afterAll_concat, afterAll_stepOf]
    exact ofSignatures_kept unique part
  closed items unit part := by
    rw [afterAll_stepOf]
    exact ofSignatures_closed unique part
  along items others unit part other_part moved view fits continues matching := by
    have listed : unit ∈ program.units := part.subset (by simp)
    have growth := (grows_of_changes program.steps_named).trans
      (grows_of_changes program.steps_completed)
    rw [Tables.afterAll_concat, Tables.afterAll_concat]
    exact (signatures_alongside (unit_matches growth continues listed) fits.1
      (fun other other_mem => List.mem_singleton.mp other_mem ▸ fits.2) _ _ matching).1
  whole _ _ := ⟨fun _ _ => trivial, fun _ _ _ => trivial⟩
  apart first second pair := ⟨fun _ _ => trivial, fun decl declared _ other other_declared _ =>
    (Program.functions_apart_of_pair pair unique other_declared declared).1⟩
  cover items first second part := by
    have pair := (List.sublist_append_right items _).subperm.trans part
    exact
    { node := ofSignatures_node_or unique pair
      typed := ofSignatures_typed_or unique pair nodup
      member := fun _ _ => .inl trivial
      underlying := fun _ _ => .inl ⟨trivial, trivial⟩
      method := fun ref name _ => (ofSignatures_method_or unique pair methods ref name).imp
        (fun seen => ⟨trivial, seen⟩) fun seen => ⟨trivial, seen⟩ }

end Resolution

/-! ## Bodies -/

namespace Resolution

/-- What an action in bodies makes of the tables. -/
def resolveStepOf {α : Type} (action : α → Resolve PUnit) (item : α) (tables : Tables) : Tables :=
  ((action item).run { tables }).2.tables

/-- Where open scopes are left as they are, the tables are all that changes. -/
theorem afterAll_resolveStepOf {α : Type} {action : α → Resolve PUnit}
    (keeping : ∀ item, Keeping (action item)) (items : List α) (tables : Tables) :
    ((items.forM action).run { tables }).2 =
      { tables := afterAll (resolveStepOf action) items tables } := by
  induction items generalizing tables with
  | nil => rfl
  | cons item items ih =>
      have first : ((action item).run { tables }).2 =
          { tables := resolveStepOf action item tables } := by
        have scopes := (keeping item { tables }).scopes
        generalize reached : ((action item).run { tables }).2 = state at scopes
        obtain ⟨after, open_scopes⟩ := state
        cases scopes
        rw [resolveStepOf, reached]
        rfl
      exact (congrArg (fun state => ((items.forM action).run state).2) first).trans (ih _)

theorem tables_resolveStepOf {α : Type} {action : α → Resolve PUnit}
    (keeping : ∀ item, Keeping (action item)) (items : List α) (tables : Tables) :
    afterAll (resolveStepOf action) items tables =
      ((items.forM action).run { tables }).2.tables :=
  (congrArg Resolving.tables (afterAll_resolveStepOf keeping items tables)).symm

theorem bodies_keeping (unit : FileScope × File) :
    Keeping (unit.2.functions.forM (resolveBody unit.1)) :=
  .forM fun decl _ => resolveBody_keeping decl

theorem values_keeping (unit : FileScope × File) :
    Keeping (unit.2.vars.forM (resolvePackageVars unit.1)) :=
  .forM fun spec _ => resolvePackageVars_keeping spec

end Resolution

namespace Program

open Resolution

variable {program : Program} {items : List (FileScope × File)}

/-- What some of the files do in values and bodies, in whatever order, keeps states sound. -/
theorem sound_after (part : items ⊆ program.units) {marks : List Mark} {before after : Resolving}
    (sound : Sound program.units before)
    (steps : Relation.ReflTransGen (StepIn items marks) before after) :
    Sound program.units after := by
  refine kept_of_steps (fun _ _ step sound => ?_) steps sound
  obtain ⟨unit, member, step⟩ := step
  exact sound.step (part member) step

theorem bounded_of_sound {state : Resolving} (sound : Sound program.units state) :
    state.tables.Bounded :=
  sound.coherent.bounded sound.refers

theorem ready_valued (unit : FileScope × File) (member : unit ∈ program.units) :
    Ready unit.1 program.signed.packages.size program.valued :=
  kept_of_steps (fun _ _ step => step.ready) program.steps_valued (program.ready_signed unit member)

theorem grows_valued (program : Program) :
    program.imported.2.Extends program.valued.tables :=
  (grows_of_changes program.steps_signed).trans
    (@kept_of_steps _ _ (fun state : Resolving => program.signed.Extends state.tables)
      (fun _ _ step growth => growth.trans step.grows) _ _ program.steps_valued (.refl _))

theorem valued_eq (program : Program) : program.valued = { tables := program.valued.tables } := by
  have scopes : program.valued.scopes = .empty :=
    (valuesRound_keeping program.units { tables := program.signed }).scopes
  rw [← scopes]

end Program

/-- All but the records in the bodies of a file. -/
def View.ofBodies (unit : FileScope × File) : View where
  node node := ∀ mark ∈ unit.2.recorded .bodies, mark.id ≠ node

namespace Resolution

variable {program : Program} (unique : program.UniqueIds)
include unique

theorem bodies_orderly :
    Orderly (resolveStepOf fun unit : FileScope × File => unit.2.functions.forM (resolveBody unit.1))
      program.valued.tables program.units .ofBodies fun view unit => view.Full ∧
        (∀ id, view.typed id) ∧ ∀ decl ∈ unit.2.functions, ∀ mark ∈ decl.marks, view.node mark.id where
  bounded items part := by
    rw [tables_resolveStepOf bodies_keeping, ← program.valued_eq]
    have steps := (@bodies_lead (Program.ofUnits items) items _ program.valued (fun unit member =>
      Program.ready_valued unit (part.subset member)) rfl).1
    exact Program.bounded_of_sound
      (Program.sound_after part.subset (program.sound_of_steps program.steps_valued) steps)
  keeps items unit part := by
    have listed : unit ∈ program.units := part.subset (by simp)
    rw [Tables.afterAll_concat]
    refine @resolveBodies_keep _ [unit] { tables := _ } fun other other_mem decl declared => ?_
    cases List.mem_singleton.mp other_mem
    have decl_mem := File.mem_functions.mp declared
    exact ⟨unique.recorded_decl (Program.decl_mem_of_units listed decl_mem) .bodies,
      fun mark marked seen => seen mark (File.mem_recorded decl_mem marked) rfl⟩
  closed items unit part :=
    { fresh := fun _ => trivial
      types := fun _ _ _ _ => trivial
      underlying := fun _ _ => trivial
      method := fun _ _ _ => trivial }
  along items others unit part other_part moved view fits continues matching := by
    have listed : unit ∈ program.units := part.subset (by simp)
    rw [Tables.afterAll_concat, Tables.afterAll_concat]
    obtain ⟨full, typed, seen⟩ := fits
    have start : Resolving.Matches moved view { tables := _ } { tables := _ } := ⟨matching, .nil⟩
    refine (bodies_alongside (unit_matches program.grows_valued continues listed) full typed
      (fun other other_mem => List.mem_singleton.mp other_mem ▸ seen)
      (fun other other_mem decl declared => ?_) _ _ start).1.tables
    cases List.mem_singleton.mp other_mem
    exact unique.recorded_decl
      (Program.decl_mem_of_units listed (File.mem_functions.mp declared)) .bodies
  whole _ _ := ⟨View.full_all, fun _ => trivial,
    fun _ _ _ _ => trivial⟩
  apart first second pair := by
    refine ⟨⟨fun _ _ => trivial, fun _ => trivial, fun _ _ => trivial⟩, fun _ => trivial,
      fun decl declared mark marked other other_listed => ?_⟩
    obtain ⟨from_decl, from_mem, other_marked⟩ := File.exists_of_recorded other_listed
    exact Program.apart_of_pair pair unique other
      (List.mem_flatMap.mpr ⟨from_decl, from_mem, other_marked⟩) mark
      (List.mem_flatMap.mpr ⟨_, File.mem_functions.mp declared, marked⟩)
  cover items first second part := by
    have pair := (List.sublist_append_right items _).subperm.trans part
    exact
    { node := (Program.recorded_apart_of_pair pair unique .bodies .bodies).node_or
      typed := fun _ => .inl trivial
      member := fun _ _ => .inl trivial
      underlying := fun _ _ => .inl ⟨trivial, trivial⟩
      method := fun _ _ _ => .inl ⟨trivial, trivial⟩ }

end Resolution

end Relock
