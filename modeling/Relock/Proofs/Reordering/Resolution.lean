import Relock.Proofs.Reordering.Packages
import Relock.Proofs.Reordering.Values

/-!
# Resolution of files in another order

What is found out about a program whose files come in another order is the same up to the numbers of
files, packages and entities. In each round, the files of the first program do the same in the order
of the second one, and then the two programs go in lockstep.
-/

namespace Relock

open Tables (Same)

/-- All but the records of bodies. -/
def View.outsideBodies (program : Program) : View where
  node node := ∀ mark ∈ program.recorded .bodies, mark.id ≠ node

namespace Program

/-- No value of a file refers to a variable of another file whose type becomes known. -/
def Independent (program : Program) (file other : File) : Prop :=
  ∀ mark ∈ file.recorded .values, ∀ ident ∈ other.variableNames,
    ∀ id ∈ program.resolve.uses[mark.id]?, program.resolve.objectOf ident = some id →
      program.resolve.typeOf id = .unknown

instance (program : Program) (file other : File) : Decidable (program.Independent file other) :=
  inferInstanceAs (Decidable (∀ _ ∈ _, ∀ _ ∈ _, ∀ _ ∈ _, _ → _))

/-- The order of the files of a program does not matter for what is found out about it. -/
structure Orderless (program : Program) : Prop where
  /-- No two constructs have the same number. -/
  unique : program.UniqueIds
  /-- No package declares a name twice. -/
  members : program.members.Nodup
  /-- No two packages of files have the same name. -/
  packages : program.OneName
  /-- No type gets two methods of one name. -/
  methods : program.OneMethod
  /-- No name of a function has a colon, so that keys can be read. -/
  names : ∀ decl ∈ program.functions, ':' ∉ decl.name.name.toList
  /-- No value refers to a variable of another file whose type becomes known. -/
  values : program.files.Pairwise fun file other =>
    program.Independent file other ∧ program.Independent other file

section Final

open Resolution

variable {program : Program} (unique : program.UniqueIds)
include unique

theorem bodies_kept : program.valued.tables.Keeps (.outsideBodies program) program.resolve := by
  rw [program.resolve_eq]
  refine resolveBodies_keep fun unit listed decl declared => ?_
  have decl_mem := decl_mem_of_units listed (File.mem_functions.mp declared)
  refine ⟨unique.recorded_decl decl_mem .bodies, fun mark marked seen => ?_⟩
  exact seen mark (List.mem_flatMap.mpr ⟨_, decl_mem, marked⟩) rfl

/-- The names of variables keep what they declare. -/
theorem objectOf_variable {unit : FileScope × File} (listed : unit ∈ program.units) {ident : Ident}
    (named : ident ∈ unit.2.variableNames) :
    program.resolve.objectOf ident = program.completed.objectOf ident := by
  have name := name_of_variable listed named
  have bodies : Mark.Apart (program.recorded .bodies) (program.recorded .names) :=
    unique.recorded_apart nofun
  have values : Mark.Apart (program.recorded .values) (program.recorded .names) :=
    unique.recorded_apart nofun
  have valued := @values_kept _ unique [] program.units (List.Subset.refl _)
  rw [List.nil_append, valuedBy_units] at valued
  calc program.resolve.objectOf ident
      = program.valued.tables.objectOf ident :=
        (bodies_kept unique).uses ident.id fun mark marked => bodies mark marked _ name
    _ = program.signed.objectOf ident := valued.uses ident.id fun other other_mem mark marked => by
        obtain ⟨decl, declared, recorded⟩ := List.mem_flatMap.mp marked
        exact values mark (List.mem_flatMap.mpr ⟨decl, decl_mem_of_units other_mem declared, recorded⟩)
          ident.mark name
    _ = program.completed.objectOf ident :=
        (signatures_keep_names unique (List.Subset.refl program.units)).objectOf
          ⟨ident.mark, name, rfl⟩

omit unique in
theorem independent_of_pair (values : program.files.Pairwise fun file other =>
      program.Independent file other ∧ program.Independent other file)
    {first second : FileScope × File} (pair : [first, second].Subperm program.units) :
    program.Independent first.2 second.2 := by
  obtain ⟨items, order, inside⟩ := pair
  have files := inside.map Prod.snd
  rw [program.map_snd_units] at files
  have apart := (order.map Prod.snd).pairwise_iff (fun both => both.symm) |>.mp
    (values.sublist files)
  exact (List.pairwise_pair.mp apart).1

theorem apart_of_independent (values : program.files.Pairwise fun file other =>
      program.Independent file other ∧ program.Independent other file) : program.Apart := by
  intro first second pair mark marked ident named id used declared
  have second_mem : second ∈ program.units := pair.subset (by simp)
  have bodies : Mark.Apart (program.recorded .bodies) (program.recorded .values) :=
    unique.recorded_apart nofun
  have kept := bodies_kept unique
  have used_later : program.resolve.uses[mark.id]? = some id := by
    rw [kept.uses mark.id fun other other_mem => ?_, used]
    obtain ⟨decl, declared, recorded⟩ := List.mem_flatMap.mp marked
    exact bodies other other_mem mark (List.mem_flatMap.mpr
      ⟨decl, decl_mem_of_units (pair.subset (by simp)) declared, recorded⟩)
  obtain ⟨old, -⟩ := typeOf_variable unique second_mem named declared
  have grows := (@values_kept _ unique [] program.units (List.Subset.refl _)).size
  rw [List.nil_append, valuedBy_units] at grows
  rw [← objectOf_variable unique second_mem named] at declared
  rw [← kept.typeOf id (Nat.lt_of_lt_of_le old grows) trivial]
  exact independent_of_pair values pair mark marked ident named id used_later declared

end Final

end Program

namespace Resolution

variable {program other : Program} {file : Nat → Nat} {moved : Renaming}
  {units : List (FileScope × File)} {left right : Tables}

/-- What has been found out about two programs is the same, and their files correspond in some
order. -/
structure Agree (program other : Program) (file : Nat → Nat) (moved : Renaming)
    (units : List (FileScope × File)) (left right : Tables) : Prop where
  files : moved.file = file
  order : units.Perm program.units
  pairs : List.Forall₂ (UnitMatches moved) units other.units
  same : left.Matches moved {} right

/-- A round does the same in the order of the second program, and then in the second program. -/
theorem Agree.round (agree : Agree program other file moved units left right)
    {own between after : Tables} (swapped : Same left.symbols.size own between)
    (along : between.Matches moved {} after)
    (imports : ∀ unit ∈ program.units, ∀ (name : String) id, unit.1.imports[name]? = some id →
      id < left.symbols.size) :
    ∃ more, Agree program other file more units own after := by
  obtain ⟨more, continues, same⟩ := swapped.exists_matches along
  exact ⟨more, continues.file.trans agree.files, agree.order,
    UnitMatches.continues continues agree.pairs fun unit listed =>
      imports unit (agree.order.subset listed), same⟩

section Rounds

variable (orderless : program.Orderless)
include orderless

theorem exists_imported (order : program.Reordered other file)
    (injective : Function.Injective file) : ∃ moved units,
      Agree program other file moved units program.imported.2 other.imported.2 ∧
        ∀ unit ∈ units, unit.1.package < program.imported.2.packages.size ∧
          moved.package unit.1.package < other.imported.2.packages.size := by
  obtain ⟨package, same⟩ := order.exists_rearranged orderless.packages
  obtain ⟨symbol, renumbers⟩ := exists_renumbers same.items_perm Predeclared.tables.symbols.size
  obtain ⟨units, arranged, pairs⟩ := same.exists_units injective renumbers
  refine ⟨same.moved injective symbol, units,
    ⟨rfl, arranged, pairs, same.imported_matches injective renumbers⟩, fun unit listed => ?_⟩
  have member := arranged.subset listed
  exact ⟨program.lt_size_of_mem_units member, same.package_lt member⟩

theorem Agree.named
    (agree : Agree program other file moved units program.imported.2 other.imported.2)
    (owned : ∀ unit ∈ units, unit.1.package < program.imported.2.packages.size ∧
      moved.package unit.1.package < other.imported.2.packages.size) :
    ∃ more, Agree program other file more units program.named other.named := by
  have swapped := (names_orderly orderless.unique orderless.members).same agree.order
  rw [afterAll_stepOf, afterAll_stepOf] at swapped
  refine agree.round swapped ?_ (program.imports_lt_size (.refl _))
  exact (names_alongside agree.pairs owned _ _ ⟨agree.same, rfl, rfl⟩).1.1

theorem Agree.completed (agree : Agree program other file moved units program.named other.named) :
    ∃ more, Agree program other file more units program.completed other.completed := by
  have swapped := (types_orderly orderless.unique orderless.members).same agree.order
  rw [afterAll_stepOf, afterAll_stepOf] at swapped
  refine agree.round swapped ?_ (program.imports_lt_size (grows_of_changes program.steps_named))
  exact (types_alongside agree.pairs (fun _ _ => trivial) _ _ agree.same).1

theorem Agree.signed
    (agree : Agree program other file moved units program.completed other.completed) :
    ∃ more, Agree program other file more units program.signed other.signed := by
  have swapped := (signatures_orderly orderless.unique orderless.members orderless.methods).same
    agree.order
  rw [afterAll_stepOf, afterAll_stepOf] at swapped
  have growth := (grows_of_changes program.steps_named).trans
    (grows_of_changes program.steps_completed)
  refine agree.round swapped ?_ (program.imports_lt_size growth)
  exact (signatures_alongside agree.pairs (fun _ _ => trivial) (fun _ _ _ _ _ => trivial) _ _
    agree.same).1

theorem Agree.valued (agree : Agree program other file moved units program.signed other.signed) :
    ∃ more, Agree program other file more units program.valued.tables other.valued.tables := by
  have swapped := Program.values_same orderless.unique
    (Program.apart_of_independent orderless.unique orderless.values) agree.order
  rw [Program.valuedBy_eq] at swapped
  refine agree.round swapped ?_ (program.imports_lt_size (grows_of_changes program.steps_signed))
  have start : Resolving.Matches moved {} { tables := program.signed } { tables := other.signed } :=
    ⟨agree.same, .nil⟩
  refine (values_alongside agree.pairs View.full_all
    (fun _ => trivial) (fun _ _ _ _ _ _ => trivial) (fun unit listed spec declared => ?_) _ _
    start).1.tables
  exact orderless.unique.recorded_decl (Program.decl_mem_of_units (agree.order.subset listed)
    (File.mem_vars.mp declared)) .values

theorem Agree.resolved
    (agree : Agree program other file moved units program.valued.tables other.valued.tables) :
    ∃ more, Agree program other file more units program.resolve other.resolve := by
  have swapped := (bodies_orderly orderless.unique).same agree.order
  rw [tables_resolveStepOf bodies_keeping, tables_resolveStepOf bodies_keeping,
    ← program.valued_eq] at swapped
  rw [program.resolve_eq, other.resolve_eq]
  refine agree.round swapped ?_ (program.imports_lt_size program.grows_valued)
  have start : Resolving.Matches moved {} program.valued other.valued := by
    rw [program.valued_eq, other.valued_eq]
    exact ⟨agree.same, .nil⟩
  refine (bodies_alongside agree.pairs View.full_all
    (fun _ => trivial) (fun _ _ _ _ _ _ => trivial) (fun unit listed decl declared => ?_) _ _
    start).1.tables
  exact orderless.unique.recorded_decl (Program.decl_mem_of_units (agree.order.subset listed)
    (File.mem_functions.mp declared)) .bodies

/-- The same is found out about a program whose files come in another order. -/
theorem exists_matches (order : program.Reordered other file)
    (injective : Function.Injective file) : ∃ moved : Renaming, moved.file = file ∧
      program.resolve.Matches moved {} other.resolve := by
  obtain ⟨_, units, imported, owned⟩ := exists_imported orderless order injective
  obtain ⟨_, named⟩ := imported.named orderless owned
  obtain ⟨_, completed⟩ := named.completed orderless
  obtain ⟨_, signed⟩ := completed.signed orderless
  obtain ⟨_, valued⟩ := signed.valued orderless
  obtain ⟨moved, resolved⟩ := valued.resolved orderless
  exact ⟨moved, resolved.files, resolved.same⟩

end Rounds

end Resolution

end Relock
