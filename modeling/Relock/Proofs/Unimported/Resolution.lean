import Relock.Proofs.Renaming.Rounds
import Relock.Proofs.Renaming.Signatures
import Relock.Proofs.Unimported.Packages

/-!
# Resolution with one more file

A file that comes last and makes a package of its own leaves alone what is found out about the other
files, up to the numbers of packages and entities: in each round the other files do what they would
do without it, and then the file adds what belongs to its own package.
-/

namespace Relock

/-- All but the records of a file. -/
def View.outside (extra : File) : View where
  node node := ∀ decl ∈ extra.decls, ∀ mark ∈ decl.marks, mark.id ≠ node

/-- All but the records under some numbers and what belongs to a package. -/
def View.beyond (gap : PackageId) (marks : List Mark) (tables : Tables) : View where
  node node := ∀ mark ∈ marks, mark.id ≠ node
  typed id := ∀ symbol, tables.symbol? id = some symbol → symbol.package ≠ gap
  member package _ := package ≠ gap
  underlying ref := ref.package ≠ gap
  method ref _ := ref.package ≠ gap

/-- All but the records and functions of a file, and the methods of its package. -/
def View.beyondSignatures (gap : PackageId) (extra : File) (tables : Tables) : View where
  node node := ∀ decl ∈ extra.functions, decl.isMethod = true → decl.name.id ≠ node ∧ decl.id ≠ node
  typed id := ∀ symbol, tables.symbol? id = some symbol → symbol.kind = .func →
    symbol.package ≠ gap
  method ref _ := ref.package ≠ gap

theorem View.outside_full (extra : File) : (View.outside extra).Full :=
  ⟨fun _ _ => trivial, fun _ => trivial, fun _ _ => trivial⟩

namespace Resolution

/-- What has been found out about files, without and with one more file, is the same. -/
structure Alike (gap : PackageId) (extra : File) (moved : Renaming)
    (units others : List (FileScope × File)) (left right : Tables) : Prop where
  files : moved.file = id
  packages : moved.package = skip gap
  same : left.Matches moved (.outside extra) right
  units : List.Forall₂ (UnitMatches moved) units others

namespace Alike

variable {gap : PackageId} {extra : File} {moved : Renaming} {units others : List (FileScope × File)}
  {left right after : Tables} (alike : Alike gap extra moved units others left right)
include alike

theorem moved_ne (package : PackageId) : moved.package package ≠ gap := by
  rw [alike.packages]
  exact skip_ne gap package

/-- What exists on the left corresponds to nothing of the package, in the tables or in earlier
ones. -/
theorem package_ne_of_earlier {tables : Tables}
    (earlier : ∀ id symbol, tables.symbol? id = some symbol →
      ∃ later, right.symbol? id = some later ∧ later.untyped = symbol.untyped)
    {id : SymbolId} (old : id < left.symbols.size) {symbol : Symbol}
    (found : tables.symbol? (moved.symbol id) = some symbol) : symbol.package ≠ gap := by
  obtain ⟨later, later_found, later_untyped⟩ := earlier _ symbol found
  obtain ⟨other, other_found, untyped⟩ := alike.same.exists_symbol? (Array.getElem?_eq_getElem old)
  cases later_found.symm.trans other_found
  rw [← Symbol.package_eq_of_untyped later_untyped, Symbol.package_eq_of_untyped untyped]
  exact alike.moved_ne _

theorem covers {marks : List Mark} {tables : Tables}
    (own : ∀ mark ∈ marks, ∃ decl ∈ extra.decls, mark ∈ decl.marks)
    (earlier : ∀ id symbol, tables.symbol? id = some symbol →
      ∃ later, right.symbol? id = some later ∧ later.untyped = symbol.untyped) :
    (View.outside extra).Covers moved left.symbols.size (.beyond gap marks tables) where
  node node outside := by
    rw [alike.files]
    intro mark listed same
    obtain ⟨decl, declared, marked⟩ := own mark listed
    exact outside decl declared mark marked same
  typed id old _ symbol found := alike.package_ne_of_earlier earlier old found
  member package name _ := alike.moved_ne package
  underlying ref _ := ⟨trivial, alike.moved_ne ref.package⟩
  method ref name _ := ⟨trivial, alike.moved_ne ref.package⟩

theorem covers_signatures {tables : Tables}
    (earlier : ∀ id symbol, tables.symbol? id = some symbol →
      ∃ later, right.symbol? id = some later ∧ later.untyped = symbol.untyped) :
    (View.outside extra).Covers moved left.symbols.size (.beyondSignatures gap extra tables) where
  node node outside decl declared _ := by
    rw [alike.files]
    have listed_mem := File.mem_functions.mp declared
    exact ⟨outside _ listed_mem ⟨decl.name.id, .function decl⟩ (by simp [Decl.marks, FuncDecl.marks]),
      outside _ listed_mem ⟨decl.id, .declaration decl⟩ List.mem_cons_self⟩
  typed id old _ symbol found _ := alike.package_ne_of_earlier earlier old found
  member _ _ _ := trivial
  underlying _ _ := ⟨trivial, trivial⟩
  method ref name _ := ⟨trivial, alike.moved_ne ref.package⟩

/-- What the file adds to its package leaves the others as they are. -/
theorem grow (bounded : left.Bounded) (imports : ∀ unit ∈ units, ∀ (name : String) id,
      unit.1.imports[name]? = some id → id < left.symbols.size)
    {kept : View} (keeps : right.Keeps kept after)
    (covers : (View.outside extra).Covers moved left.symbols.size kept) :
    ∃ more, Alike gap extra more units others left after := by
  have continues := alike.same.realign_continues keeps.size
  exact ⟨_, continues.file.trans alike.files, continues.package.trans alike.packages,
    alike.same.extend bounded keeps covers, UnitMatches.continues continues alike.units imports⟩

end Alike

/-! ## What files see -/

section Stages

variable (program : Program) {extra : File}

variable (unimported : program.Unimported extra)
include unimported

theorem imported_alike : ∃ moved others own,
    (program.extend extra).units = others ++ [(own, extra)] ∧ own.package = program.ownCount ∧
      Alike program.ownCount extra moved program.units others program.imported.2
        (program.extend extra).imported.2 := by
  have housed := ownPackages_housed program
  have predeclared : Predeclared.sync < program.ownCount := housed.predeclared
  have positive : 0 < program.ownCount := Nat.lt_of_le_of_lt (Nat.zero_le _) predeclared
  let info : PackageInfo := { name := extra.package, path := extra.dir }
  let view := View.outside extra
  let moved := Renaming.skipping positive
  let base := program.ownPackages.2.packages.toList
  have base_length : base.length = program.ownCount := Array.length_toList
  have start : Beside moved view base info program.ownPackages.2
      (program.ownPackages.2.addPackage info).2 := by
    refine ⟨⟨[], (List.append_nil _).symm, ?_, by simp⟩, ?_⟩
    · simp [Tables.addPackage, base]
    · exact (housed.within.matches_skipping positive
        (fun package name id => Tables.lt_size_of_lookup) fun _ => trivial).addPackage_right rfl
  have along : Alongside (Beside moved view base info)
      ((program.ownPackages.1.zip program.files).mapM fun item => declareImports item.1 item.2)
      ((program.ownPackages.1.zip program.files).mapM fun item => declareImports item.1 item.2)
      (List.Forall₂ (FileScope.Matches moved)) := by
    refine .mapM (List.forall₂_same.mpr fun _ _ => rfl) fun item listed other same => ?_
    subst same
    obtain ⟨own_mem, file_mem⟩ := List.of_mem_zip listed
    exact declareImports_alongside (by rw [base_length]; rfl) rfl (base_length ▸ predeclared)
      (base_length ▸ lt_ownCount program own_mem) (unimported.named item.2 file_mem)
  obtain ⟨beside, scopes⟩ := along _ _ start
  have extended := run_declareScopes_extend program unimported
  let others := ((program.ownPackages.1.zip program.files).mapM fun item =>
    declareImports item.1 item.2).run (program.ownPackages.2.addPackage info).2
  have aligned : others.1.length = program.files.length :=
    scopes.length_eq.symm.trans program.sees_imported.length_eq
  have alike : Alike program.ownCount extra moved program.units (others.1.zip program.files)
      program.imported.2 others.2 := by
    refine ⟨rfl, rfl, beside.same, UnitMatches.zip scopes (List.forall₂_same.mpr fun file _ => ?_)⟩
    exact (file_renumber_id file).symm
  obtain ⟨more, alike⟩ := alike.grow (bounded_of_changes program.reaches_imported)
    (program.imports_lt_size (.refl _))
    (.of_steps (declareImports_keeps program.ownCount extra others.2).1 :
      others.2.Keeps {} ((declareImports program.ownCount extra).run others.2).2)
    ⟨fun _ _ => trivial, fun _ _ _ => trivial, fun _ _ _ => trivial,
      fun _ _ => ⟨trivial, trivial⟩, fun _ _ _ => ⟨trivial, trivial⟩⟩
  refine ⟨more, others.1.zip program.files,
    ((declareImports program.ownCount extra).run others.2).1, ?_, rfl, ?_⟩
  · rw [Program.units, Program.imported, extended]
    exact List.zip_append aligned
  · rw [Program.imported, Program.imported, extended]
    exact alike

omit unimported

/-! ## Rounds -/

/-- The names of the file are members of its own package. -/
theorem names_keep {own : FileScope} {gap : PackageId} (own_package : own.package = gap)
    (tables : Tables) : tables.Keeps (.beyond gap (extra.recorded .names) tables)
      ((namesRound [(own, extra)]).run tables).2 := by
  refine .of_steps (Always.forM (fun unit listed => .forM fun decl declared => ?_) _).1
  cases List.mem_singleton.mp listed
  rw [own_package]
  refine declareNames_keeps ⟨fun mark recorded seen => ?_, fun _ _ apart => apart rfl,
    fun _ _ _ => ⟨fun apart => apart rfl, fun _ apart => apart rfl⟩⟩
  exact seen mark (List.mem_flatMap.mpr ⟨decl, declared, recorded⟩) rfl

theorem types_keep {own : FileScope} {gap : PackageId} (own_package : own.package = gap)
    (tables : Tables) : tables.Keeps (.beyond gap (extra.recorded .types) tables)
      ((typesRound [(own, extra)]).run tables).2 := by
  refine .of_steps (Always.forM (fun unit listed => .forM fun spec declared => ?_) _).1
  cases List.mem_singleton.mp listed
  have decl_mem := File.mem_types.mp declared
  refine completeType_keeps (fun ident named seen => ?_) fun apart => apart own_package
  exact seen ident.mark (List.mem_flatMap.mpr ⟨_, decl_mem, List.mem_map_of_mem named⟩) rfl

variable {program} {moved : Renaming} {others : List (FileScope × File)} {own : FileScope}
  (units_eq : (program.extend extra).units = others ++ [(own, extra)])
  (own_package : own.package = program.ownCount)

include units_eq own_package

theorem named_alike (alike : Alike program.ownCount extra moved program.units others
      program.imported.2 (program.extend extra).imported.2) :
    ∃ more, Alike program.ownCount extra more program.units others program.named
      (program.extend extra).named := by
  have listed : (own, extra) ∈ (program.extend extra).units := by simp [units_eq]
  have room : program.ownCount < (program.extend extra).imported.2.packages.size :=
    own_package ▸ (program.extend extra).lt_size_of_mem_units listed
  have owned (unit : FileScope × File) (member : unit ∈ program.units) :
      unit.1.package < program.imported.2.packages.size ∧
        moved.package unit.1.package < (program.extend extra).imported.2.packages.size := by
    have below := package_lt_ownCount program member
    rw [alike.packages, skip_of_lt below]
    exact ⟨program.lt_size_of_mem_units member, Nat.lt_trans below room⟩
  obtain ⟨same, -, -⟩ := (names_alongside alike.units owned _ _ ⟨alike.same, rfl, rfl⟩).1
  have between : Alike program.ownCount extra moved program.units others program.named
      ((namesRound others).run (program.extend extra).imported.2).2 :=
    ⟨alike.files, alike.packages, same, alike.units⟩
  have named_eq : (program.extend extra).named = ((namesRound [(own, extra)]).run
      ((namesRound others).run (program.extend extra).imported.2).2).2 := by
    rw [Program.named, namesRound, units_eq, run_forM_append]
  rw [named_eq]
  exact between.grow (bounded_of_changes program.reaches_named)
    (program.imports_lt_size (grows_of_changes program.steps_named))
    (names_keep own_package _)
    (between.covers (fun _ => File.exists_of_recorded) fun _ symbol found => ⟨symbol, found, rfl⟩)

theorem completed_alike (alike : Alike program.ownCount extra moved program.units others
      program.named (program.extend extra).named) :
    ∃ more, Alike program.ownCount extra more program.units others program.completed
      (program.extend extra).completed := by
  have same := (types_alongside alike.units (fun _ _ => trivial) _ _ alike.same).1
  have between : Alike program.ownCount extra moved program.units others program.completed
      ((typesRound others).run (program.extend extra).named).2 :=
    ⟨alike.files, alike.packages, same, alike.units⟩
  have completed_eq : (program.extend extra).completed = ((typesRound [(own, extra)]).run
      ((typesRound others).run (program.extend extra).named).2).2 := by
    rw [Program.completed, typesRound, units_eq, run_forM_append]
  rw [completed_eq]
  have growth := (grows_of_changes program.steps_named).trans
    (grows_of_changes program.steps_completed)
  exact between.grow (bounded_of_changes program.reaches_completed)
    (program.imports_lt_size growth) (types_keep own_package _)
    (between.covers (fun _ => File.exists_of_recorded) fun _ symbol found => ⟨symbol, found, rfl⟩)

end Stages

/-! ## Signatures, values and bodies -/

section Signatures

variable {program : Program} {extra : File} {others : List (FileScope × File)} {own : FileScope}
  (unique : (program.extend extra).UniqueIds) {mark : Mark} {unit : FileScope × File}
  {moved : Renaming}
include unique

/-- The numbers of the other files are not those of the file. -/
theorem node_outside (marked : mark ∈ program.marks) : (View.outside extra).node mark.id := by
  have split : (program.extend extra).marks =
      program.marks ++ extra.decls.flatMap Decl.marks := by
    simp [Program.marks, Program.extend]
  rw [Program.UniqueIds, split, List.map_append, List.nodup_append] at unique
  intro decl declared own own_mem same
  exact unique.2.2 mark.id (List.mem_map_of_mem marked) own.id
    (List.mem_map_of_mem (List.mem_flatMap.mpr ⟨decl, declared, own_mem⟩)) same.symm

theorem decl_outside (member : unit ∈ program.units) {decl : Decl} (declared : decl ∈ unit.2.decls)
    (marked : mark ∈ decl.marks) : (View.outside extra).node mark.id :=
  node_outside unique (program.marks_of_decl (List.of_mem_zip member).2 declared marked)

theorem function_outside (member : unit ∈ program.units) {decl : FuncDecl}
    (declared : decl ∈ unit.2.functions) (marked : mark ∈ decl.marks) :
    (View.outside extra).node mark.id := by
  have listed_mem := File.mem_functions.mp declared
  exact decl_outside unique member listed_mem marked

variable (units_eq : (program.extend extra).units = others ++ [(own, extra)])
include units_eq

omit unique in
theorem map_snd_others : others.map Prod.snd = program.files := by
  have files := (program.extend extra).map_snd_units
  rw [units_eq, List.map_append] at files
  exact (List.append_inj' files rfl).1

variable (own_package : own.package = program.ownCount)
include own_package

section

variable (unqualified : ∀ decl ∈ extra.functions, ∀ receiver, decl.receiver = some receiver →
    receiver.type.isQualified = false)
include unqualified

/-- The file sets the types of its own functions, and its methods belong to types of its package. -/
theorem signatures_keep :
    ((signaturesRound others).run (program.extend extra).completed).2.Keeps
      (.beyondSignatures program.ownCount extra (program.extend extra).completed)
      ((signaturesRound [(own, extra)]).run
        ((signaturesRound others).run (program.extend extra).completed).2).2 := by
  have listed : (own, extra) ∈ (program.extend extra).units := by simp [units_eq]
  have member {decl : FuncDecl} (declared : decl ∈ extra.functions) :
      decl ∈ (program.extend extra).functions :=
    functions_of_units (program.extend extra).map_snd_units
      (mem_declaredIn.mpr ⟨_, listed, declared, rfl⟩)
  refine signatures_keep_after unique (by simp [units_eq]) (by simp [units_eq])
    (fun _ _ => trivial) (fun id symbol found is_type other other_found func => ?_)
    (fun unit unit_mem decl declared plain => ?_) (fun unit unit_mem decl declared method => ?_)
    fun unit unit_mem decl declared receiver ref receiver_eq named apart => apart ?_
  · cases found.symm.trans other_found
    cases is_type.symm.trans func
  · cases List.mem_singleton.mp unit_mem
    constructor
    · obtain ⟨mark, name, number⟩ := mem_recorded_names (member declared) plain
      intro other other_mem method
      obtain ⟨names, numbers⟩ := unique.names_apart name (member other_mem) method
      exact ⟨fun same => names (number.trans same.symm), fun same => numbers (number.trans same.symm)⟩
    · intro id recorded typed
      obtain ⟨symbol, found, entity⟩ := Option.map_eq_some_iff.mp
        (Program.entity_of_function unique listed declared plain recorded)
      exact typed symbol found (congrArg Entity.kind entity)
        ((congrArg Entity.package entity).trans own_package)
  · cases List.mem_singleton.mp unit_mem
    exact ⟨fun seen => (seen decl declared method).1 rfl,
      fun seen => (seen decl declared method).2 rfl⟩
  · cases List.mem_singleton.mp unit_mem
    exact ((program.extend extra).package_of_receiver unique own
      (unqualified decl declared receiver receiver_eq) named).trans own_package

theorem signed_alike (alike : Alike program.ownCount extra moved program.units
      others program.completed (program.extend extra).completed) :
    ∃ more, Alike program.ownCount extra more program.units others program.signed
      (program.extend extra).signed := by
  have seen (unit : FileScope × File) (member : unit ∈ program.units) (decl : FuncDecl)
      (declared : decl ∈ unit.2.functions) (_ : decl.isMethod = false) :
      (View.outside extra).node decl.name.id :=
    have name : ⟨decl.name.id, .function decl⟩ ∈ decl.marks := by simp [FuncDecl.marks]
    function_outside unique member declared name
  have same := (signatures_alongside alike.units (fun _ _ => trivial) seen _ _ alike.same).1
  have between : Alike program.ownCount extra moved program.units others program.signed
      ((signaturesRound others).run (program.extend extra).completed).2 :=
    ⟨alike.files, alike.packages, same, alike.units⟩
  have signed_eq : (program.extend extra).signed = ((signaturesRound [(own, extra)]).run
      ((signaturesRound others).run (program.extend extra).completed).2).2 := by
    rw [Program.signed, signaturesRound, units_eq, run_forM_append]
  rw [signed_eq]
  exact between.grow (bounded_of_changes program.reaches_signed)
    (program.imports_lt_size (grows_of_changes program.steps_signed))
    (signatures_keep unique units_eq own_package unqualified)
    (between.covers_signatures fun _ _ =>
      (signatures_keep_names unique (by simp [units_eq])).exists_symbol?)

end

/-- The values of variables in the file are those of members of its package. -/
theorem values_keep :
    ((valuesRound others).run { tables := (program.extend extra).signed }).2.tables.Keeps
      (.beyond program.ownCount (extra.recorded .values) (program.extend extra).completed)
      ((valuesRound [(own, extra)]).run
        ((valuesRound others).run { tables := (program.extend extra).signed }).2).2.tables := by
  have listed : (own, extra) ∈ (program.extend extra).units := by simp [units_eq]
  have apart : Mark.Apart ((program.extend extra).recorded .values)
      ((program.extend extra).recorded .names) := unique.recorded_apart nofun
  have in_program {round : Round} {mark : Mark} (marked : mark ∈ extra.recorded round) :
      mark ∈ (program.extend extra).recorded round := by
    obtain ⟨decl, declared, recorded⟩ := List.mem_flatMap.mp marked
    exact List.mem_flatMap.mpr ⟨decl, Program.decl_mem_of_units listed declared, recorded⟩
  refine values_keep_after unique (by simp [units_eq]) (by simp [units_eq])
    (fun unit unit_mem spec declared ident named => ?_)
    fun unit unit_mem spec declared mark marked seen => ?_ <;>
    cases List.mem_singleton.mp unit_mem <;>
    have decl_mem := File.mem_vars.mp declared
  · have name : ident.mark ∈ (Decl.var spec).recorded .names := List.mem_map_of_mem named
    refine ⟨fun mark marked => ?_, fun id recorded typed => ?_⟩
    · exact apart mark (in_program marked) ident.mark
        (in_program (List.mem_flatMap.mpr ⟨_, decl_mem, name⟩))
    · obtain ⟨entity, known, package, -⟩ :=
        Program.member_of_name unique listed decl_mem name recorded
      obtain ⟨symbol, found, rfl⟩ := Option.map_eq_some_iff.mp known
      exact typed symbol found (package.trans own_package)
  · exact seen mark (List.mem_flatMap.mpr ⟨_, decl_mem, marked⟩) rfl

theorem valued_alike (alike : Alike program.ownCount extra moved program.units
      others program.signed (program.extend extra).signed) :
    ∃ more, Alike program.ownCount extra more program.units others program.valued.tables
      (program.extend extra).valued.tables := by
  have start : Resolving.Matches moved (.outside extra) { tables := program.signed }
      { tables := (program.extend extra).signed } := ⟨alike.same, .nil⟩
  have same := (values_alongside alike.units (View.outside_full extra) (fun _ => trivial)
    (fun unit member spec declared mark => decl_outside unique member (File.mem_vars.mp declared))
    (fun unit member spec declared => unique.of_extend.recorded_decl
      (Program.decl_mem_of_units member (File.mem_vars.mp declared)) .values) _ _ start).1.tables
  have between : Alike program.ownCount extra moved program.units others program.valued.tables
      ((valuesRound others).run { tables := (program.extend extra).signed }).2.tables :=
    ⟨alike.files, alike.packages, same, alike.units⟩
  have valued_eq : (program.extend extra).valued = ((valuesRound [(own, extra)]).run
      ((valuesRound others).run { tables := (program.extend extra).signed }).2).2 := by
    rw [Program.valued, valuesRound, units_eq, run_forM_append]
  rw [valued_eq]
  have sound := program.sound_of_steps program.steps_valued
  refine between.grow (sound.coherent.bounded sound.refers) (fun unit member name id found => ?_)
    (values_keep unique units_eq own_package)
    (between.covers (fun _ => File.exists_of_recorded) fun id symbol found => ?_)
  · obtain ⟨entity, target, known, -⟩ := (sound.sees unit member).imports name id found
    exact Tables.lt_size_of_entity? known
  · obtain ⟨later, later_found, untyped⟩ :=
      (signatures_keep_names unique (List.Subset.refl _)).exists_symbol? found
    have others_mem : others ⊆ (program.extend extra).units := by simp [units_eq]
    obtain ⟨final, final_found, final_untyped⟩ :=
      (values_keep_names unique others_mem { tables := _ }).exists_symbol? later_found
    exact ⟨final, final_found, final_untyped.trans untyped⟩

omit own_package

/-- The bodies of the file make records for their own numbers. -/
theorem bodies_keep (state : Resolving) :
    state.tables.Keeps (.beyond program.ownCount (extra.recorded .bodies) state.tables)
      ((bodiesRound [(own, extra)]).run state).2.tables := by
  have listed : (own, extra) ∈ (program.extend extra).units := by simp [units_eq]
  refine resolveBodies_keep fun unit unit_mem decl declared => ?_
  cases List.mem_singleton.mp unit_mem
  have decl_mem := File.mem_functions.mp declared
  refine ⟨unique.recorded_decl (Program.decl_mem_of_units listed decl_mem) .bodies, ?_⟩
  exact fun mark marked seen => seen mark (List.mem_flatMap.mpr ⟨_, decl_mem, marked⟩) rfl

theorem resolve_alike (alike : Alike program.ownCount extra moved program.units
      others program.valued.tables (program.extend extra).valued.tables) :
    ∃ more, Alike program.ownCount extra more program.units others program.resolve
      (program.extend extra).resolve := by
  have closed (program : Program) : program.valued.scopes = .empty :=
    (valuesRound_keeping program.units { tables := program.signed }).scopes
  have start : Resolving.Matches moved (.outside extra) program.valued
      (program.extend extra).valued := by
    refine ⟨alike.same, ?_⟩
    rw [closed, closed]
    exact .nil
  have same := (bodies_alongside alike.units (View.outside_full extra) (fun _ => trivial)
    (fun unit member decl declared mark => function_outside unique member declared)
    (fun unit member decl declared => unique.of_extend.recorded_decl
      (Program.decl_mem_of_units member (File.mem_functions.mp declared)) .bodies)
    _ _ start).1.tables
  have between : Alike program.ownCount extra moved program.units others program.resolved.tables
      ((bodiesRound others).run (program.extend extra).valued).2.tables :=
    ⟨alike.files, alike.packages, same, alike.units⟩
  have resolve_eq : (program.extend extra).resolve = ((bodiesRound [(own, extra)]).run
      ((bodiesRound others).run (program.extend extra).valued).2).2.tables := by
    rw [Program.resolve_eq, Program.resolved, bodiesRound, units_eq, run_forM_append]
  rw [resolve_eq, program.resolve_eq]
  have sound := program.sound_of_steps program.steps_resolved
  refine between.grow (sound.coherent.bounded sound.refers) (fun unit member name id found => ?_)
    (bodies_keep unique units_eq _)
    (between.covers (fun _ => File.exists_of_recorded) fun _ symbol found => ⟨symbol, found, rfl⟩)
  obtain ⟨entity, target, known, -⟩ := (sound.sees unit member).imports name id found
  exact Tables.lt_size_of_entity? known

end Signatures

/-- With one more file that no other imports, the same is found out about the other files. -/
theorem exists_alike {program : Program} {extra : File} (unimported : program.Unimported extra)
    (unique : (program.extend extra).UniqueIds)
    (unqualified : ∀ decl ∈ extra.functions, ∀ receiver, decl.receiver = some receiver →
      receiver.type.isQualified = false) :
    ∃ moved others own, (program.extend extra).units = others ++ [(own, extra)] ∧
      own.package = program.ownCount ∧ Alike program.ownCount extra moved program.units others
        program.resolve (program.extend extra).resolve := by
  obtain ⟨_, others, own, units_eq, own_package, imported⟩ := imported_alike program unimported
  obtain ⟨_, named⟩ := named_alike units_eq own_package imported
  obtain ⟨_, completed⟩ := completed_alike units_eq own_package named
  obtain ⟨_, signed⟩ := signed_alike unique units_eq own_package unqualified completed
  obtain ⟨_, valued⟩ := valued_alike unique units_eq own_package signed
  obtain ⟨moved, resolved⟩ := resolve_alike unique units_eq valued
  exact ⟨moved, others, own, units_eq, own_package, resolved⟩

end Resolution

end Relock
