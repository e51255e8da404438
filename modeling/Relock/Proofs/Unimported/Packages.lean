import Relock.Proofs.Renaming.Growth
import Relock.Proofs.Resolution.Packages

/-!
# Packages and imports with one more file

A file that comes last, with a directory and a package name of its own, adds one package after those
of the other files. The packages without sources, which imports add later, get the next numbers.
Which packages the other files import is the same up to this, if none of their import paths ends in
the name of the new package.
-/

namespace Relock

namespace Program

/-- The program with one more file, the last. -/
def extend (program : Program) (extra : File) : Program := ⟨program.files ++ [extra]⟩

theorem UniqueIds.of_extend {program : Program} {extra : File}
    (unique : (program.extend extra).UniqueIds) : program.UniqueIds := by
  have part : program.marks.Sublist (program.extend extra).marks := by
    simp [marks, extend]
  exact List.Nodup.sublist (part.map Mark.id) unique

/-- One more file makes a package of its own, which no path imports. -/
structure Unimported (program : Program) (extra : File) : Prop where
  new : ∀ file ∈ program.files, (file.dir, file.package) ≠ (extra.dir, extra.package)
  named : ∀ file ∈ program.files, ∀ spec ∈ file.imports,
    extra.package ≠ Import.lastSegment spec.path

end Program

/-- The numbers of packages when one is left out. -/
def skip (gap package : Nat) : Nat := if package < gap then package else package + 1

theorem skip_of_lt {gap package : Nat} (below : package < gap) : skip gap package = package :=
  if_pos below

theorem skip_of_le {gap package : Nat} (beyond : gap ≤ package) : skip gap package = package + 1 :=
  if_neg (Nat.not_lt.mpr beyond)

theorem skip_injective (gap : Nat) : Function.Injective (skip gap) := by
  intro left right same
  unfold skip at same
  split at same <;> split at same <;> omega

theorem skip_ne (gap package : Nat) : skip gap package ≠ gap := by
  unfold skip
  split <;> omega

/-- Files and entities keep their numbers, and one number of a package is left out. -/
def Renaming.skipping {gap : PackageId} (positive : 0 < gap) : Renaming where
  file := id
  package := skip gap
  symbol := id
  file_injective := Function.injective_id
  package_injective := skip_injective gap
  symbol_injective := Function.injective_id
  universal := skip_of_lt positive

namespace Resolution

/-! ## The packages of files -/

/-- A last file with a new directory and package name gets the next number. -/
theorem run_declarePackages_append {extra : File} {files : List File}
    (new : ∀ file ∈ files, (file.dir, file.package) ≠ (extra.dir, extra.package))
    {known : List ((String × String) × PackageId)}
    (unknown : known.lookup (extra.dir, extra.package) = none) (tables : Tables) :
    (declarePackages known (files ++ [extra])).run tables =
      (((declarePackages known files).run tables).1 ++
          [((declarePackages known files).run tables).2.packages.size],
        (((declarePackages known files).run tables).2.addPackage
          { name := extra.package, path := extra.dir }).2) := by
  induction files generalizing known tables with
  | nil => exact run_declarePackages_of_new unknown [] tables
  | cons file files ih =>
      rw [List.forall_mem_cons] at new
      rw [List.cons_append]
      cases found : known.lookup (file.dir, file.package) with
      | some package =>
          rw [run_declarePackages_of_known found, run_declarePackages_of_known found,
            ih new.2 unknown]
          rfl
      | none =>
          have still : (((file.dir, file.package), tables.packages.size) :: known).lookup
              (extra.dir, extra.package) = none := by
            rw [List.lookup_cons, beq_false_of_ne new.1.symm, unknown]
          rw [run_declarePackages_of_new found, run_declarePackages_of_new found, ih new.2 still]
          rfl

/-! ## Packages that are imported -/

/-- The packages of the right tables are those of the left ones with one more among them; after that
there are packages without sources only. -/
structure Inserted (base : List PackageInfo) (extra : PackageInfo) (left right : Tables) :
    Prop where
  split : ∃ rest, left.packages.toList = base ++ rest ∧
    right.packages.toList = base ++ extra :: rest ∧ ∀ info ∈ rest, info.external = true

variable {base : List PackageInfo} {extra : PackageInfo} {left right : Tables}

/-- The new package is not found by any other name. -/
theorem Inserted.sourcePackage?_eq (inserted : Inserted base extra left right) {name : String}
    (named : extra.name ≠ name) (own : PackageId) :
    sourcePackage? right own name = sourcePackage? left own name ∧
      ∀ package, sourcePackage? left own name = some package → package < base.length := by
  obtain ⟨rest, left_eq, right_eq, external⟩ := inserted.split
  have left_found := sourcePackage?_of_split left_eq
    (fun info listed => .inl (external info listed) : ∀ info ∈ rest, _ ∨ info.name ≠ name) own
  have other : ∀ info ∈ extra :: rest, info.external = true ∨ info.name ≠ name := by
    rw [List.forall_mem_cons]
    exact ⟨.inr named, fun info listed => .inl (external info listed)⟩
  refine ⟨(sourcePackage?_of_split right_eq other own).trans left_found.symm, ?_⟩
  intro package found
  rw [left_found] at found
  obtain ⟨⟨info, id⟩, entry, rfl⟩ := Option.map_eq_some_iff.mp found
  obtain ⟨-, below, -⟩ := List.mem_zipIdx (List.mem_of_find?_eq_some entry)
  simpa using below

theorem Inserted.externalPackage?_eq (inserted : Inserted base extra left right)
    (sources : extra.external = false) (path : String) :
    externalPackage? right path = (externalPackage? left path).map (skip base.length) := by
  obtain ⟨rest, left_eq, right_eq, -⟩ := inserted.split
  have left_array : left.packages = (base ++ rest).toArray := by rw [← left_eq]
  have right_array : right.packages = (base ++ extra :: rest).toArray := by rw [← right_eq]
  let isExternal : PackageInfo → Bool := fun info => info.external && info.path == path
  have passed : isExternal extra = false := by simp [isExternal, sources]
  have left_found : externalPackage? left path = (base ++ rest).findIdx? isExternal := by
    rw [externalPackage?, left_array, List.findIdx?_toArray]
  have right_found : externalPackage? right path = (base ++ extra :: rest).findIdx? isExternal := by
    rw [externalPackage?, right_array, List.findIdx?_toArray]
  rw [left_found, right_found, List.findIdx?_append, List.findIdx?_append, List.findIdx?_cons,
    passed]
  cases first : base.findIdx? isExternal with
  | some index =>
      have below : index < base.length := (List.findIdx?_eq_some_iff_findIdx_eq.mp first).1
      simp [skip_of_lt below]
  | none =>
      cases rest.findIdx? isExternal with
      | none => rfl
      | some index =>
          have beyond : skip base.length (index + base.length) = index + base.length + 1 :=
            skip_of_le (Nat.le_add_left _ _)
          simp [beyond, Nat.add_right_comm]

section Imports

variable {moved : Renaming} {view : View}

/-- Tables that match, with one more package on the right. -/
structure Beside (moved : Renaming) (view : View) (base : List PackageInfo) (extra : PackageInfo)
    (left right : Tables) : Prop extends Inserted base extra left right where
  same : left.Matches moved view right

theorem newSymbol_beside (symbol : Symbol) :
    Alongside (Beside moved view base extra) (newSymbol symbol) (newSymbol (symbol.rename moved))
      fun id other => other = moved.symbol id :=
  .modifyGet fun _ _ beside =>
    ⟨⟨⟨beside.split⟩, beside.same.addSymbol symbol⟩, beside.same.symbol_size.symm⟩

variable (skipped : moved.package = skip base.length) (sources : extra.external = false)
include skipped sources

theorem externalPackage_alongside (path : String) :
    Alongside (Beside moved view base extra) (externalPackage path) (externalPackage path)
      fun package other => other = moved.package package := by
  refine .get_bind fun left right beside => ?_
  rw [beside.externalPackage?_eq sources, skipped]
  cases externalPackage? left path with
  | some package => exact .pure rfl
  | none =>
      refine .modifyGet fun left right beside => ?_
      obtain ⟨rest, left_eq, right_eq, external⟩ := beside.split
      let info : PackageInfo := { name := Import.lastSegment path, path, external := true }
      have split : Inserted base extra (left.addPackage info).2 (right.addPackage info).2 := by
        refine ⟨⟨rest ++ [info], ?_, ?_, ?_⟩⟩
        · simp [Tables.addPackage, left_eq]
        · simp [Tables.addPackage, right_eq]
        · simpa [info, or_imp, forall_and] using external
      refine ⟨⟨split, beside.same.addPackage rfl rfl⟩, ?_⟩
      have left_size : left.packages.size = base.length + rest.length := by
        rw [← Array.length_toList, left_eq, List.length_append]
      have right_size : right.packages.size = base.length + rest.length + 1 := by
        rw [← Array.length_toList, right_eq, List.length_append, List.length_cons, Nat.add_assoc]
      change right.packages.size = skip base.length left.packages.size
      rw [left_size, right_size, skip_of_le (Nat.le_add_right _ _)]

variable (predeclared : Predeclared.sync < base.length)
include predeclared

theorem importTarget_alongside (own : PackageId) {path : String}
    (named : extra.name ≠ Import.lastSegment path) :
    Alongside (Beside moved view base extra) (importTarget own path) (importTarget own path)
      fun package other => other = moved.package package := by
  have stays {package : PackageId} (below : package < base.length) :
      package = moved.package package := by
    rw [skipped, skip_of_lt below]
  have external := @externalPackage_alongside base extra moved view skipped sources path
  unfold importTarget
  split
  · exact .pure (stays predeclared)
  · refine .get_bind fun left right beside => ?_
    obtain ⟨same, below⟩ := beside.sourcePackage?_eq named own
    rw [same]
    cases found : sourcePackage? left own (Import.lastSegment path) with
    | none => exact external
    | some package =>
        dsimp only
        split
        · exact external
        · exact .pure (stays (below package found))

theorem declareImports_alongside {own : PackageId} (below : own < base.length) {file : File}
    (named : ∀ spec ∈ file.imports, extra.name ≠ Import.lastSegment spec.path) :
    Alongside (Beside moved view base extra) (declareImports own file) (declareImports own file)
      (FileScope.Matches moved) := by
  have own_eq : own = moved.package own := by rw [skipped, skip_of_lt below]
  have imports : Alongside (Beside moved view base extra)
      (file.imports.foldlM (declareImport own) ∅) (file.imports.foldlM (declareImport own) ∅)
      (Scope.Renamed moved) := by
    have each : ∀ spec ∈ file.imports, ∀ imports others, Scope.Renamed moved imports others →
        Alongside (Beside moved view base extra) (declareImport own imports spec)
          (declareImport own others spec) (Scope.Renamed moved) := by
      intro spec listed imports others renamed
      unfold declareImport
      dsimp only
      split
      · exact .pure renamed
      · refine (importTarget_alongside skipped sources predeclared own
          (named spec listed)).bind fun target other target_eq => ?_
        have symbol_eq : (⟨spec.localName, .package other, own, .unknown, none⟩ : Symbol) =
            Symbol.rename moved ⟨spec.localName, .package target, own, .unknown, none⟩ := by
          simp [Symbol.rename, SymbolKind.rename, target_eq, ← own_eq]
        rw [symbol_eq]
        refine (newSymbol_beside _).bind fun id another alike => ?_
        subst alike
        exact .pure (renamed.insert _ id)
    have all : Alongside (Beside moved view base extra)
        (file.imports.foldlM (declareImport own) ∅)
        ((file.imports.map id).foldlM (declareImport own) ∅) (Scope.Renamed moved) :=
      .foldlM_map Scope.renamed_empty each
    rwa [List.map_id] at all
  exact imports.bind fun imports others renamed => .pure ⟨own_eq, renamed⟩

end Imports

end Resolution

/-! ## Numbers that stay -/

namespace Tables

theorem lt_size_of_lookup {tables : Tables} {package : PackageId}
    {name : String} {id : SymbolId} (found : tables.lookup package name = some id) :
    package < tables.packages.size := by
  rw [lookup] at found
  split at found
  · rename_i info info_eq
    exact (Array.getElem?_eq_some_iff.mp info_eq).1
  · cases found

/-- Tables that mention no later packages match themselves when a number is left out. -/
theorem Within.matches_skipping {gap : PackageId} (positive : 0 < gap) {tables : Tables}
    (within : tables.Within gap)
    (members : ∀ package name id, tables.lookup package name = some id → package < gap)
    {view : View} (typed : ∀ id, view.typed id) :
    tables.Matches (.skipping positive) view tables := by
  have fixed (package : PackageId) (below : package < gap) :
      (Renaming.skipping positive).package package = package := skip_of_lt below
  have beyond {package : PackageId} (later : ¬package < gap) :
      ¬(Renaming.skipping positive).package package < gap := by
    have moved : (Renaming.skipping positive).package package = package + 1 :=
      skip_of_le (Nat.le_of_not_lt later)
    rw [moved]
    exact fun below => later (Nat.lt_of_succ_lt below)
  have absent {package : PackageId} (later : ¬package < gap) (name : String) :
      tables.lookup package name = none := by
    rw [Option.eq_none_iff_forall_ne_some]
    exact fun id found => later (members package name id found)
  have unnamed {ref : NamedRef} (later : ¬ref.package < gap) : tables.named[ref]? = none := by
    rw [Option.eq_none_iff_forall_ne_some]
    exact fun type found => later (within.named ref type found).1
  have ref_eq {ref : NamedRef} {type : NamedType} (found : tables.named[ref]? = some type) :
      ref.rename (.skipping positive) = ref := by
    rw [NamedRef.rename, fixed _ (within.named ref type found).1]
  exact
  { next := fun _ => rfl
    fresh := fun count => typed _
    shape := fun id => by
      change (tables.symbol? id).map _ = _
      cases found : tables.symbol? id with
      | none => rfl
      | some symbol =>
          rw [Option.map_some, Option.map_some,
            Symbol.rename_of_isWithin fixed Option.map_id_apply (within.symbol id symbol found)]
    typeOf := fun id _ => by
      change tables.typeOf id = _
      rw [Tables.typeOf]
      cases found : tables.symbol? id with
      | none => rfl
      | some symbol =>
          have inside := (Symbol.isWithin_iff.mp (within.symbol id symbol found)).2.2
          exact (TypeRef.rename_of_isWithin fixed inside).symm
    types := fun id _ _ _ => typed id
    lookup := fun package name _ => by
      by_cases below : package < gap
      · rw [fixed package below]
        exact Option.map_id_apply.symm
      · rw [absent below, absent (beyond below)]
        rfl
    uses := fun node _ => Option.map_id_apply.symm
    selections := fun node _ => Option.map_id_apply.symm
    receivers := fun node _ => by
      change tables.receivers[node]? = _
      cases found : tables.receivers[node]? with
      | none => rfl
      | some type =>
          rw [Option.map_some, TypeRef.rename_of_isWithin fixed (within.receiver node type found)]
    named := fun ref _ => by
      by_cases below : ref.package < gap
      · rw [NamedRef.rename, fixed _ below]
      · have later : ¬(ref.rename (.skipping positive)).package < gap := beyond below
        rw [Std.TreeMap.contains_eq_isSome_getElem?, Std.TreeMap.contains_eq_isSome_getElem?,
          unnamed below, unnamed later]
    underlying := fun ref type other _ found other_found => by
      rw [ref_eq found, found] at other_found
      cases other_found
      exact Underlying.renamed_of_isWithin fixed rfl (within.named ref type found).2
    methods := fun ref type other name _ found other_found => by
      rw [ref_eq found, found] at other_found
      cases other_found
      exact Option.map_id_apply.symm }

end Tables

/-! ## What files see -/

namespace Resolution

variable (program : Program)

theorem ownPackages_owned : List.Forall₂ (fun file package =>
      program.ownPackages.2.Owns package (file.dir, file.package))
    program.files program.ownPackages.1 :=
  (@declarePackages_leads [] [] _ program.files [] Predeclared.housed.predeclared (by simp)).2

theorem ownPackages_housed : program.ownPackages.2.Housed :=
  housed_of_changes (@declarePackages_leads [] [] _ program.files []
    Predeclared.housed.predeclared (by simp)).1 Predeclared.housed

theorem lt_ownCount {package : PackageId} (listed : package ∈ program.ownPackages.1) :
    package < program.ownCount := by
  have owned := ownPackages_owned program
  obtain ⟨index, below, rfl⟩ := List.getElem_of_mem listed
  exact Tables.lt_size_of_label? (owned.get (owned.length_eq ▸ below) below).2

/-- Files belong to the packages that were there before any import was looked at. -/
theorem package_lt_ownCount {unit : FileScope × File} (member : unit ∈ program.units) :
    unit.1.package < program.ownCount := by
  have taken : Leads (fun _ _ => True) program.ownPackages.2
      ((program.ownPackages.1.zip program.files).mapM fun item => declareImports item.1 item.2)
      fun scopes _ => List.Forall₂ (fun item scope => scope.package = item.1)
        (program.ownPackages.1.zip program.files) scopes :=
    .mapM (fun _ _ _ _ _ => id) fun item _ state _ => ⟨.single trivial, rfl⟩
  have scopes : List.Forall₂ (fun item scope => scope.package = item.1)
      (program.ownPackages.1.zip program.files) program.imported.1 := taken.2
  obtain ⟨index, below, scope_eq⟩ := List.getElem_of_mem (List.of_mem_zip member).1
  have own := scopes.get (scopes.length_eq ▸ below) below
  rw [List.get_eq_getElem, List.get_eq_getElem, scope_eq] at own
  rw [own]
  exact lt_ownCount program (List.of_mem_zip (List.getElem_mem _)).1

theorem run_declareScopes_extend {extra : File} (unimported : program.Unimported extra) :
    (declareScopes (program.extend extra).files).run Predeclared.tables =
      let others := ((program.ownPackages.1.zip program.files).mapM fun (own, file) =>
        declareImports own file).run
          (program.ownPackages.2.addPackage { name := extra.package, path := extra.dir }).2
      let own := (declareImports program.ownCount extra).run others.2
      (others.1 ++ [own.1], own.2) := by
  have aligned := (ownPackages_owned program).length_eq
  have packages : (declarePackages [] (program.extend extra).files).run Predeclared.tables =
      (program.ownPackages.1 ++ [program.ownCount],
        (program.ownPackages.2.addPackage { name := extra.package, path := extra.dir }).2) :=
    run_declarePackages_append unimported.new rfl Predeclared.tables
  have zipped : (program.ownPackages.1 ++ [program.ownCount]).zip (program.extend extra).files =
      program.ownPackages.1.zip program.files ++ [(program.ownCount, extra)] :=
    List.zip_append aligned.symm
  rw [declareScopes, StateT.run_bind, packages]
  change ((((program.ownPackages.1 ++ [program.ownCount]).zip (program.extend extra).files).mapM
    fun (own, file) => declareImports own file).run _) = _
  rw [zipped, List.mapM_append]
  rfl

end Resolution

end Relock
