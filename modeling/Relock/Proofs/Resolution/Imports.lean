import Relock.Proofs.Resolution.Packages

/-!
# What imports denote

An import denotes a package with sources that is called like the last segment of its path, if there
is one other than the importing package, and else a package without sources, one for each path. This
is so for all paths but those that end in `sync`: there the predeclared package is looked at first
and found unsuitable, and the import denotes a package without sources whatever packages there are.
-/

namespace Relock

namespace Tables

/-- Later tables have the packages of earlier ones, with other members at most. -/
def KeepsPackages (before after : Tables) : Prop :=
  ∀ (id : PackageId) info, before.packages[id]? = some info →
    ∃ scope, after.packages[id]? = some { info with scope }

namespace KeepsPackages

variable {before middle after : Tables}

theorem of_eq (same : after.packages = before.packages) : before.KeepsPackages after :=
  fun _ info found => ⟨info.scope, same ▸ found⟩

theorem trans (first : before.KeepsPackages middle) (second : middle.KeepsPackages after) :
    before.KeepsPackages after := by
  intro id info found
  obtain ⟨_, found⟩ := first id info found
  obtain ⟨scope, found⟩ := second id _ found
  exact ⟨scope, found⟩

theorem addPackage (tables : Tables) (info : PackageInfo) :
    tables.KeepsPackages (tables.addPackage info).2 := by
  intro id old found
  have below := (Array.getElem?_eq_some_iff.mp found).1
  refine ⟨old.scope, ?_⟩
  rw [Tables.addPackage, Array.getElem?_push, if_neg (Nat.ne_of_lt below), found]

theorem bind (tables : Tables) (package : PackageId) (name : String) (symbol : SymbolId) :
    tables.KeepsPackages (tables.bind package name symbol) := by
  intro id info found
  rw [Tables.bind, Array.getElem?_modify]
  split
  · exact ⟨_, by rw [found, Option.map_some]⟩
  · exact ⟨info.scope, found⟩

end KeepsPackages

end Tables

namespace Resolution

variable {declared : List (PackageId × FuncDecl)} {marks : List Mark} {before after : Tables}

theorem Change.keepsPackages (change : Change declared marks before after) :
    before.KeepsPackages after := by
  cases change with
  | package info => exact .addPackage _ info
  | type ident package => exact .bind _ package _ _
  | var ident package => exact .bind _ package _ _
  | function package decl => exact .bind _ package _ _
  | method => exact .of_eq (Tables.packages_declareMethod ..)
  | part | use | named | underlying | retype => exact .of_eq rfl

end Resolution

namespace Program

open Resolution

variable (program : Program) {unit : FileScope × File} {file : File} {spec : Import} {name : String}
  {id : SymbolId} {own target : PackageId}

theorem keepsPackages_resolve : program.imported.2.KeepsPackages program.resolve := by
  have declared : program.imported.2.KeepsPackages program.signed :=
    kept_of_steps (fun _ _ change earlier => earlier.trans change.keepsPackages) program.steps_signed
      (.of_eq rfl)
  have keeps (before after : Resolving) (step : StepIn program.units program.marks before after)
      (earlier : program.imported.2.KeepsPackages before.tables) :
      program.imported.2.KeepsPackages after.tables := by
    obtain ⟨unit, -, step⟩ := step
    exact earlier.trans (.of_eq step.packages_eq)
  rw [program.resolve_eq]
  exact kept_of_steps keeps program.steps_resolved declared

theorem extends_resolve : program.imported.2.Extends program.resolve := by
  have keeps (before after : Resolving) (step : StepIn program.units program.marks before after)
      (earlier : program.imported.2.Extends before.tables) :
      program.imported.2.Extends after.tables := earlier.trans step.grows
  rw [program.resolve_eq]
  exact kept_of_steps keeps program.steps_resolved (grows_of_changes program.steps_signed)

/-- The imports that bind a name, each with the package of its file and with the number of the entity
that it adds. -/
def importEntries : List ((PackageId × Import) × SymbolId) :=
  (importsOf program.items).zipIdx Predeclared.tables.symbols.size

/-- There is a package with sources of a name other than the given one. -/
def HasSource (own : PackageId) (name : String) : Prop :=
  ∃ item ∈ program.items, item.1 ≠ own ∧ item.2.package = name

/-- The entity is the imported name of a package. -/
def Denotes (id : SymbolId) (target : PackageId) (info : PackageInfo) : Prop :=
  program.resolve.importedPackage? id = some target ∧ program.resolve.packages[target]? = some info

variable {program}

/-! ## Entities of imports -/

theorem map_units : program.units.map (fun unit => (unit.1.package, unit.2)) = program.items := by
  rw [program.units_eq, List.map_map]
  exact map_fst_allotted _ _ _

theorem item_of_unit (listed : unit ∈ program.units) : (unit.1.package, unit.2) ∈ program.items :=
  program.map_units ▸ List.mem_map_of_mem listed

theorem mem_bound :
    spec ∈ file.bound ↔ spec ∈ file.imports ∧ spec.localName ≠ "_" ∧ spec.localName ≠ "." := by
  simp [File.bound, Import.isBlank]

theorem exists_importEntry {item : PackageId × File} (listed : item ∈ program.items)
    (bound : spec ∈ item.2.bound) : ∃ id, ((item.1, spec), id) ∈ program.importEntries := by
  have entry : (item.1, spec) ∈ program.importEntries.map Prod.fst := by
    rw [importEntries, List.zipIdx_map_fst]
    exact List.mem_flatMap.mpr ⟨item, listed, List.mem_map_of_mem bound⟩
  obtain ⟨⟨_, id⟩, entry_mem, rfl⟩ := List.mem_map.mp entry
  exact ⟨id, entry_mem⟩

/-- A name that is bound by imports is that of one of them. -/
theorem mem_of_bindImports {specs : List Import} {ids : List SymbolId} {imports : Scope SymbolId}
    (found : (bindImports imports specs ids)[name]? = some id) :
    imports[name]? = some id ∨ ∃ spec, spec.localName = name ∧ (spec, id) ∈ specs.zip ids := by
  rw [bindImports] at found
  generalize specs.zip ids = entries at found ⊢
  induction entries generalizing imports with
  | nil => exact .inl found
  | cons entry entries ih =>
      rcases ih found with earlier | ⟨spec, called, listed⟩
      · rcases found_of_insert earlier with ⟨same, rfl⟩ | earlier
        · exact .inr ⟨entry.1, same, List.mem_cons_self⟩
        · exact .inl earlier
      · exact .inr ⟨spec, called, List.mem_cons_of_mem _ listed⟩

/-- The names under which a file imports packages mean entities of its imports. -/
theorem importEntry_of_scope (listed : unit ∈ program.units)
    (found : unit.1.imports[name]? = some id) :
    ∃ spec ∈ unit.2.bound, spec.localName = name ∧
      ((unit.1.package, spec), id) ∈ program.importEntries := by
  rw [program.units_eq] at listed
  obtain ⟨entry, entry_mem, rfl⟩ := List.mem_map.mp listed
  obtain ⟨spec, called, pair⟩ := (mem_of_bindImports found).resolve_left (by simp)
  refine ⟨spec, (List.of_mem_zip pair).1, called, ?_⟩
  rw [importEntries, importsOf, ← flatMap_allotted fun item => List.length_map ..]
  refine List.mem_flatMap.mpr ⟨entry, entry_mem, ?_⟩
  rw [List.zip_map_left]
  exact List.mem_map_of_mem pair

section Entry

variable {own : PackageId} {spec : Import} {id : SymbolId}
  (entry : ((own, spec), id) ∈ program.importEntries)
include entry

theorem mem_importsOf : (own, spec) ∈ importsOf program.items :=
  List.fst_mem_of_mem_zipIdx entry

theorem item_of_importEntry : ∃ item ∈ program.items, item.1 = own := by
  obtain ⟨item, listed, bound⟩ := List.mem_flatMap.mp (mem_importsOf entry)
  obtain ⟨_, -, same⟩ := List.mem_map.mp bound
  exact ⟨item, listed, congrArg Prod.fst same⟩

/-- The entity of an import denotes the package that its path leads to. -/
theorem importedPackage?_of_importEntry : ∃ target,
    importTarget? program.imported.2 own spec.path = some target ∧
      program.resolve.importedPackage? id = some target := by
  obtain ⟨target, leads⟩ := Option.isSome_iff_exists.mp (program.imports.found _ (mem_importsOf entry))
  obtain ⟨late, position⟩ := List.mk_mem_zipIdx_iff_le_and_getElem?_sub.mp entry
  have symbol : program.imported.2.symbol? id =
      some (importEntity program.imported.2 (own, spec)) := by
    rw [Tables.symbol?, ← Array.getElem?_toList, program.symbols_imported,
      List.getElem?_append_right (by simpa using late), Array.length_toList, List.getElem?_map,
      position, Option.map_some]
  have known : program.imported.2.entity? id = some ⟨spec.localName, .package target, own⟩ := by
    rw [Tables.entity?, symbol, importEntity, leads]
    rfl
  obtain ⟨final, found, kind⟩ :=
    Option.map_eq_some_iff.mp (program.extends_resolve.entity id _ known)
  refine ⟨target, leads, ?_⟩
  rw [Tables.importedPackage?, found]
  obtain ⟨name, kind, package, type, decl⟩ := final
  cases kind
  rfl

end Entry

/-! ## Packages that imports lead to -/

/-- A package with sources is that of one of the files. -/
theorem item_of_own (listed : file ∈ program.files) {package : PackageId}
    (found : program.imported.2.packages[package]? = some (.own file)) :
    ∃ source ∈ program.items, source.1 = package ∧ source.2 = file := by
  rw [← program.map_snd_items] at listed
  obtain ⟨source, source_mem, rfl⟩ := List.mem_map.mp listed
  exact ⟨source, source_mem, package_injective (program.home source_mem) found, rfl⟩

section Target

variable {item : PackageId × File} (listed : item ∈ program.items) {path : String}
  {target : PackageId}
include listed

theorem source_of_sourceTarget? (found : sourceTarget? program.imported.2 item.1 path = some target) :
    Import.lastSegment path ≠ "sync" ∧ target ≠ item.1 ∧
      ∃ source ∈ program.items, source.1 = target ∧ source.2.package = Import.lastSegment path := by
  obtain ⟨not_sync, other, file, file_mem, named, own⟩ := of_sourceTarget? listed found
  obtain ⟨source, source_mem, rfl, rfl⟩ := item_of_own file_mem own
  exact ⟨not_sync, other, source, source_mem, rfl, named⟩

theorem sourceTarget?_eq_none_iff : sourceTarget? program.imported.2 item.1 path = none ↔
    ¬ (Import.lastSegment path ≠ "sync" ∧ program.HasSource item.1 (Import.lastSegment path)) := by
  rw [← not_iff_not, not_not, ← ne_eq, Option.ne_none_iff_exists']
  constructor
  · rintro ⟨target, found⟩
    obtain ⟨not_sync, other, source, source_mem, rfl, named⟩ := source_of_sourceTarget? listed found
    exact ⟨not_sync, source, source_mem, other, named⟩
  · rintro ⟨not_sync, source, source_mem, other, named⟩
    exact exists_sourceTarget? not_sync other named (program.home source_mem)

end Target

/-- A path leads to the predeclared package, to a package with sources, or to one without. -/
theorem importTarget?_cases {path : String}
    (leads : importTarget? program.imported.2 own path = some target) :
    path = "sync" ∧ target = Predeclared.sync ∨
      path ≠ "sync" ∧ sourceTarget? program.imported.2 own path = some target ∨
      path ≠ "sync" ∧ sourceTarget? program.imported.2 own path = none ∧
        program.imported.2.packages[target]? = some (.foreign path) := by
  rw [importTarget?] at leads
  split at leads
  · exact .inl ⟨‹_›, (Option.some.inj leads).symm⟩
  · cases source : sourceTarget? program.imported.2 own path with
    | some package => exact .inr (.inl ⟨‹_›, by rwa [source, Option.some_or] at leads⟩)
    | none =>
        rw [source, Option.none_or, externalPackage?_eq_some_iff] at leads
        exact .inr (.inr ⟨‹_›, rfl, leads⟩)

/-- What the entity of an import denotes, and whether that is a package with sources. -/
theorem exists_denotes (entry : ((own, spec), id) ∈ program.importEntries) :
    ∃ target info, program.Denotes id target info ∧
      (spec.path = "sync" ∧ target = Predeclared.sync ∧ info.external = false ∨
        spec.path ≠ "sync" ∧ sourceTarget? program.imported.2 own spec.path = some target ∧
          info.external = false ∨
        spec.path ≠ "sync" ∧ sourceTarget? program.imported.2 own spec.path = none ∧
          program.imported.2.packages[target]? = some (.foreign spec.path) ∧ info.external = true ∧
          info.path = spec.path) := by
  obtain ⟨item, item_mem, rfl⟩ := item_of_importEntry entry
  obtain ⟨target, leads, denoted⟩ := importedPackage?_of_importEntry entry
  -- All but the members of a package is settled when it is added.
  have later {info : PackageInfo} (found : program.imported.2.packages[target]? = some info) :=
    program.keepsPackages_resolve target info found
  rcases importTarget?_cases leads with ⟨path, rfl⟩ | ⟨path, source⟩ | ⟨path, source, found⟩
  · obtain ⟨info, earlier⟩ : ∃ info, Predeclared.tables.packages[Predeclared.sync]? = some info :=
      ⟨_, Array.getElem?_eq_getElem Predeclared.housed.predeclared⟩
    obtain ⟨scope, found⟩ := later (getElem?_of_more program.packages_predeclared earlier)
    refine ⟨_, _, ⟨denoted, found⟩, .inl ⟨path, rfl, ?_⟩⟩
    exact Predeclared.external_all info (Array.mem_toList_iff.mpr (Array.mem_of_getElem? earlier))
  · obtain ⟨-, -, file, -, -, own⟩ := of_sourceTarget? item_mem source
    obtain ⟨scope, found⟩ := later own
    exact ⟨_, _, ⟨denoted, found⟩, .inr (.inl ⟨path, source, rfl⟩)⟩
  · obtain ⟨scope, resolved⟩ := later found
    exact ⟨_, _, ⟨denoted, resolved⟩, .inr (.inr ⟨path, source, found, rfl, rfl⟩)⟩

theorem Denotes.eq {other : PackageId} {info another : PackageInfo}
    (denotes : program.Denotes id target info) (second : program.Denotes id other another) :
    target = other ∧ info = another := by
  have same : target = other := Option.some.inj (denotes.1.symm.trans second.1)
  subst same
  exact ⟨rfl, Option.some.inj (denotes.2.symm.trans second.2)⟩

/-- An entity that denotes a package without sources denotes the one of its path. -/
theorem Denotes.foreign (entry : ((own, spec), id) ∈ program.importEntries) {info : PackageInfo}
    (denotes : program.Denotes id target info) (external : info.external = true) :
    program.imported.2.packages[target]? = some (.foreign spec.path) := by
  obtain ⟨other, another, second, cases⟩ := exists_denotes entry
  obtain ⟨rfl, rfl⟩ := denotes.eq second
  rcases cases with ⟨-, -, sources⟩ | ⟨-, -, sources⟩ | ⟨-, -, found, -⟩
  · cases sources.symm.trans external
  · cases sources.symm.trans external
  · exact found

/-- Every import that binds a name adds an entity, and these are what the names of files mean. Each
denotes a package with sources that is called like the last segment of its path, if there is one
other than the importing package and the segment is not `sync`. Else it denotes a package without
sources, and two imports of one path that do so denote the same one. -/
theorem imports_prefer_sources (program : Program) :
    (∀ unit ∈ program.units,
      (∀ spec ∈ unit.2.imports, spec.localName ≠ "_" → spec.localName ≠ "." →
        ∃ id, ((unit.1.package, spec), id) ∈ program.importEntries) ∧
      ∀ (name : String) id, unit.1.imports[name]? = some id → ∃ spec ∈ unit.2.imports,
        spec.localName = name ∧ ((unit.1.package, spec), id) ∈ program.importEntries) ∧
    (∀ own spec id, ((own, spec), id) ∈ program.importEntries →
      ∃ target info, program.Denotes id target info ∧
        (spec.path = "sync" → target = Predeclared.sync) ∧
        (spec.path ≠ "sync" →
          (Import.lastSegment spec.path ≠ "sync" ∧
              program.HasSource own (Import.lastSegment spec.path) →
            info.external = false ∧ target ≠ own ∧ ∃ source ∈ program.items,
              source.1 = target ∧ source.2.package = Import.lastSegment spec.path) ∧
          (¬ (Import.lastSegment spec.path ≠ "sync" ∧
              program.HasSource own (Import.lastSegment spec.path)) →
            info.external = true ∧ info.path = spec.path))) ∧
    ∀ own spec id other another otherId, ((own, spec), id) ∈ program.importEntries →
      ((other, another), otherId) ∈ program.importEntries → spec.path = another.path →
      ∀ target info second secondInfo, program.Denotes id target info →
        program.Denotes otherId second secondInfo → info.external = true →
        secondInfo.external = true → target = second := by
  refine ⟨fun unit listed => ⟨fun spec imported blank dot => ?_, fun name id found => ?_⟩,
    fun own spec id entry => ?_, ?_⟩
  · exact exists_importEntry (item_of_unit listed) (mem_bound.mpr ⟨imported, blank, dot⟩)
  · obtain ⟨spec, bound, called, entry⟩ := importEntry_of_scope listed found
    exact ⟨spec, (mem_bound.mp bound).1, called, entry⟩
  · obtain ⟨item, item_mem, rfl⟩ := item_of_importEntry entry
    obtain ⟨target, info, denotes, cases⟩ := exists_denotes entry
    refine ⟨target, info, denotes, ?_⟩
    rcases cases with ⟨path, sync, -⟩ | ⟨path, source, sources⟩ | ⟨path, source, -, foreign⟩
    · exact ⟨fun _ => sync, fun other => absurd path other⟩
    · obtain ⟨-, other, own⟩ := source_of_sourceTarget? item_mem source
      refine ⟨fun sync => absurd sync path, fun _ => ⟨fun _ => ⟨sources, other, own⟩, fun none => ?_⟩⟩
      cases source.symm.trans ((sourceTarget?_eq_none_iff item_mem).mpr none)
    · refine ⟨fun sync => absurd sync path, fun _ => ⟨fun some => ?_, fun _ => foreign⟩⟩
      exact absurd some ((sourceTarget?_eq_none_iff item_mem).mp source)
  · intro own spec id other another otherId entry second path target info next nextInfo denotes
      second_denotes external second_external
    have found := denotes.foreign entry external
    rw [path] at found
    exact package_injective found (second_denotes.foreign second second_external)

/-! ## A package called `sync` -/

/-- A file that imports `x/sync`, and a file of a package `sync`. -/
def syncBeside : Program :=
  ⟨[⟨0, "p.go", "p", ".", [⟨none, "x/sync"⟩], []⟩, ⟨1, "sync/s.go", "sync", "sync", [], []⟩]⟩

/-- There is another package with sources of the right name, but the import denotes a package without
sources. -/
theorem syncBeside_import_strays :
    ((2, ⟨none, "x/sync"⟩), 65) ∈ syncBeside.importEntries ∧
      syncBeside.HasSource 2 (Import.lastSegment "x/sync") ∧
      ∃ info, syncBeside.Denotes 65 4 info ∧ info.external = true := by
  have entry : ((2, ⟨none, "x/sync"⟩), 65) ∈ syncBeside.importEntries := by decide +kernel
  have source : (3, ⟨1, "sync/s.go", "sync", "sync", [], []⟩) ∈ syncBeside.items := by
    have homes : syncBeside.ownPackages.1 = [2, 3] := by decide +kernel
    rw [items, homes]
    exact .tail _ (.head _)
  have denoted : syncBeside.resolve.importedPackage? 65 = some 4 := by decide +kernel
  have external : syncBeside.resolve.packages[4]?.map PackageInfo.external = some true := by
    decide +kernel
  obtain ⟨info, found, external⟩ := Option.map_eq_some_iff.mp external
  exact ⟨entry, ⟨_, source, by decide, by decide +kernel⟩, info, ⟨denoted, found⟩, external⟩

end Program

end Relock
