import Relock.Proofs.Resolution.Stages

/-!
# Packages and imports of a program

The packages of a program are the predeclared ones, one for each directory and package name of its
files, and one for each import path that leads to none of these. The imports of the files add one
entity each, file by file.
-/

namespace Relock

/-! ## Packages -/

namespace PackageInfo

/-- The package of a file. -/
def own (file : File) : PackageInfo := { name := file.package, path := file.dir }

/-- The package without sources of an import path. -/
def foreign (path : String) : PackageInfo :=
  { name := Import.lastSegment path, path, external := true }

theorem own_eq_iff {file other : File} :
    own file = own other ↔ (file.dir, file.package) = (other.dir, other.package) := by
  simp [own, and_comm]

end PackageInfo

/-- The import binds no name. -/
def Import.isBlank (spec : Import) : Bool := decide (spec.localName = "_" ∨ spec.localName = ".")

/-- The imports of a file that bind a name. -/
def File.bound (file : File) : List Import := file.imports.filter fun spec => !spec.isBlank

namespace Tables

variable {tables : Tables} {info : PackageInfo}

theorem mem_addPackage {other : PackageInfo} : other ∈ (tables.addPackage info).2.packages.toList ↔
    other ∈ tables.packages.toList ∨ other = info := by
  rw [addPackage, Array.toList_push, List.mem_append, List.mem_singleton]

theorem nodup_addPackage (new : info ∉ tables.packages.toList)
    (nodup : tables.packages.toList.Nodup) : (tables.addPackage info).2.packages.toList.Nodup := by
  rw [addPackage, Array.toList_push]
  exact List.nodup_append.mpr ⟨nodup, List.nodup_singleton info, fun other listed last last_mem same =>
    new (List.mem_singleton.mp last_mem ▸ same ▸ listed)⟩

end Tables

namespace Resolution

variable {known : List ((String × String) × PackageId)} {tables before after : Tables}
  {spec : Import}

section Files

variable {file : File} {known : List ((String × String) × PackageId)}

theorem run_declarePackages_of_known {package : PackageId}
    (found : known.lookup (file.dir, file.package) = some package) (files : List File)
    (tables : Tables) :
    (declarePackages known (file :: files)).run tables =
      (package :: ((declarePackages known files).run tables).1,
        ((declarePackages known files).run tables).2) := by
  rw [declarePackages, found]
  rfl

theorem run_declarePackages_of_new (missing : known.lookup (file.dir, file.package) = none)
    (files : List File) (tables : Tables) :
    (declarePackages known (file :: files)).run tables =
      (tables.packages.size ::
          ((declarePackages (((file.dir, file.package), tables.packages.size) :: known) files).run
            (tables.addPackage { name := file.package, path := file.dir }).2).1,
        ((declarePackages (((file.dir, file.package), tables.packages.size) :: known) files).run
          (tables.addPackage { name := file.package, path := file.dir }).2).2) := by
  rw [declarePackages, missing]
  rfl

end Files

/-- What is known of the packages of files is what the tables say. -/
structure Known (known : List ((String × String) × PackageId)) (tables : Tables) : Prop where
  found : ∀ file : File, ∀ package, known.lookup (file.dir, file.package) = some package →
    tables.packages[package]? = some (.own file)
  missing : ∀ file : File, known.lookup (file.dir, file.package) = none →
    .own file ∉ tables.packages.toList

theorem Known.add (right : Known known tables) (file : File) :
    Known (((file.dir, file.package), tables.packages.size) :: known)
      (tables.addPackage (.own file)).2 where
  found other package found := by
    rw [List.lookup_cons] at found
    split at found
    · rename_i same
      cases found
      have same : (other.dir, other.package) = (file.dir, file.package) := by simpa using same
      rw [PackageInfo.own_eq_iff.mpr same, Tables.addPackage, Array.getElem?_push_size]
    · have old := right.found other package found
      rw [Tables.addPackage, Array.getElem?_push,
        if_neg (Nat.ne_of_lt (Array.getElem?_eq_some_iff.mp old).1), old]
  missing other unknown := by
    rw [List.lookup_cons] at unknown
    split at unknown
    · cases unknown
    · rename_i other_label
      have old := right.missing other unknown
      intro listed
      rw [Tables.mem_addPackage, PackageInfo.own_eq_iff] at listed
      rcases listed with listed | same
      · exact old listed
      · simp [same] at other_label

/-- The tables after the packages of files have been added. -/
structure Grouped (files : List File) (homes : List PackageId) (before after : Tables) : Prop where
  others : after = { before with packages := after.packages }
  more : before.packages.toList <+: after.packages.toList
  nodup : before.packages.toList.Nodup → after.packages.toList.Nodup
  mem_iff : ∀ info, info ∈ after.packages.toList ↔
    info ∈ before.packages.toList ∨ ∃ file ∈ files, info = .own file
  homes : List.Forall₂ (fun file home => after.packages[home]? = some (.own file)) files homes

theorem getElem?_of_more (more : before.packages.toList <+: after.packages.toList)
    {package : PackageId} {info : PackageInfo} (found : before.packages[package]? = some info) :
    after.packages[package]? = some info := by
  rw [← Array.getElem?_toList] at found ⊢
  obtain ⟨rest, split⟩ := more
  rw [← split, List.getElem?_append_left (List.getElem?_eq_some_iff.mp found).1, found]

theorem declarePackages_grouped (right : Known known tables) (files : List File) :
    Grouped files ((declarePackages known files).run tables).1 tables
      ((declarePackages known files).run tables).2 := by
  induction files generalizing known tables with
  | nil => exact ⟨rfl, List.prefix_rfl, id, fun _ => (or_iff_left (by simp)).symm, .nil⟩
  | cons file files ih =>
      cases found : known.lookup (file.dir, file.package) with
      | some package =>
          rw [run_declarePackages_of_known found]
          have later := ih right
          have here := right.found file package found
          refine ⟨later.others, later.more, later.nodup, fun info => ?_,
            .cons (getElem?_of_more later.more here) later.homes⟩
          have listed : .own file ∈ tables.packages.toList :=
            Array.mem_toList_iff.mpr (Array.mem_of_getElem? here)
          refine (later.mem_iff info).trans ?_
          rw [List.exists_mem_cons_iff, ← or_assoc]
          exact or_congr_left (iff_self_or.mpr fun same => same ▸ listed)
      | none =>
          rw [run_declarePackages_of_new found]
          have later := ih (right.add file)
          have here : (tables.addPackage (.own file)).2.packages[tables.packages.size]? =
              some (.own file) := Array.getElem?_push_size
          refine ⟨later.others, ?_, fun nodup => later.nodup (Tables.nodup_addPackage
            (right.missing file found) nodup), fun info => ?_,
            .cons (getElem?_of_more later.more here) later.homes⟩
          · exact List.IsPrefix.trans ⟨[.own file], Array.toList_push.symm⟩ later.more
          · refine (later.mem_iff info).trans ?_
            rw [List.exists_mem_cons_iff, ← or_assoc]
            exact or_congr_left Tables.mem_addPackage

/-! ## Imports -/

/-- There are the same packages and then some without sources. -/
def MorePackages (before after : Tables) : Prop :=
  ∃ more, after.packages.toList = before.packages.toList ++ more ∧
    ∀ info ∈ more, info.external = true

theorem MorePackages.refl (tables : Tables) : MorePackages tables tables := ⟨[], by simp⟩

theorem MorePackages.trans {middle : Tables} (first : MorePackages before middle)
    (second : MorePackages middle after) : MorePackages before after := by
  obtain ⟨more, middle_eq, external⟩ := first
  obtain ⟨further, after_eq, later⟩ := second
  refine ⟨more ++ further, ?_, fun info listed => ?_⟩
  · rw [after_eq, middle_eq, List.append_assoc]
  · exact (List.mem_append.mp listed).elim (external info) (later info)

/-- Only the first packages can be found by name, if the others have no sources or another name. -/
theorem sourcePackage?_of_split {base rest : List PackageInfo} {name : String}
    (split : tables.packages.toList = base ++ rest)
    (other : ∀ info ∈ rest, info.external = true ∨ info.name ≠ name) (own : PackageId) :
    sourcePackage? tables own name = (base.zipIdx.find? fun (package, id) =>
      !package.external && package.name == name && id != own &&
        id != Predeclared.universal).map (·.2) := by
  rw [sourcePackage?, split, List.zipIdx_append, List.find?_append]
  have none_of_rest : (rest.zipIdx (0 + base.length)).find? (fun (package, id) =>
      !package.external && package.name == name && id != own &&
        id != Predeclared.universal) = none := by
    rw [List.find?_eq_none]
    rintro ⟨info, id⟩ listed
    have member : info ∈ rest := List.fst_mem_of_mem_zipIdx listed
    rcases other info member with external | named
    · simp [external]
    · simp [named]
  rw [none_of_rest, Option.or_none]

/-- A package with sources of a name, the importing package and the universe excepted. -/
def Candidate (tables : Tables) (own : PackageId) (name : String) (package : PackageId) : Prop :=
  ∃ info, tables.packages[package]? = some info ∧ info.external = false ∧ info.name = name ∧
    package ≠ own ∧ package ≠ Predeclared.universal

section Candidate

variable {tables : Tables} {own package : PackageId} {name : String}

/-- The first candidate is found. -/
theorem sourcePackage?_eq_some (found : sourcePackage? tables own name = some package) :
    Candidate tables own name package ∧ ∀ other < package, ¬Candidate tables own name other := by
  obtain ⟨⟨info, id⟩, entry, rfl⟩ := Option.map_eq_some_iff.mp found
  obtain ⟨right, index, below, entry_eq, earlier⟩ := List.find?_eq_some_iff_getElem.mp entry
  rw [List.getElem_zipIdx, Nat.zero_add] at entry_eq
  obtain ⟨rfl, rfl⟩ := Prod.mk.inj entry_eq
  rw [List.length_zipIdx, Array.length_toList] at below
  refine ⟨⟨_, Array.getElem?_eq_getElem below, by simpa [and_assoc] using right⟩, ?_⟩
  rintro other before ⟨info, info_eq, candidate⟩
  obtain ⟨other_below, rfl⟩ := Array.getElem?_eq_some_iff.mp info_eq
  have wrong := earlier other before
  rw [List.getElem_zipIdx, Nat.zero_add] at wrong
  simp [candidate] at wrong

theorem exists_sourcePackage? (candidate : Candidate tables own name package) :
    ∃ first, sourcePackage? tables own name = some first := by
  obtain ⟨info, info_eq, candidate⟩ := candidate
  rw [← Array.getElem?_toList] at info_eq
  rw [← Option.isSome_iff_exists, sourcePackage?, Option.isSome_map, List.find?_isSome]
  exact ⟨(info, package), List.mk_mem_zipIdx_iff_getElem?.mpr info_eq, by simp [candidate]⟩

end Candidate

/-- The package with sources that a path leads to. -/
def sourceTarget? (tables : Tables) (own : PackageId) (path : String) : Option PackageId :=
  (sourcePackage? tables own (Import.lastSegment path)).filter (· != Predeclared.sync)

/-- The package that a path leads to, if it is there already. -/
def importTarget? (tables : Tables) (own : PackageId) (path : String) : Option PackageId :=
  if path = "sync" then some Predeclared.sync
  else (sourceTarget? tables own path).or (externalPackage? tables path)

section More

variable {before after : Tables} (more : MorePackages before after) (own : PackageId) (path : String)
include more

theorem MorePackages.sourceTarget?_eq :
    sourceTarget? after own path = sourceTarget? before own path := by
  obtain ⟨rest, split, external⟩ := more
  have earlier := sourcePackage?_of_split (List.append_nil before.packages.toList).symm
    (nofun : ∀ info : PackageInfo, info ∈ [] → _ ∨ info.name ≠ Import.lastSegment path) own
  rw [sourceTarget?, sourceTarget?, earlier,
    sourcePackage?_of_split split (fun info listed => .inl (external info listed)) own]

theorem MorePackages.externalPackage?_eq {package : PackageId}
    (found : externalPackage? before path = some package) :
    externalPackage? after path = some package := by
  obtain ⟨rest, split, -⟩ := more
  have array : after.packages = before.packages ++ rest.toArray := by
    rw [← Array.toList_inj, split]
    simp
  rw [externalPackage?] at found
  rw [externalPackage?, array, Array.findIdx?_append, found, Option.some_or]

end More

/-- The entity of an import, given the tables that say where its path leads. -/
def importEntity (tables : Tables) (entry : PackageId × Import) : Symbol :=
  { name := entry.2.localName
    kind := .package ((importTarget? tables entry.1 entry.2.path).getD Predeclared.universal)
    package := entry.1
    type := .unknown }

/-- The tables after imports have been declared, each by a file of a package. -/
structure Imports (entries : List (PackageId × Import)) (before after : Tables) : Prop where
  others : after = { before with packages := after.packages, symbols := after.symbols }
  more : MorePackages before after
  nodup : before.packages.toList.Nodup → after.packages.toList.Nodup
  /-- A package that is new stands for a path that leads to no package with sources. -/
  mem : ∀ info ∈ after.packages.toList, info ∈ before.packages.toList ∨
    ∃ entry ∈ entries, entry.2.path ≠ "sync" ∧
      sourceTarget? before entry.1 entry.2.path = none ∧ info = .foreign entry.2.path
  /-- Every path leads to a package. -/
  found : ∀ entry ∈ entries, (importTarget? after entry.1 entry.2.path).isSome = true
  /-- The entities say where the paths lead, in these tables and in later ones. -/
  symbols : ∀ final, MorePackages after final →
    after.symbols.toList = before.symbols.toList ++ entries.map (importEntity final)

theorem MorePackages.importTarget?_eq (more : MorePackages before after) {own target : PackageId}
    {path : String} (found : importTarget? before own path = some target) :
    importTarget? after own path = some target := by
  unfold importTarget? at found ⊢
  split
  · rwa [if_pos ‹_›] at found
  · rw [if_neg ‹_›] at found
    rw [more.sourceTarget?_eq]
    cases source : sourceTarget? before own path with
    | some package => rwa [source] at found
    | none =>
        rw [source, Option.none_or] at found
        rw [Option.none_or, more.externalPackage?_eq path found]

namespace Imports

variable {before middle after : Tables} {entries more : List (PackageId × Import)}

theorem refl (tables : Tables) : Imports [] tables tables where
  others := rfl
  more := .refl tables
  nodup := id
  mem _ := .inl
  found := nofun
  symbols _ _ := (List.append_nil _).symm

theorem trans (first : Imports entries before middle) (second : Imports more middle after) :
    Imports (entries ++ more) before after where
  others := by rw [second.others, first.others]
  more := first.more.trans second.more
  nodup := second.nodup ∘ first.nodup
  mem info listed := by
    rcases second.mem info listed with listed | ⟨entry, entry_mem, path, source, rfl⟩
    · refine (first.mem info listed).imp_right fun ⟨entry, entry_mem, foreign⟩ => ?_
      exact ⟨entry, List.mem_append_left _ entry_mem, foreign⟩
    · exact .inr ⟨entry, List.mem_append_right _ entry_mem, path,
        (first.more.sourceTarget?_eq _ _).symm.trans source, rfl⟩
  found entry listed := by
    rcases List.mem_append.mp listed with earlier | later
    · obtain ⟨target, found⟩ := Option.isSome_iff_exists.mp (first.found entry earlier)
      rw [second.more.importTarget?_eq found, Option.isSome_some]
    · exact second.found entry later
  symbols final further := by
    rw [second.symbols final further, first.symbols final (second.more.trans further),
      List.map_append, List.append_assoc]

end Imports

/-! ### One import -/

section Import

variable (own : PackageId) (tables : Tables)

theorem run_importTarget (path : String) : (importTarget own path).run tables =
    match importTarget? tables own path with
    | some target => (target, tables)
    | none => (tables.packages.size, (tables.addPackage (.foreign path)).2) := by
  have external : (externalPackage path).run tables = match externalPackage? tables path with
      | some target => (target, tables)
      | none => (tables.packages.size, (tables.addPackage (.foreign path)).2) := by
    change ((match externalPackage? tables path with
      | some package => (return package : Building PackageId)
      | none => newPackage (.foreign path)).run tables) = _
    cases externalPackage? tables path <;> rfl
  unfold importTarget importTarget? sourceTarget?
  split
  · rfl
  · change ((match sourcePackage? tables own (Import.lastSegment path) with
      | some package => if package = Predeclared.sync then externalPackage path else
          (return package : Building PackageId)
      | none => externalPackage path).run tables) = _
    cases sourcePackage? tables own (Import.lastSegment path) with
    | none => exact external
    | some package =>
        by_cases sync : package = Predeclared.sync
        · rw [sync, Option.filter_some_neg (by simp), Option.none_or]
          exact external
        · rw [Option.filter_some_pos (by simpa using sync), Option.some_or]
          simp only [sync]
          rfl

variable {own tables} {path : String}

theorem importTarget?_eq_none_iff : importTarget? tables own path = none ↔ path ≠ "sync" ∧
    sourceTarget? tables own path = none ∧ externalPackage? tables path = none := by
  unfold importTarget?
  split <;> simp_all

theorem morePackages_foreign (path : String) :
    MorePackages tables (tables.addPackage (.foreign path)).2 :=
  ⟨[.foreign path], Array.toList_push, fun _ listed => List.mem_singleton.mp listed ▸ rfl⟩

/-- A path that leads nowhere gets a package of its own. -/
theorem importTarget?_addPackage (missing : importTarget? tables own path = none) :
    importTarget? (tables.addPackage (.foreign path)).2 own path = some tables.packages.size := by
  obtain ⟨other, source, external⟩ := importTarget?_eq_none_iff.mp missing
  rw [importTarget?, if_neg other, (morePackages_foreign path).sourceTarget?_eq, source,
    Option.none_or, externalPackage?, Tables.addPackage, Array.findIdx?_push]
  rw [externalPackage?] at external
  simp [external, PackageInfo.foreign]

/-- A path without a package is not among those that have one. -/
theorem foreign_not_mem (missing : importTarget? tables own path = none) :
    .foreign path ∉ tables.packages.toList := by
  obtain ⟨-, -, external⟩ := importTarget?_eq_none_iff.mp missing
  rw [externalPackage?, Array.findIdx?_eq_none_iff] at external
  intro listed
  simpa [PackageInfo.foreign] using external _ (Array.mem_toList_iff.mp listed)

/-- The tables with the package that a path leads to. -/
theorem importTarget?_run (path : String) : importTarget? ((importTarget own path).run tables).2 own path =
    some ((importTarget own path).run tables).1 := by
  rw [run_importTarget]
  cases found : importTarget? tables own path with
  | some target => exact found
  | none => exact importTarget?_addPackage found

/-- The tables after one import. -/
theorem importTarget_imports (spec : Import) :
    let reached := ((importTarget own spec.path).run tables).2
    Imports [(own, spec)] tables (reached.addSymbol (importEntity reached (own, spec))).2 := by
  intro reached
  have found : importTarget? reached own spec.path = some _ := importTarget?_run spec.path
  have symbols (final : Tables) (further : MorePackages reached final) :
      (reached.addSymbol (importEntity reached (own, spec))).2.symbols.toList =
        reached.symbols.toList ++ [(own, spec)].map (importEntity final) := by
    have same : importEntity final (own, spec) = importEntity reached (own, spec) := by
      rw [importEntity, importEntity, further.importTarget?_eq found, found]
    rw [List.map_singleton, same]
    exact Array.toList_push
  have found_all : ∀ entry ∈ [(own, spec)], (importTarget? reached entry.1 entry.2.path).isSome =
      true := fun entry listed => by
    rw [List.mem_singleton.mp listed, found, Option.isSome_some]
  cases missing : importTarget? tables own spec.path with
  | some target =>
      have reached_eq : reached = tables := by
        simp only [reached, run_importTarget, missing]
      rw [reached_eq] at symbols found_all ⊢
      exact ⟨rfl, .refl tables, id, fun _ => .inl, found_all, symbols⟩
  | none =>
      have reached_eq : reached = (tables.addPackage (.foreign spec.path)).2 := by
        simp only [reached, run_importTarget, missing]
      rw [reached_eq] at symbols found_all ⊢
      obtain ⟨other, source, -⟩ := importTarget?_eq_none_iff.mp missing
      refine ⟨rfl, morePackages_foreign spec.path, Tables.nodup_addPackage (foreign_not_mem missing),
        fun info listed => ?_, found_all, symbols⟩
      refine (Tables.mem_addPackage.mp listed).imp_right fun same => ?_
      exact ⟨(own, spec), List.mem_singleton_self _, other, source, same⟩

theorem symbols_importTarget (path : String) :
    ((importTarget own path).run tables).2.symbols = tables.symbols := by
  rw [run_importTarget]
  cases importTarget? tables own path <;> rfl

end Import

/-! ### The imports of files -/

/-- Imports bind names to entities. -/
def bindImports (imports : Scope SymbolId) (specs : List Import) (ids : List SymbolId) :
    Scope SymbolId :=
  (specs.zip ids).foldl (fun imports entry => imports.insert entry.1.localName entry.2) imports

theorem run_declareImport_of_blank (blank : spec.isBlank = true) (own : PackageId)
    (imports : Scope SymbolId) (tables : Tables) :
    (declareImport own imports spec).run tables = (imports, tables) := by
  rw [Import.isBlank, decide_eq_true_eq] at blank
  rw [declareImport, if_pos blank]
  rfl

theorem run_declareImport (bound : spec.isBlank = false) (own : PackageId)
    (imports : Scope SymbolId) (tables : Tables) :
    let reached := ((importTarget own spec.path).run tables).2
    (declareImport own imports spec).run tables =
      (imports.insert spec.localName tables.symbols.size,
        (reached.addSymbol (importEntity reached (own, spec))).2) := by
  intro reached
  rw [Import.isBlank, decide_eq_false_iff_not] at bound
  have target : importTarget? reached own spec.path = some _ := importTarget?_run spec.path
  have size : reached.symbols.size = tables.symbols.size :=
    congrArg Array.size (symbols_importTarget spec.path)
  rw [declareImport, if_neg bound, importEntity, target, ← size]
  rfl

/-- The imports of a file bind their names to new entities. -/
theorem foldlM_imports (own : PackageId) (specs : List Import) (imports : Scope SymbolId)
    (tables : Tables) :
    let bound := specs.filter fun spec => !spec.isBlank
    let reached := (specs.foldlM (declareImport own) imports).run tables
    reached.1 = bindImports imports bound (List.range' tables.symbols.size bound.length) ∧
      Imports (bound.map (own, ·)) tables reached.2 := by
  induction specs generalizing imports tables with
  | nil => exact ⟨rfl, .refl tables⟩
  | cons spec specs ih =>
      intro bound reached
      have run : reached = (specs.foldlM (declareImport own)
          ((declareImport own imports spec).run tables).1).run
            ((declareImport own imports spec).run tables).2 := by
        simp only [reached, List.foldlM_cons]
        rfl
      cases blank : spec.isBlank with
      | true =>
          have bound_eq : bound = specs.filter fun spec => !spec.isBlank :=
            List.filter_cons_of_neg (by simp [blank])
          rw [run, run_declareImport_of_blank blank, bound_eq]
          exact ih imports tables
      | false =>
          have bound_eq : bound = spec :: specs.filter fun spec => !spec.isBlank :=
            List.filter_cons_of_pos (by simp [blank])
          rw [run, run_declareImport blank, bound_eq]
          have first := @importTarget_imports own tables spec
          obtain ⟨names, later⟩ := ih (imports.insert spec.localName tables.symbols.size) _
          refine ⟨names.trans ?_, first.trans later⟩
          have size := congrArg List.length (first.symbols _ (.refl _))
          simp only [Array.length_toList, List.length_append, List.length_map, List.length_singleton]
            at size
          rw [size]
          rfl

/-- Each item with its numbers, from the first number on. -/
def allotted {α : Type} (count : α → Nat) : Nat → List α → List (α × List Nat)
  | _, [] => []
  | start, item :: items =>
      (item, List.range' start (count item)) :: allotted count (start + count item) items

theorem map_fst_allotted {α : Type} (count : α → Nat) (start : Nat) (items : List α) :
    (allotted count start items).map Prod.fst = items := by
  induction items generalizing start with
  | nil => rfl
  | cons item items ih => rw [allotted, List.map_cons, ih]

/-- What items consist of, with the numbers of the parts. -/
theorem flatMap_allotted {α β : Type} {count : α → Nat} {parts : α → List β}
    (lengths : ∀ item, (parts item).length = count item)
    (start : Nat) (items : List α) :
    ((allotted count start items).flatMap fun entry => (parts entry.1).zip entry.2) =
      (items.flatMap parts).zipIdx start := by
  induction items generalizing start with
  | nil => rfl
  | cons item items ih =>
      have own : (parts item).zip (List.range' start (count item)) = (parts item).zipIdx start := by
        rw [List.zipIdx_eq_zip_range', lengths]
      rw [allotted, List.flatMap_cons, List.flatMap_cons, ih, List.zipIdx_append, lengths, own]

/-- What a file of a package sees, with the numbers of the entities that it imports. -/
def scopeOf (entry : (PackageId × File) × List SymbolId) : FileScope :=
  { package := entry.1.1, imports := bindImports ∅ entry.1.2.bound entry.2 }

/-- The imports of files, each with the package of the file. -/
def importsOf (items : List (PackageId × File)) : List (PackageId × Import) :=
  items.flatMap fun item => item.2.bound.map (item.1, ·)

theorem mapM_imports (items : List (PackageId × File)) (tables : Tables) :
    let reached := (items.mapM fun (own, file) => declareImports own file).run tables
    reached.1 = (allotted (fun item => item.2.bound.length) tables.symbols.size items).map scopeOf ∧
      Imports (importsOf items) tables reached.2 := by
  induction items generalizing tables with
  | nil => exact ⟨rfl, .refl tables⟩
  | cons item items ih =>
      intro reached
      obtain ⟨names, first⟩ := foldlM_imports item.1 item.2.imports ∅ tables
      have run : reached = ((⟨item.1, ((item.2.imports.foldlM (declareImport item.1) ∅).run tables).1⟩ ::
          ((items.mapM fun (own, file) => declareImports own file).run
            ((item.2.imports.foldlM (declareImport item.1) ∅).run tables).2).1),
          ((items.mapM fun (own, file) => declareImports own file).run
            ((item.2.imports.foldlM (declareImport item.1) ∅).run tables).2).2) := by
        simp only [reached, List.mapM_cons]
        rfl
      obtain ⟨later_names, later⟩ := ih ((item.2.imports.foldlM (declareImport item.1) ∅).run tables).2
      have size := congrArg List.length (first.symbols _ (.refl _))
      simp only [Array.length_toList, List.length_append, List.length_map] at size
      rw [run, allotted, List.map_cons, importsOf, List.flatMap_cons]
      refine ⟨?_, first.trans later⟩
      rw [later_names, names, size]
      rfl

end Resolution

/-! ## Whole programs -/

namespace Predeclared

theorem scope_isEmpty_all : ∀ info ∈ tables.packages.toList, info.scope.isEmpty = false := by
  decide +kernel

theorem own_not_mem (file : File) : .own file ∉ tables.packages.toList := by
  intro listed
  have filled := scope_isEmpty_all _ listed
  rw [PackageInfo.own, Std.TreeMap.isEmpty_emptyc] at filled
  cases filled

theorem packages_nodup : tables.packages.toList.Nodup :=
  List.Nodup.of_map PackageInfo.name (by decide +kernel)

theorem external_all : ∀ info ∈ tables.packages.toList, info.external = false := by
  decide +kernel

theorem packages_map_name : tables.packages.toList.map PackageInfo.name = ["", "sync"] := by
  decide +kernel

theorem universal_or_sync {package : PackageId} {info : PackageInfo}
    (found : tables.packages.toList[package]? = some info) :
    package = universal ∨ package = sync ∧ info.name = "sync" := by
  have name : (tables.packages.toList.map PackageInfo.name)[package]? = some info.name := by
    rw [List.getElem?_map, found, Option.map_some]
  rw [packages_map_name] at name
  clear found
  match package, name with
  | 0, _ => exact .inl rfl
  | 1, name => exact .inr ⟨rfl, (Option.some.inj name).symm⟩

end Predeclared

namespace Program

open Resolution

variable (program : Program) {item : PackageId × File} {package : PackageId} {info : PackageInfo}
  {file : File} {path : String}

/-- The packages before any import has been looked at. -/
def ownPackages : List PackageId × Tables :=
  (declarePackages [] program.files).run Predeclared.tables

/-- The number of packages before any import has been looked at. -/
def ownCount : Nat := program.ownPackages.2.packages.size

/-- The files with their packages. -/
def items : List (PackageId × File) := program.ownPackages.1.zip program.files

theorem grouped :
    Grouped program.files program.ownPackages.1 Predeclared.tables program.ownPackages.2 :=
  declarePackages_grouped ⟨by simp, fun file _ => Predeclared.own_not_mem file⟩ program.files

theorem map_snd_items : program.items.map Prod.snd = program.files :=
  List.map_snd_zip (Nat.le_of_eq program.grouped.homes.length_eq)

theorem imports : Imports (importsOf program.items) program.ownPackages.2 program.imported.2 :=
  (mapM_imports program.items program.ownPackages.2).2

theorem symbols_ownPackages : program.ownPackages.2.symbols = Predeclared.tables.symbols := by
  rw [program.grouped.others]

/-- The files with what they see. The imports of each have numbers one after the other. -/
theorem units_eq : program.units = (allotted (fun item => item.2.bound.length)
    Predeclared.tables.symbols.size program.items).map fun entry => (scopeOf entry, entry.1.2) := by
  have scopes : program.imported.1 = (allotted (fun item => item.2.bound.length)
      program.ownPackages.2.symbols.size program.items).map scopeOf :=
    (mapM_imports program.items program.ownPackages.2).1
  rw [program.symbols_ownPackages] at scopes
  have files : program.files = (allotted (fun item => item.2.bound.length)
      Predeclared.tables.symbols.size program.items).map fun entry => entry.1.2 := by
    rw [← program.map_snd_items, ← map_fst_allotted (fun item => item.2.bound.length)
      Predeclared.tables.symbols.size program.items, List.map_map, map_fst_allotted]
    rfl
  rw [units, scopes, files, List.zip_map']

/-- The entities of imports come after the predeclared ones. -/
theorem symbols_imported : program.imported.2.symbols.toList = Predeclared.tables.symbols.toList ++
    (importsOf program.items).map (importEntity program.imported.2) := by
  rw [program.imports.symbols _ (.refl _), symbols_ownPackages]

/-- Packages and imports add nothing else. -/
theorem imported_eq : program.imported.2 = { Predeclared.tables with
    packages := program.imported.2.packages, symbols := program.imported.2.symbols } := by
  rw [program.imports.others, program.grouped.others]

theorem selections_imported (node : NodeId) : program.imported.2.selections[node]? = none := by
  rw [program.imported_eq, Predeclared.selections_eq_none]

theorem receivers_imported (node : NodeId) : program.imported.2.receivers[node]? = none := by
  rw [program.imported_eq, Predeclared.receivers_eq_none]

theorem packages_nodup : program.imported.2.packages.toList.Nodup :=
  program.imports.nodup (program.grouped.nodup Predeclared.packages_nodup)

/-- Predeclared packages keep their numbers. -/
theorem packages_predeclared :
    Predeclared.tables.packages.toList <+: program.imported.2.packages.toList := by
  obtain ⟨more, split, -⟩ := program.imports.more
  exact program.grouped.more.trans ⟨more, split.symm⟩

/-- Each file has its package. -/
theorem home (listed : item ∈ program.items) :
    program.imported.2.packages[item.1]? = some (.own item.2) := by
  obtain ⟨more, split, -⟩ := program.imports.more
  have owned := (List.forall₂_iff_zip.mp program.grouped.homes.flip).2 listed
  exact getElem?_of_more ⟨more, split.symm⟩ owned

variable {program}

theorem package_injective {other : PackageId}
    (found : program.imported.2.packages[package]? = some info)
    (other_found : program.imported.2.packages[other]? = some info) : package = other := by
  rw [← Array.getElem?_toList] at found other_found
  exact (List.getElem?_inj (List.getElem?_eq_some_iff.mp found).1 program.packages_nodup).mp
    (found.trans other_found.symm)

theorem predeclared_or_sync (found : program.imported.2.packages[package]? = some info)
    (listed : info ∈ Predeclared.tables.packages.toList) :
    package = Predeclared.universal ∨ package = Predeclared.sync ∧ info.name = "sync" := by
  obtain ⟨index, earlier⟩ := List.getElem?_of_mem listed
  have later := getElem?_of_more program.packages_predeclared
    ((Array.getElem?_toList ..).symm.trans earlier)
  cases package_injective found later
  exact Predeclared.universal_or_sync earlier

/-- The packages of a program. -/
theorem mem_packages (listed : info ∈ program.imported.2.packages.toList) :
    info ∈ Predeclared.tables.packages.toList ∨ (∃ file ∈ program.files, info = .own file) ∨
      ∃ entry ∈ importsOf program.items, entry.2.path ≠ "sync" ∧
        sourceTarget? program.imported.2 entry.1 entry.2.path = none ∧ info = .foreign entry.2.path := by
  rcases program.imports.mem info listed with own | ⟨entry, entry_mem, path, source, rfl⟩
  · exact ((program.grouped.mem_iff info).mp own).imp_right .inl
  · exact .inr (.inr ⟨entry, entry_mem, path,
      (program.imports.more.sourceTarget?_eq _ _).trans source, rfl⟩)

theorem own_mem_packages (listed : file ∈ program.files) :
    .own file ∈ program.imported.2.packages.toList := by
  obtain ⟨more, split, -⟩ := program.imports.more
  rw [split]
  exact List.mem_append_left _ ((program.grouped.mem_iff _).mpr (.inr ⟨file, listed, rfl⟩))

/-- A package without sources is found by its path. -/
theorem externalPackage?_eq_some_iff :
    externalPackage? program.imported.2 path = some package ↔
      program.imported.2.packages[package]? = some (.foreign path) := by
  have of_found {package : PackageId} (found : externalPackage? program.imported.2 path = some package) :
      program.imported.2.packages[package]? = some (.foreign path) := by
    obtain ⟨below, external, -⟩ := Array.findIdx?_eq_some_iff_getElem.mp found
    rw [Bool.and_eq_true, beq_iff_eq] at external
    rw [Array.getElem?_eq_getElem below, Option.some_inj]
    rcases mem_packages (Array.mem_toList_iff.mpr (Array.getElem_mem below)) with
      predeclared | ⟨file, -, own⟩ | ⟨entry, -, -, -, foreign⟩
    · rw [Predeclared.external_all _ predeclared] at external
      cases external.1
    · rw [own] at external
      cases external.1
    · rw [foreign] at external ⊢
      exact congrArg _ external.2
  refine ⟨of_found, fun found => ?_⟩
  cases known : externalPackage? program.imported.2 path with
  | none =>
      have missing := Array.findIdx?_eq_none_iff.mp known _ (Array.mem_of_getElem? found)
      simp [PackageInfo.foreign] at missing
  | some other => rw [package_injective (of_found known) found]

/-- No two packages of files have the same name. -/
def OneName (program : Program) : Prop :=
  ∀ file ∈ program.files, ∀ other ∈ program.files, file.package = other.package → file.dir = other.dir

/-- The packages of files come after the predeclared ones. -/
theorem sync_lt_of_own (found : program.imported.2.packages[package]? = some (.own file)) :
    Predeclared.sync < package := by
  by_contra early
  have below : package < Predeclared.tables.packages.size :=
    Nat.lt_of_le_of_lt (Nat.le_of_not_lt early) Predeclared.housed.predeclared
  obtain ⟨info, earlier⟩ : ∃ info, Predeclared.tables.packages[package]? = some info :=
    ⟨_, Array.getElem?_eq_getElem below⟩
  have same : info = .own file := Option.some.inj
    ((getElem?_of_more program.packages_predeclared earlier).symm.trans found)
  refine Predeclared.own_not_mem file (Array.mem_toList_iff.mpr ?_)
  exact same ▸ Array.mem_of_getElem? earlier

theorem own_of_candidate {own : PackageId} {name : String}
    (candidate : Candidate program.imported.2 own name package) :
    package = Predeclared.sync ∧ name = "sync" ∨ ∃ file ∈ program.files, file.package = name ∧
      program.imported.2.packages[package]? = some (.own file) := by
  obtain ⟨info, found, sources, rfl, -, other⟩ := candidate
  rcases mem_packages (Array.mem_toList_iff.mpr (Array.mem_of_getElem? found)) with
    predeclared | ⟨file, listed, rfl⟩ | ⟨entry, -, -, -, rfl⟩
  · exact .inl ((predeclared_or_sync found predeclared).resolve_left other)
  · exact .inr ⟨file, listed, rfl, found⟩
  · cases sources

theorem candidate_sync {own : PackageId} (other : Predeclared.sync ≠ own) :
    Candidate program.imported.2 own "sync" Predeclared.sync := by
  obtain ⟨info, earlier⟩ : ∃ info, Predeclared.tables.packages[Predeclared.sync]? = some info :=
    ⟨_, Array.getElem?_eq_getElem Predeclared.housed.predeclared⟩
  have listed := Array.mem_toList_iff.mpr (Array.mem_of_getElem? earlier)
  have named := (Predeclared.universal_or_sync ((Array.getElem?_toList ..).trans earlier)).resolve_left
    (by decide)
  exact ⟨info, getElem?_of_more program.packages_predeclared earlier,
    Predeclared.external_all info listed, named.2, other, by decide⟩

/-- What is found is a package with sources of the name, and not the importing one. -/
theorem of_sourceTarget? (listed : item ∈ program.items)
    (found : sourceTarget? program.imported.2 item.1 path = some package) :
    Import.lastSegment path ≠ "sync" ∧ package ≠ item.1 ∧
      ∃ file ∈ program.files, file.package = Import.lastSegment path ∧
        program.imported.2.packages[package]? = some (.own file) := by
  rw [sourceTarget?, Option.filter_eq_some_iff, bne_iff_ne] at found
  obtain ⟨found, other⟩ := found
  obtain ⟨candidate, first⟩ := sourcePackage?_eq_some found
  obtain ⟨file, file_mem, named, own⟩ :=
    (own_of_candidate candidate).resolve_left fun sync => other sync.1
  refine ⟨fun sync => ?_, candidate.choose_spec.2.2.2.1, file, file_mem, named, own⟩
  rw [sync] at first
  exact first _ (sync_lt_of_own own)
    (candidate_sync (Nat.ne_of_lt (sync_lt_of_own (program.home listed))))

/-- Where there is another package with sources of a name, one is found, unless package `sync` has the
name. -/
theorem exists_sourceTarget? {own : PackageId} (not_sync : Import.lastSegment path ≠ "sync")
    (other : package ≠ own) (named : file.package = Import.lastSegment path)
    (found : program.imported.2.packages[package]? = some (.own file)) :
    ∃ first, sourceTarget? program.imported.2 own path = some first := by
  have candidate : Candidate program.imported.2 own (Import.lastSegment path) package :=
    ⟨_, found, rfl, named, other, Nat.ne_of_gt (Nat.lt_of_le_of_lt (Nat.zero_le _) (sync_lt_of_own found))⟩
  obtain ⟨first, first_found⟩ := exists_sourcePackage? candidate
  obtain ⟨another, -, -, another_own⟩ :=
    (own_of_candidate (sourcePackage?_eq_some first_found).1).resolve_left fun sync => not_sync sync.2
  refine ⟨first, ?_⟩
  rw [sourceTarget?, Option.filter_eq_some_iff, bne_iff_ne]
  exact ⟨first_found, Nat.ne_of_gt (sync_lt_of_own another_own)⟩

/-- Where names of packages are unique, a package with sources of a name is found, unless package
`sync` has the name. -/
theorem sourceTarget?_eq_some_iff (one : program.OneName) (listed : item ∈ program.items) :
    sourceTarget? program.imported.2 item.1 path = some package ↔
      Import.lastSegment path ≠ "sync" ∧ package ≠ item.1 ∧
        ∃ file ∈ program.files, file.package = Import.lastSegment path ∧
          program.imported.2.packages[package]? = some (.own file) := by
  refine ⟨of_sourceTarget? listed, ?_⟩
  rintro ⟨not_sync, other, file, file_mem, named, own⟩
  obtain ⟨first, found⟩ := exists_sourceTarget? not_sync other named own
  obtain ⟨-, -, another, another_mem, another_named, another_own⟩ := of_sourceTarget? listed found
  have same : PackageInfo.own another = .own file := PackageInfo.own_eq_iff.mpr (by
    rw [one another another_mem file file_mem (another_named.trans named.symm),
      another_named, named])
  rw [same] at another_own
  cases package_injective another_own own
  exact found

/-- The path leads from a file to no other package with sources. -/
def Strays (program : Program) (file : File) (path : String) : Prop :=
  path ≠ "sync" ∧ (Import.lastSegment path = "sync" ∨ ∀ other ∈ program.files,
    other.package = Import.lastSegment path → PackageInfo.own other = .own file)

theorem strays_iff (one : program.OneName) (listed : item ∈ program.items) :
    program.Strays item.2 path ↔
      path ≠ "sync" ∧ sourceTarget? program.imported.2 item.1 path = none := by
  refine and_congr_right fun _ => ?_
  rw [Option.eq_none_iff_forall_ne_some]
  constructor
  · intro strays package found
    obtain ⟨not_sync, other, file, file_mem, named, own⟩ :=
      (sourceTarget?_eq_some_iff one listed).mp found
    have same := strays.resolve_left not_sync file file_mem named
    exact other (package_injective (own.trans (congrArg some same)) (program.home listed))
  · intro missing
    by_contra elsewhere
    rw [not_or] at elsewhere
    obtain ⟨not_sync, elsewhere⟩ := elsewhere
    simp only [not_forall] at elsewhere
    obtain ⟨file, file_mem, named, different⟩ := elsewhere
    obtain ⟨package, found⟩ := List.getElem?_of_mem (own_mem_packages file_mem)
    rw [Array.getElem?_toList] at found
    refine missing package ((sourceTarget?_eq_some_iff one listed).mpr
      ⟨not_sync, fun same => different ?_, file, file_mem, named, found⟩)
    rw [same, program.home listed] at found
    exact (Option.some.inj found).symm

/-- The packages of a program do not depend on the order of its files. -/
theorem mem_packages_iff (one : program.OneName) :
    info ∈ program.imported.2.packages.toList ↔ info ∈ Predeclared.tables.packages.toList ∨
      (∃ file ∈ program.files, info = .own file) ∨
      ∃ file ∈ program.files, ∃ spec ∈ file.bound, program.Strays file spec.path ∧
        info = .foreign spec.path := by
  have of_item {item : PackageId × File} (listed : item ∈ program.items) : item.2 ∈ program.files :=
    program.map_snd_items ▸ List.mem_map_of_mem listed
  constructor
  · intro listed
    refine (mem_packages listed).imp_right (Or.imp_right ?_)
    rintro ⟨entry, entry_mem, path, source, rfl⟩
    obtain ⟨item, item_mem, entry_mem⟩ := List.mem_flatMap.mp entry_mem
    obtain ⟨spec, spec_mem, rfl⟩ := List.mem_map.mp entry_mem
    exact ⟨item.2, of_item item_mem, spec, spec_mem, (strays_iff one item_mem).mpr ⟨path, source⟩, rfl⟩
  · rintro (predeclared | ⟨file, file_mem, rfl⟩ | ⟨file, file_mem, spec, spec_mem, strays, rfl⟩)
    · exact program.packages_predeclared.subset predeclared
    · exact own_mem_packages file_mem
    · rw [← program.map_snd_items] at file_mem
      obtain ⟨item, item_mem, rfl⟩ := List.mem_map.mp file_mem
      obtain ⟨path, source⟩ := (strays_iff one item_mem).mp strays
      obtain ⟨package, found⟩ := Option.isSome_iff_exists.mp (program.imports.found (item.1, spec)
        (List.mem_flatMap.mpr ⟨item, item_mem, List.mem_map_of_mem spec_mem⟩))
      rw [importTarget?, if_neg path, source, Option.none_or, externalPackage?_eq_some_iff] at found
      exact Array.mem_toList_iff.mpr (Array.mem_of_getElem? found)

end Program

end Relock
