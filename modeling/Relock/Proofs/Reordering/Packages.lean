import Relock.Proofs.Renaming.Rounds
import Relock.Proofs.Reordering.Files

/-!
# Packages and imports in another order

When the files of a program come in another order, its packages and the entities of imports get other
numbers. If no two packages of files have the same name, each import still leads to the same package.
-/

namespace Relock

open Resolution

/-- Where the second parts determine the first ones, pairs are in another order if the second parts
are. -/
theorem perm_of_map_snd {α β : Type} {items others : List (α × β)}
    (determined : ∀ item ∈ items, ∀ other ∈ others, item.2 = other.2 → item.1 = other.1)
    (order : (items.map Prod.snd).Perm (others.map Prod.snd)) : items.Perm others := by
  induction items generalizing others with
  | nil =>
      rw [List.map_nil, List.nil_perm, List.map_eq_nil_iff] at order
      rw [order]
  | cons item items ih =>
      rw [List.forall_mem_cons] at determined
      obtain ⟨other, other_mem, same⟩ := List.mem_map.mp (order.subset List.mem_cons_self)
      have same : other = item := Prod.ext (determined.1 other other_mem same.symm).symm same
      rw [same] at other_mem
      obtain ⟨before, after, rfl⟩ := List.append_of_mem other_mem
      have rest : (items.map Prod.snd).Perm ((before ++ after).map Prod.snd) := by
        rw [List.map_append, List.map_cons] at order
        rw [List.map_append]
        exact (order.trans List.perm_middle).cons_inv
      refine ((ih (fun one listed other other_listed => ?_) rest).cons item).trans
        List.perm_middle.symm
      exact determined.2 one listed other
        (List.mem_append.mpr ((List.mem_append.mp other_listed).imp_right (List.mem_cons_of_mem _)))

theorem Predeclared.bounded : Predeclared.tables.Bounded :=
  Predeclared.coherent.bounded (Predeclared.refers [])

theorem bindImports_renamed {moved : Renaming} {imports others : Scope SymbolId}
    (renamed : Scope.Renamed moved imports others) (specs : List Import) (ids : List SymbolId) :
    Scope.Renamed moved (bindImports imports specs ids)
      (bindImports others specs (ids.map moved.symbol)) := by
  induction specs generalizing imports others ids with
  | nil => exact renamed
  | cons spec specs ih =>
      cases ids with
      | nil => exact renamed
      | cons id ids => exact ih (renamed.insert spec.localName id) ids

namespace Program

variable {program other : Program} {file : Nat → Nat}

namespace Reordered

variable (order : program.Reordered other file)
include order

theorem oneName (one : program.OneName) : other.OneName := by
  rw [OneName, order.forall_iff]
  intro source listed
  rw [order.forall_iff]
  exact one source listed

theorem packages_perm (one : program.OneName) :
    program.imported.2.packages.toList.Perm other.imported.2.packages.toList := by
  rw [List.perm_ext_iff_of_nodup program.packages_nodup other.packages_nodup]
  intro info
  rw [mem_packages_iff one, mem_packages_iff (order.oneName one)]
  refine or_congr_right (or_congr (order.exists_iff (fun source => info = .own source)).symm ?_)
  rw [order.exists_iff]
  refine exists_congr fun source => and_congr_right fun _ => exists_congr fun spec => ?_
  refine and_congr_right fun _ => and_congr_left fun _ => and_congr_right fun _ => ?_
  exact or_congr_right (order.forall_iff fun another =>
    another.package = Import.lastSegment spec.path → PackageInfo.own another = .own source).symm

end Reordered

/-- The second program has the same packages under other numbers. -/
structure Rearranged (program other : Program) (file : Nat → Nat) (package : Equiv.Perm Nat) :
    Prop where
  order : program.Reordered other file
  one : program.OneName
  packages : ∀ id, other.imported.2.packages[package id]? = program.imported.2.packages[id]?

theorem Reordered.exists_rearranged (order : program.Reordered other file) (one : program.OneName) :
    ∃ package, program.Rearranged other file package := by
  obtain ⟨package, renumbers⟩ := @exists_renumbers _ (fun _ => 1) _ _ (order.packages_perm one) 0
  refine ⟨package, order, one, fun id => ?_⟩
  have same := renumbers.getElem?_eq (fun info => [info]) (fun _ => rfl) (Nat.zero_le id)
  simpa using same

namespace Rearranged

variable {package : Equiv.Perm Nat} (same : program.Rearranged other file package)
include same

/-- Predeclared packages keep their numbers. -/
theorem fixed {id : PackageId} (predeclared : id < Predeclared.tables.packages.size) :
    package id = id := by
  have earlier := Array.getElem?_eq_getElem predeclared
  exact package_injective
    ((same.packages id).trans (getElem?_of_more program.packages_predeclared earlier))
    (getElem?_of_more other.packages_predeclared earlier)

theorem universal : package Predeclared.universal = Predeclared.universal :=
  same.fixed (Nat.lt_trans Nat.zero_lt_one Predeclared.housed.predeclared)

theorem items_perm : (program.items.map fun item => (package item.1, item.2.renumber file)).Perm
    other.items := by
  refine perm_of_map_snd (fun item listed another another_mem files => ?_) ?_
  · obtain ⟨item, item_mem, rfl⟩ := List.mem_map.mp listed
    refine package_injective ?_ (other.home another_mem)
    rw [same.packages, program.home item_mem, ← files]
    rfl
  · have order := same.order
    rw [Reordered, ← program.map_snd_items, ← other.map_snd_items] at order
    simpa [Function.comp_def] using order

/-- The imports of a file lead to the same packages. -/
theorem importTarget?_eq {item : PackageId × File} (listed : item ∈ program.items) (path : String) :
    importTarget? other.imported.2 (package item.1) path =
      (importTarget? program.imported.2 item.1 path).map package := by
  have moved : (package item.1, item.2.renumber file) ∈ other.items :=
    same.items_perm.subset (List.mem_map_of_mem listed)
  have source : sourceTarget? other.imported.2 (package item.1) path =
      (sourceTarget? program.imported.2 item.1 path).map package := by
    ext id
    obtain ⟨id, rfl⟩ := package.surjective id
    rw [Option.map_eq_some_iff, sourceTarget?_eq_some_iff (same.order.oneName same.one) moved,
      package.injective.ne_iff, same.order.exists_iff, same.packages]
    simp only [package.injective.eq_iff, exists_eq_right]
    exact (sourceTarget?_eq_some_iff same.one listed).symm
  have external : externalPackage? other.imported.2 path =
      (externalPackage? program.imported.2 path).map package := by
    ext id
    obtain ⟨id, rfl⟩ := package.surjective id
    rw [Option.map_eq_some_iff, externalPackage?_eq_some_iff, same.packages]
    simp only [package.injective.eq_iff, exists_eq_right]
    exact externalPackage?_eq_some_iff.symm
  unfold importTarget?
  split
  · exact congrArg some (same.fixed Predeclared.housed.predeclared).symm
  · rw [source, external]
    cases sourceTarget? program.imported.2 item.1 path <;> rfl

/-- Numbers that the files, packages and entities have in the second program. -/
def moved (injective : Function.Injective file) (symbol : Equiv.Perm Nat) : Renaming where
  file := file
  package := package
  symbol := symbol
  file_injective := injective
  package_injective := package.injective
  symbol_injective := symbol.injective
  universal := same.universal

section Entities

variable (injective : Function.Injective file) {symbol : Equiv.Perm Nat}
  (renumbers : Renumbers (fun item => item.2.bound.length) Predeclared.tables.symbols.size
    (program.items.map fun item => (package item.1, item.2.renumber file)) other.items symbol)

omit renumbers in
theorem importEntity_eq {item : PackageId × File} (listed : item ∈ program.items) (spec : Import) :
    importEntity other.imported.2 (package item.1, spec) =
      (importEntity program.imported.2 (item.1, spec)).rename (same.moved injective symbol) := by
  have target : (importTarget? other.imported.2 (package item.1) spec.path).getD
      Predeclared.universal = package ((importTarget? program.imported.2 item.1 spec.path).getD
        Predeclared.universal) := by
    rw [same.importTarget?_eq listed]
    cases importTarget? program.imported.2 item.1 spec.path with
    | none => exact same.universal.symm
    | some target => rfl
  rw [importEntity, importEntity, target]
  rfl

omit renumbers in
theorem rename_predeclared {entity : Symbol} (listed : entity ∈ Predeclared.tables.symbols.toList) :
    entity.rename (same.moved injective symbol) = entity := by
  refine Symbol.rename_of_isWithin (fun _ => same.fixed) ?_ (Predeclared.isWithin_all entity listed)
  rw [Predeclared.decl_eq_none_all entity listed, Option.map_none]

include renumbers

/-- Entities correspond. -/
theorem symbol?_eq (id : SymbolId) : other.imported.2.symbol? (symbol id) =
    (program.imported.2.symbol? id).map (Symbol.rename (same.moved injective symbol)) := by
  have toList (tables : Tables) (id : SymbolId) : tables.symbol? id = tables.symbols.toList[id]? :=
    (Array.getElem?_toList ..).symm
  rw [toList, toList, program.symbols_imported, other.symbols_imported]
  by_cases predeclared : id < Predeclared.tables.symbols.size
  · have below : id < Predeclared.tables.symbols.toList.length := by simpa using predeclared
    rw [renumbers.below id predeclared, List.getElem?_append_left below,
      List.getElem?_append_left below, List.getElem?_eq_getElem below, Option.map_some,
      same.rename_predeclared injective (List.getElem_mem below)]
  · have new : Predeclared.tables.symbols.size ≤ id := Nat.le_of_not_lt predeclared
    have later := renumbers.le_moved new
    let parts (item : PackageId × File) : List Symbol :=
      item.2.bound.map fun spec => importEntity other.imported.2 (item.1, spec)
    have here : (importsOf other.items).map (importEntity other.imported.2) =
        other.items.flatMap parts := by
      simp [importsOf, List.map_flatMap, parts, Function.comp_def]
    have there : (program.items.map fun item => (package item.1, item.2.renumber file)).flatMap parts =
        ((importsOf program.items).map (importEntity program.imported.2)).map
          (Symbol.rename (same.moved injective symbol)) := by
      rw [importsOf, List.map_flatMap, List.map_flatMap, List.flatMap_map]
      refine List.flatMap_congr fun item listed => ?_
      rw [List.map_map, List.map_map]
      exact List.map_congr_left fun spec _ => same.importEntity_eq injective listed spec
    rw [List.getElem?_append_right (by simpa using later),
      List.getElem?_append_right (by simpa using new),
      Array.length_toList, here, renumbers.getElem?_eq parts (fun item => List.length_map _) new,
      there, List.getElem?_map]

omit renumbers in
theorem ref_rename {ref : NamedRef} {type : NamedType}
    (found : Predeclared.tables.named[ref]? = some type) :
    ref.rename (same.moved injective symbol) = ref := by
  have package_eq : (same.moved injective symbol).package ref.package = ref.package :=
    same.fixed (Predeclared.housed.within.named ref type found).1
  rw [NamedRef.rename, package_eq]

omit renumbers in
theorem contains_rename (ref : NamedRef) :
    Predeclared.tables.named.contains (ref.rename (same.moved injective symbol)) =
      Predeclared.tables.named.contains ref := by
  by_cases predeclared : ref.package < Predeclared.tables.packages.size
  · have package_eq : (same.moved injective symbol).package ref.package = ref.package :=
      same.fixed predeclared
    rw [NamedRef.rename, package_eq]
  · have later : ¬package ref.package < Predeclared.tables.packages.size := fun below =>
      predeclared (package.injective (same.fixed below) ▸ below)
    have missing {ref : NamedRef} (new : ¬ref.package < Predeclared.tables.packages.size) :
        Predeclared.tables.named[ref]? = none :=
      Option.eq_none_iff_forall_ne_some.mpr fun type found =>
        new (Predeclared.housed.within.named ref type found).1
    rw [Std.TreeMap.contains_eq_isSome_getElem?, Std.TreeMap.contains_eq_isSome_getElem?,
      missing predeclared, missing later]

/-- The members of packages are the predeclared ones. -/
theorem lookup_eq (id : PackageId) (name : String) : other.imported.2.lookup (package id) name =
    (program.imported.2.lookup id name).map symbol := by
  rw [Tables.lookup, Tables.lookup, same.packages]
  cases found : program.imported.2.packages[id]? with
  | none => rfl
  | some info =>
      dsimp only
      rcases mem_packages (Array.mem_toList_iff.mpr (Array.mem_of_getElem? found)) with
        predeclared | ⟨source, -, rfl⟩ | ⟨entry, -, -, -, rfl⟩
      · cases member : info.scope[name]? with
        | none => rfl
        | some id =>
            obtain ⟨index, earlier⟩ := List.getElem?_of_mem predeclared
            rw [Array.getElem?_toList] at earlier
            have declared : Predeclared.tables.lookup index name = some id := by
              rw [Tables.lookup, earlier]
              exact member
            exact congrArg some (renumbers.below id
              (Predeclared.bounded.lookup index name id declared)).symm
      · rfl
      · rfl

omit same in
theorem symbol_next (count : Nat) : symbol (program.imported.2.symbols.size + count) =
    other.imported.2.symbols.size + count := by
  have size (program : Program) : program.imported.2.symbols.size =
      Predeclared.tables.symbols.size + (program.items.map fun item => item.2.bound.length).sum := by
    have lengths := congrArg List.length program.symbols_imported
    simpa [importsOf, List.length_flatMap, Function.comp_def] using lengths
  have total : (other.items.map fun item => item.2.bound.length).sum =
      (program.items.map fun item => item.2.bound.length).sum := by
    rw [← (renumbers.perm.map fun item => item.2.bound.length).sum_nat, List.map_map]
    rfl
  rw [size program, size other, total]
  exact renumbers.beyond _ (by simp [Function.comp_def, File.bound, File.renumber])

theorem renamed_predeclared {ref : NamedRef} {type : NamedType}
    (found : Predeclared.tables.named[ref]? = some type) :
    type.underlying.Renamed (same.moved injective symbol) type.underlying := by
  let still := same.moved injective (Equiv.refl Nat)
  have continues : (same.moved injective symbol).Continues still Predeclared.tables.symbols.size :=
    ⟨rfl, rfl, renumbers.below⟩
  refine continues.underlying (Predeclared.bounded.underlying ref type found) ?_
  exact Underlying.renamed_of_isWithin (fun _ => same.fixed) rfl
    (Predeclared.housed.within.named ref type found).2

/-- What is known after imports is the same under other numbers. -/
theorem imported_matches :
    program.imported.2.Matches (same.moved injective symbol) {} other.imported.2 := by
  have symbols := same.symbol?_eq injective renumbers
  have left : program.imported.2.named = Predeclared.tables.named := by rw [program.imported_eq]
  have right : other.imported.2.named = Predeclared.tables.named := by rw [other.imported_eq]
  exact
  { next := symbol_next renumbers
    fresh := fun _ => trivial
    shape := fun id => by
      change (other.imported.2.symbol? (symbol id)).map _ = _
      rw [symbols, Option.map_map]
      rfl
    typeOf := fun id _ => by
      change other.imported.2.typeOf (symbol id) = _
      rw [Tables.typeOf, Tables.typeOf, symbols]
      cases program.imported.2.symbol? id <;> rfl
    types := fun _ _ _ _ => trivial
    lookup := fun id name _ => same.lookup_eq renumbers id name
    uses := fun node _ => by rw [other.uses_imported, program.uses_imported, Option.map_none]
    selections := fun node _ => by
      rw [other.selections_imported, program.selections_imported, Option.map_none]
    receivers := fun node _ => by
      rw [other.receivers_imported, program.receivers_imported, Option.map_none]
    named := fun ref _ => by
      rw [left, right]
      exact same.contains_rename injective ref
    underlying := fun ref type another _ found another_found => by
      rw [left] at found
      rw [right, same.ref_rename injective found] at another_found
      obtain rfl : type = another := Option.some.inj (found.symm.trans another_found)
      exact same.renamed_predeclared injective renumbers found
    methods := fun ref type another name _ found another_found => by
      rw [left] at found
      rw [right, same.ref_rename injective found] at another_found
      obtain rfl : type = another := Option.some.inj (found.symm.trans another_found)
      cases method : type.methods[name]? with
      | none => rfl
      | some id =>
          exact congrArg some (renumbers.below id
            (Predeclared.bounded.methods ref type name id found method)).symm }

/-- What files see corresponds, in some order. -/
theorem exists_units : ∃ units, units.Perm program.units ∧
    List.Forall₂ (UnitMatches (same.moved injective symbol)) units other.units := by
  let entries := allotted (fun item => item.2.bound.length) Predeclared.tables.symbols.size
    program.items
  let corresponding (entry : (PackageId × File) × List SymbolId) : FileScope × File :=
    (scopeOf ((package entry.1.1, entry.1.2.renumber file), entry.2.map symbol),
      entry.1.2.renumber file)
  have pairs : List.Forall₂ (UnitMatches (same.moved injective symbol)) program.units
      (entries.map corresponding) := by
    rw [program.units_eq, List.forall₂_map_left_iff, List.forall₂_map_right_iff, List.forall₂_same]
    exact fun entry _ => ⟨⟨rfl, bindImports_renamed Scope.renamed_empty _ _⟩, rfl⟩
  have arranged : other.units.Perm (entries.map corresponding) := by
    have numbers := renumbers.numbers.map fun entry => (scopeOf entry, entry.1.2)
    rw [allotted_map, List.map_map, List.map_map] at numbers
    rw [other.units_eq]
    exact numbers.symm
  obtain ⟨units, matching, order⟩ := List.perm_comp_forall₂ arranged pairs.flip
  exact ⟨units, order, matching.flip⟩

end Entities

/-- The packages of files exist in the second program as well. -/
theorem package_lt {unit : FileScope × File} (listed : unit ∈ program.units) :
    package unit.1.package < other.imported.2.packages.size := by
  have found := Array.getElem?_eq_getElem (program.lt_size_of_mem_units listed)
  exact (Array.getElem?_eq_some_iff.mp ((same.packages _).trans found)).1

end Rearranged

end Program

end Relock
