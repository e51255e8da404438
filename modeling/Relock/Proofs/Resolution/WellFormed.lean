import Relock.Proofs.Resolution.Coherence
import Relock.Proofs.Sample

/-!
# Well-formed tables

Names, selectors, scopes and types lead to entities by number, and entities and types lead to
packages in the same way. In the tables of a program every such number is in use, and the entity it
leads to is what the place it was found in says: the member of a package has that name and that
package, the method of a type has that type as the base of its receiver, and so on. No declaration
of a program can break this, be it repeated, misplaced or of unknown types.
-/

namespace Relock

namespace Tables

/-- A named type belongs to a package and leads to its methods, fields and what it asks for. -/
structure Describes (tables : Tables) (ref : NamedRef) (type : NamedType) : Prop where
  package : ref.package < tables.packages.size
  underlying : type.underlying.isWithin tables.packages.size = true
  methods : ∀ (name : String) id, type.methods[name]? = some id →
    ∃ symbol receiver, tables.symbol? id = some symbol ∧ symbol.name = name ∧
      symbol.kind = .method receiver ∧ receiver.base = .named ref
  fields : ∀ fields, type.underlying = .struct fields → ∀ field ∈ fields,
    ∃ symbol, tables.symbol? field.symbol = some symbol ∧ symbol.name = field.name ∧
      symbol.kind = .field
  requirements : ∀ methods, type.underlying = .interface methods →
    ∀ (name : String) id, methods[name]? = some id →
      ∃ symbol, tables.symbol? id = some symbol ∧ symbol.name = name ∧
        symbol.kind = .interfaceMethod (.named ref)

/-- All numbers in the tables are in use, and what they lead to is as the tables say. -/
structure WellFormed (tables : Tables) : Prop where
  uses : ∀ (node : NodeId) id, tables.uses[node]? = some id → id < tables.symbols.size
  selections : ∀ (node : NodeId) id, tables.selections[node]? = some id → id < tables.symbols.size
  symbols : ∀ id symbol, tables.symbol? id = some symbol →
    symbol.isWithin tables.packages.size = true
  receivers : ∀ (node : NodeId) type, tables.receivers[node]? = some type →
    type.isWithin tables.packages.size = true
  scopes : ∀ (package : PackageId) info, tables.packages[package]? = some info →
    ∀ (name : String) id, info.scope[name]? = some id →
      ∃ symbol, tables.symbol? id = some symbol ∧ symbol.name = name ∧ symbol.package = package
  named : ∀ (ref : NamedRef) type, tables.named[ref]? = some type → tables.Describes ref type

variable {tables : Tables}

theorem symbol?_of_entity? {id : SymbolId} {name : String} {kind : SymbolKind}
    {package : PackageId} (known : tables.entity? id = some ⟨name, kind, package⟩) :
    ∃ symbol, tables.symbol? id = some symbol ∧ symbol.name = name ∧ symbol.kind = kind ∧
      symbol.package = package := by
  obtain ⟨symbol, found, same⟩ := Option.map_eq_some_iff.mp known
  cases same
  exact ⟨symbol, found, rfl, rfl, rfl⟩

theorem Reachable.lt_size {id : SymbolId} (reachable : tables.Reachable id) :
    id < tables.symbols.size := by
  obtain ⟨entity, known, -⟩ := reachable
  exact lt_size_of_entity? known

theorem Forms.describes {ref : NamedRef} {type : NamedType} (forms : tables.Forms ref type)
    (housed : tables.Housed) (found : tables.named[ref]? = some type) :
    tables.Describes ref type where
  package := (housed.within.named ref type found).1
  underlying := (housed.within.named ref type found).2
  methods name id listed := by
    obtain ⟨receiver, package, known, named⟩ := forms.methods name id listed
    obtain ⟨symbol, symbol_eq, name_eq, kind_eq, -⟩ := symbol?_of_entity? known
    exact ⟨symbol, receiver, symbol_eq, name_eq, kind_eq, TypeRef.base_of_named? named⟩
  fields fields underlying field member := by
    have made := forms.underlying
    rw [underlying] at made
    obtain ⟨package, known⟩ := made field member
    obtain ⟨symbol, symbol_eq, name_eq, kind_eq, -⟩ := symbol?_of_entity? known
    exact ⟨symbol, symbol_eq, name_eq, kind_eq⟩
  requirements methods underlying name id listed := by
    have made := forms.underlying
    rw [underlying] at made
    obtain ⟨package, known⟩ := made name id listed
    obtain ⟨symbol, symbol_eq, name_eq, kind_eq, -⟩ := symbol?_of_entity? known
    exact ⟨symbol, symbol_eq, name_eq, kind_eq⟩

end Tables

namespace Resolution

variable {program : Program} {units : List (FileScope × File)} {declared : Tables}
  {final : Resolving}

variable (run : Runs program units declared final)
include run

theorem Runs.wellFormed : final.tables.WellFormed where
  uses node id found := by
    obtain ⟨entity, known⟩ := run.sound.refers.known node id found
    exact Tables.lt_size_of_entity? known
  selections node id found := (run.sound.refers.selection node id found).lt_size
  symbols := run.housed.within.symbol
  receivers := run.housed.within.receiver
  scopes package info info_eq name id listed := by
    have found : final.tables.lookup package name = some id := by
      rw [Tables.lookup, info_eq]
      exact listed
    obtain ⟨kind, known, -⟩ := run.sound.coherent.member package name id found
    obtain ⟨symbol, symbol_eq, name_eq, -, package_eq⟩ := Tables.symbol?_of_entity? known
    exact ⟨symbol, symbol_eq, name_eq, package_eq⟩
  named ref type found := (run.sound.coherent.named ref type found).describes run.housed found

/-- Resolution keeps all that is predeclared. -/
theorem Runs.grows : Predeclared.tables.Extends final.tables := by
  have keeps (before after : Resolving) (step : StepIn units program.marks before after)
      (earlier : Predeclared.tables.Extends before.tables) :
      Predeclared.tables.Extends after.tables := earlier.trans step.grows
  exact kept_of_steps keeps run.steps (grows_of_changes run.changes)

/-- Every file has a package. -/
theorem Runs.exists_label {file : File} (member : file ∈ program.files) :
    ∃ package, final.tables.label? package = some (file.dir, file.package) := by
  rw [← run.files, List.mem_map] at member
  obtain ⟨unit, unit_mem, rfl⟩ := member
  exact ⟨unit.1.package, (run.sound.sees unit unit_mem).owns.2⟩

end Resolution

namespace Program

/-- The tables of every program are well formed, and they hold what is predeclared and the package
of every file. -/
theorem resolve_wellFormed (program : Program) :
    program.resolve.WellFormed ∧ Predeclared.tables.Extends program.resolve ∧
      ∀ file ∈ program.files, ∃ package,
        program.resolve.label? package = some (file.dir, file.package) := by
  obtain ⟨units, declared, final, run⟩ := Resolution.exists_runs program
  rw [run.tables_eq]
  exact ⟨run.wellFormed, run.grows, fun file member => run.exists_label member⟩

/-- A type that is declared twice, as a structure and as an interface, and its method. All that a
number can be given to has the same one. -/
def redeclaringFile : File :=
  ⟨0, "p.go", "p", ".", [⟨none, "sync"⟩],
    [.type ⟨Sample.name 0 "S",
        .struct [⟨[Sample.name 0 "mu"], .qualified "sync" "RWMutex"⟩], .zero⟩,
      .func ⟨⟨0, 0⟩, Sample.name 0 "Run", some ⟨some (Sample.name 0 "s"), .pointer (.name "S")⟩, [],
        none, some ⟨[.expr (.ident (Sample.name 0 "s"))], .zero⟩, .zero⟩,
      .type ⟨Sample.name 0 "S", .interface [Sample.name 0 "Run"], .zero⟩]⟩

def redeclaring : Program := ⟨[redeclaringFile]⟩

theorem redeclaring_wellFormed :
    redeclaringFile ∈ redeclaring.files ∧ ¬ redeclaring.UniqueIds ∧
      redeclaring.resolve.isInterface (.named ⟨2, "S"⟩) = true ∧
      (redeclaring.resolve.named[NamedRef.mk 2 "S"]?.any (·.methods.contains "Run")) = true ∧
      redeclaring.resolve.WellFormed ∧ Predeclared.tables.Extends redeclaring.resolve ∧
        ∃ package, redeclaring.resolve.label? package = some (".", "p") := by
  obtain ⟨wellFormed, grown, labelled⟩ := resolve_wellFormed redeclaring
  have member : redeclaringFile ∈ redeclaring.files := List.mem_cons_self
  refine ⟨member, ?_, by decide +kernel, by decide +kernel, wellFormed, grown, labelled _ member⟩
  unfold UniqueIds
  decide +kernel

end Program

end Relock
