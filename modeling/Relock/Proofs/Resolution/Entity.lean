import Relock.Resolution.Program

/-!
# What tables keep

Resolution adds entities and packages to its tables and never takes one away. The type of an entity
may become known late; its name, its kind and its package stay as they are, and so do the name and
the path of a package.
-/

namespace Relock

section Entries

variable {α β : Type} [Ord α] [Std.TransOrd α] [Std.LawfulEqOrd α] {table : Std.TreeMap α β}
  {key other : α} {value found : β}

/-- What is found in a table with a new entry is that entry or was there before. -/
theorem found_of_insert (lookup : (table.insert key value)[other]? = some found) :
    (key = other ∧ value = found) ∨ table[other]? = some found := by
  rw [Std.TreeMap.getElem?_insert] at lookup
  split at lookup
  · rename_i same
    exact .inl ⟨Std.LawfulEqOrd.eq_of_compare same, Option.some.inj lookup⟩
  · exact .inr lookup

theorem found_of_modify {change : β → β} (lookup : (table.modify key change)[other]? = some found) :
    (key = other ∧ ∃ old, table[key]? = some old ∧ change old = found) ∨
      table[other]? = some found := by
  rw [Std.TreeMap.getElem?_modify] at lookup
  split at lookup
  · rename_i same
    exact .inl ⟨Std.LawfulEqOrd.eq_of_compare same, Option.map_eq_some_iff.mp lookup⟩
  · exact .inr lookup

end Entries

/-- An entity apart from its type. -/
structure Entity where
  name : String
  kind : SymbolKind
  package : PackageId
deriving DecidableEq

namespace SymbolKind

/-- Functions and methods have declarations that calls of them run. -/
def isCallable : SymbolKind → Bool
  | func | method _ => true
  | _ => false

end SymbolKind

namespace Symbol

/-- The entity apart from its type. -/
def entity (symbol : Symbol) : Entity := ⟨symbol.name, symbol.kind, symbol.package⟩

end Symbol

namespace Tables

variable (tables : Tables)

/-- The entity with a number, apart from its type. -/
def entity? (id : SymbolId) : Option Entity := (tables.symbol? id).map Symbol.entity

/-- The path and the name of a package. -/
def label? (id : PackageId) : Option (String × String) :=
  tables.packages[id]?.map fun info => (info.path, info.name)

theorem symbol?_addSymbol (symbol : Symbol) (id : SymbolId) :
    (tables.addSymbol symbol).2.symbol? id =
      if id = tables.symbols.size then some symbol else tables.symbol? id := by
  simp only [symbol?, addSymbol, Array.getElem?_push]

theorem entity?_addSymbol (symbol : Symbol) (id : SymbolId) :
    (tables.addSymbol symbol).2.entity? id =
      if id = tables.symbols.size then some symbol.entity else tables.entity? id := by
  simp only [entity?, symbol?, addSymbol, Array.getElem?_push]
  split <;> rfl

@[simp]
theorem entity?_setType (changed id : SymbolId) (type : TypeRef) :
    (tables.setType changed type).entity? id = tables.entity? id := by
  simp only [entity?, symbol?, setType, Array.getElem?_modify]
  split
  · rw [Option.map_map]
    rfl
  · rfl

theorem label?_addPackage (info : PackageInfo) (id : PackageId) :
    (tables.addPackage info).2.label? id =
      if id = tables.packages.size then some (info.path, info.name) else tables.label? id := by
  simp only [label?, addPackage, Array.getElem?_push]
  split <;> rfl

@[simp]
theorem label?_bind (package : PackageId) (name : String) (symbol : SymbolId) (id : PackageId) :
    (tables.bind package name symbol).label? id = tables.label? id := by
  simp only [label?, bind, Array.getElem?_modify]
  split
  · rw [Option.map_map]
    rfl
  · rfl

variable {tables}

theorem lt_size_of_entity? {id : SymbolId} {entity : Entity}
    (known : tables.entity? id = some entity) : id < tables.symbols.size := by
  obtain ⟨symbol, found, -⟩ := Option.map_eq_some_iff.mp known
  exact (Array.getElem?_eq_some_iff.mp found).1

theorem lt_size_of_label? {id : PackageId} {label : String × String}
    (known : tables.label? id = some label) : id < tables.packages.size := by
  obtain ⟨info, found, -⟩ := Option.map_eq_some_iff.mp known
  exact (Array.getElem?_eq_some_iff.mp found).1

/-- Later tables know the entities and packages of earlier ones. -/
structure Extends (before after : Tables) : Prop where
  entity : ∀ id entity, before.entity? id = some entity → after.entity? id = some entity
  label : ∀ id label, before.label? id = some label → after.label? id = some label

namespace Extends

theorem refl (tables : Tables) : tables.Extends tables := ⟨fun _ _ => id, fun _ _ => id⟩

theorem trans {before middle after : Tables} (first : before.Extends middle)
    (second : middle.Extends after) : before.Extends after where
  entity id entity known := second.entity id entity (first.entity id entity known)
  label id label known := second.label id label (first.label id label known)

theorem packages_le {before after : Tables} (growth : before.Extends after) :
    before.packages.size ≤ after.packages.size := by
  apply Nat.le_of_not_lt
  intro fewer
  have known := growth.label after.packages.size _
    (congrArg (Option.map _) (Array.getElem?_eq_getElem fewer))
  exact Nat.lt_irrefl _ (lt_size_of_label? known)

theorem addSymbol (tables : Tables) (symbol : Symbol) :
    tables.Extends (tables.addSymbol symbol).2 where
  entity id entity known := by
    have old := lt_size_of_entity? known
    rw [entity?_addSymbol, if_neg (Nat.ne_of_lt old), known]
  label _ _ := id

theorem addPackage (tables : Tables) (info : PackageInfo) :
    tables.Extends (tables.addPackage info).2 where
  entity _ _ := id
  label id label known := by
    have old := lt_size_of_label? known
    rw [label?_addPackage, if_neg (Nat.ne_of_lt old), known]

theorem bind (tables : Tables) (package : PackageId) (name : String) (symbol : SymbolId) :
    tables.Extends (tables.bind package name symbol) where
  entity _ _ := id
  label id label known := by rw [label?_bind, known]

theorem setType (tables : Tables) (symbol : SymbolId) (type : TypeRef) :
    tables.Extends (tables.setType symbol type) where
  entity id entity known := by rw [entity?_setType, known]
  label _ _ := id

/-- Only entities and packages matter. -/
theorem of_eq {before after : Tables} (symbols : before.symbols = after.symbols)
    (packages : before.packages = after.packages) : before.Extends after where
  entity id entity known := by
    unfold entity? symbol? at known ⊢
    rwa [← symbols]
  label id label known := by
    unfold label? at known ⊢
    rwa [← packages]

end Extends

end Tables

end Relock
