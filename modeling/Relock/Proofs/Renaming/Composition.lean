import Relock.Proofs.Renaming.Growth

/-!
# One renaming after the other

Tables match themselves, and a renaming after another one is a renaming. So tables that say the same
under other numbers can be compared in several steps.
-/

namespace Relock

namespace Renaming

/-- All numbers stay. -/
def refl : Renaming where
  file := id
  package := id
  symbol := id
  file_injective := Function.injective_id
  package_injective := Function.injective_id
  symbol_injective := Function.injective_id
  universal := rfl

/-- The numbers that the second gives to those of the first. -/
def trans (first second : Renaming) : Renaming where
  file := second.file ∘ first.file
  package := second.package ∘ first.package
  symbol := second.symbol ∘ first.symbol
  file_injective := second.file_injective.comp first.file_injective
  package_injective := second.package_injective.comp first.package_injective
  symbol_injective := second.symbol_injective.comp first.symbol_injective
  universal := by rw [Function.comp_apply, first.universal, second.universal]

theorem Continues.refl (moved : Renaming) (size : Nat) : moved.Continues moved size :=
  ⟨rfl, rfl, fun _ _ => rfl⟩

theorem Continues.mono {more moved : Renaming} {size smaller : Nat}
    (continues : more.Continues moved size) (le : smaller ≤ size) : more.Continues moved smaller :=
  ⟨continues.file, continues.package, fun id old => continues.symbol id (Nat.lt_of_lt_of_le old le)⟩

/-- What changes only new numbers does not matter before another renaming. -/
theorem Continues.trans {inner moved : Renaming} {size : Nat} (continues : inner.Continues .refl size) :
    (inner.trans moved).Continues moved size where
  file := congrArg (moved.file ∘ ·) continues.file
  package := congrArg (moved.package ∘ ·) continues.package
  symbol id old := congrArg moved.symbol (continues.symbol id old)

end Renaming

/-! ## Types and entities -/

theorem TypeRef.rename_refl (type : TypeRef) : type.rename .refl = type := by
  induction type with
  | named ref => rfl
  | pointer target ih => rw [TypeRef.rename, ih]
  | funcOf result ih => rw [TypeRef.rename, ih]
  | func | basic | unknown => rfl

theorem Symbol.rename_refl (symbol : Symbol) : symbol.rename .refl = symbol := by
  obtain ⟨name, kind, package, type, decl⟩ := symbol
  have kind_eq : kind.rename .refl = kind := by
    cases kind with
    | method receiver | interfaceMethod interface => rw [SymbolKind.rename, TypeRef.rename_refl]
    | _ => rfl
  have decl_eq : decl.map (NodeId.renumber Renaming.refl.file) = decl := by
    cases decl <;> rfl
  rw [Symbol.rename, kind_eq, TypeRef.rename_refl, decl_eq]
  rfl

theorem Scope.renamed_refl (scope : Scope SymbolId) : Scope.Renamed .refl scope scope :=
  fun _ => Option.map_id_apply.symm

theorem Underlying.renamed_refl (underlying : Underlying) : underlying.Renamed .refl underlying := by
  cases underlying with
  | struct fields =>
      have same : FieldInfo.rename .refl = id := funext fun field => by
        rw [FieldInfo.rename, TypeRef.rename_refl]
        rfl
      rw [Underlying.Renamed, same, List.map_id]
  | interface methods => exact Scope.renamed_refl methods
  | other type => exact (TypeRef.rename_refl type).symm

/-- Where only the numbers of entities change, types stay as they are. -/
theorem Renaming.Continues.rename_type {moved : Renaming} {size : Nat}
    (continues : moved.Continues .refl size) (type : TypeRef) : type.rename moved = type :=
  (continues.type_eq type).trans type.rename_refl

theorem Renaming.Continues.rename_symbol {moved : Renaming} {size : Nat}
    (continues : moved.Continues .refl size) (symbol : Symbol) : symbol.rename moved = symbol :=
  (continues.symbol_rename_eq symbol).trans symbol.rename_refl

section Twice

variable (first second : Renaming)

theorem TypeRef.rename_rename (type : TypeRef) :
    (type.rename first).rename second = type.rename (first.trans second) := by
  induction type with
  | named ref => rfl
  | pointer target ih | funcOf result ih => rw [TypeRef.rename, TypeRef.rename, TypeRef.rename, ih]
  | func | basic | unknown => rfl

theorem Symbol.rename_rename (symbol : Symbol) :
    (symbol.rename first).rename second = symbol.rename (first.trans second) := by
  have kind : (symbol.kind.rename first).rename second =
      symbol.kind.rename (first.trans second) := by
    cases symbol.kind <;> simp [SymbolKind.rename, TypeRef.rename_rename, Renaming.trans]
  have decl : (symbol.decl.map (NodeId.renumber first.file)).map (NodeId.renumber second.file) =
      symbol.decl.map (NodeId.renumber (first.trans second).file) := Option.map_map _ _ _
  rw [Symbol.rename, Symbol.rename, Symbol.rename, kind, decl, TypeRef.rename_rename]
  rfl

end Twice

variable {first second : Renaming}

theorem Scope.Renamed.trans {left middle right : Scope SymbolId}
    (earlier : Scope.Renamed first left middle) (later : Scope.Renamed second middle right) :
    Scope.Renamed (first.trans second) left right := fun name => by
  rw [later name, earlier name, Option.map_map]
  rfl

theorem Underlying.Renamed.trans {left middle right : Underlying}
    (earlier : left.Renamed first middle) (later : middle.Renamed second right) :
    left.Renamed (first.trans second) right := by
  cases left <;> cases middle <;> try exact earlier.elim
  all_goals cases right <;> try exact later.elim
  case struct.struct.struct fields others further =>
    have others_eq : others = fields.map (FieldInfo.rename first) := earlier
    have further_eq : further = others.map (FieldInfo.rename second) := later
    rw [Underlying.Renamed, further_eq, others_eq, List.map_map]
    refine List.map_congr_left fun field _ => ?_
    rw [Function.comp_apply, FieldInfo.rename, FieldInfo.rename, FieldInfo.rename,
      TypeRef.rename_rename]
    rfl
  case interface.interface.interface => exact Scope.Renamed.trans earlier later
  case other.other.other type another further =>
    have another_eq : another = type.rename first := earlier
    have further_eq : further = another.rename second := later
    rw [Underlying.Renamed, further_eq, another_eq, TypeRef.rename_rename]

/-! ## Tables -/

namespace Tables

theorem Matches.refl {view : View} {tables : Tables}
    (fresh : ∀ count, view.typed (tables.symbols.size + count))
    (types : ∀ id symbol, tables.symbol? id = some symbol → symbol.kind = .typeName →
      view.typed id) : tables.Matches .refl view tables where
  next _ := rfl
  fresh := fresh
  shape id := by simp only [Symbol.rename_refl]; rfl
  typeOf id _ := (TypeRef.rename_refl _).symm
  types := types
  lookup _ _ _ := Option.map_id_apply.symm
  uses _ _ := Option.map_id_apply.symm
  selections _ _ := Option.map_id_apply.symm
  receivers node _ := by
    have same : TypeRef.rename .refl = id := funext TypeRef.rename_refl
    rw [same]
    exact Option.map_id_apply.symm
  named _ _ := rfl
  underlying ref type other _ found other_found := by
    cases found.symm.trans other_found
    exact Underlying.renamed_refl type.underlying
  methods ref type other name _ found other_found := by
    cases found.symm.trans other_found
    exact Option.map_id_apply.symm

theorem Matches.trans {left middle right : Tables} (earlier : left.Matches first {} middle)
    (later : middle.Matches second {} right) : left.Matches (first.trans second) {} right := by
  have symbols (id : SymbolId) : right.symbol? ((first.trans second).symbol id) =
      (left.symbol? id).map (Symbol.rename (first.trans second)) := by
    have renamed : Symbol.rename (first.trans second) = Symbol.rename second ∘ Symbol.rename first :=
      funext fun symbol => (symbol.rename_rename first second).symm
    rw [renamed, ← Option.map_map, ← earlier.symbol?_eq trivial]
    exact later.symbol?_eq trivial
  have types : TypeRef.rename (first.trans second) = TypeRef.rename second ∘ TypeRef.rename first :=
    funext fun type => (type.rename_rename first second).symm
  exact
  { next := fun count => (congrArg second.symbol (earlier.next count)).trans (later.next count)
    fresh := fun _ => trivial
    shape := fun id => by
      rw [symbols, Option.map_map]
      rfl
    typeOf := fun id _ => by
      rw [Tables.typeOf, Tables.typeOf, symbols]
      cases left.symbol? id <;> rfl
    types := fun _ _ _ _ => trivial
    lookup := fun package name _ => by
      have found := later.lookup (first.package package) name trivial
      rw [earlier.lookup package name trivial, Option.map_map] at found
      exact found
    uses := fun node _ => by
      have found := later.uses (node.renumber first.file) trivial
      rw [earlier.uses node trivial, Option.map_map] at found
      exact found
    selections := fun node _ => by
      have found := later.selections (node.renumber first.file) trivial
      rw [earlier.selections node trivial, Option.map_map] at found
      exact found
    receivers := fun node _ => by
      have found := later.receivers (node.renumber first.file) trivial
      rw [earlier.receivers node trivial, Option.map_map] at found
      rw [types]
      exact found
    named := fun ref _ => (later.named (ref.rename first) trivial).trans (earlier.named ref trivial)
    underlying := fun ref type other _ found other_found => by
      obtain ⟨between, between_found⟩ := earlier.exists_named trivial found
      exact (earlier.underlying ref type between trivial found between_found).trans
        (later.underlying _ between other trivial between_found other_found)
    methods := fun ref type other name _ found other_found => by
      obtain ⟨between, between_found⟩ := earlier.exists_named trivial found
      rw [later.methods _ between other name trivial between_found other_found,
        earlier.methods ref type between name trivial found between_found, Option.map_map]
      rfl }

/-- The tables say the same. Only entities with numbers from the given one on may have other
numbers. -/
def Same (size : Nat) (left right : Tables) : Prop :=
  ∃ moved : Renaming, moved.Continues .refl size ∧ left.Matches moved {} right

namespace Same

variable {size : Nat} {left middle right : Tables}

theorem refl (size : Nat) (tables : Tables) : Same size tables tables :=
  ⟨.refl, .refl .refl size, .refl (fun _ => trivial) fun _ _ _ _ => trivial⟩

/-- Tables that say the same match the same tables, under renamings that differ in new numbers. -/
theorem exists_matches (same : Same size left middle) {moved : Renaming}
    (matching : middle.Matches moved {} right) :
    ∃ more : Renaming, more.Continues moved size ∧ left.Matches more {} right := by
  obtain ⟨inner, continues, earlier⟩ := same
  exact ⟨inner.trans moved, continues.trans, earlier.trans matching⟩

theorem trans (earlier : Same size left middle) (later : Same size middle right) :
    Same size left right := by
  obtain ⟨moved, continues, matching⟩ := later
  obtain ⟨more, more_continues, both⟩ := earlier.exists_matches matching
  refine ⟨more, ⟨?_, ?_, fun id old => ?_⟩, both⟩
  · exact more_continues.file.trans continues.file
  · exact more_continues.package.trans continues.package
  · exact (more_continues.symbol id old).trans (continues.symbol id old)

theorem mono (same : Same size left right) {smaller : Nat} (le : smaller ≤ size) :
    Same smaller left right := by
  obtain ⟨moved, continues, matching⟩ := same
  exact ⟨moved, continues.mono le, matching⟩

end Same

end Tables

end Relock
