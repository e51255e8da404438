import Relock.Proofs.Program.Renumber
import Relock.Proofs.Resolution.Entity
import Relock.Proofs.Symbol.Member
import Relock.Resolution.Program

/-!
# Tables under other numbers

Two resolutions may give different numbers to the same files, packages and entities. A renaming says
which numbers correspond, and two tables match when what the first says of some thing is what the
second says of the corresponding one. What is compared is up to a view: two tables in the middle of
resolution agree on some of their entries and not yet on others.
-/

namespace Relock

/-- Other numbers for files, packages and entities. -/
structure Renaming where
  file : Nat → Nat
  package : PackageId → PackageId
  symbol : SymbolId → SymbolId
  file_injective : Function.Injective file
  package_injective : Function.Injective package
  symbol_injective : Function.Injective symbol
  /-- The universe stays where it is. -/
  universal : package Predeclared.universal = Predeclared.universal

variable (moved : Renaming)

/-! ## Types and entities -/

namespace NamedRef

/-- The named type under its new number. -/
def rename (ref : NamedRef) : NamedRef := ⟨moved.package ref.package, ref.name⟩

theorem rename_injective : Function.Injective (rename moved) := by
  rintro ⟨left, name⟩ ⟨right, other⟩ same
  simp only [rename, NamedRef.mk.injEq] at same
  rw [moved.package_injective same.1, same.2]

end NamedRef

namespace TypeRef

/-- The type with the new numbers of its packages. -/
def rename : TypeRef → TypeRef
  | named ref => named (ref.rename moved)
  | pointer target => pointer target.rename
  | func => func
  | funcOf result => funcOf result.rename
  | basic name => basic name
  | unknown => unknown

@[simp]
theorem rename_unknown : unknown.rename moved = unknown := rfl

theorem base_rename (type : TypeRef) : (type.rename moved).base = type.base.rename moved := by
  induction type with
  | pointer target ih => exact ih
  | _ => rfl

theorem named?_rename (type : TypeRef) :
    (type.rename moved).named? = type.named?.map (NamedRef.rename moved) := by
  rw [named?, named?, base_rename]
  cases type.base <;> rfl

@[simp]
theorem isUnknown_rename (type : TypeRef) : (type.rename moved).isUnknown = type.isUnknown := by
  cases type <;> rfl

theorem ofResult_map (result : Option TypeRef) :
    ofResult (result.map (rename moved)) = (ofResult result).rename moved := by
  cases result <;> rfl

end TypeRef

namespace SymbolKind

/-- The kind with the new numbers of its packages. -/
def rename : SymbolKind → SymbolKind
  | method receiver => method (receiver.rename moved)
  | interfaceMethod interface => interfaceMethod (interface.rename moved)
  | package target => package (moved.package target)
  | var scope => var scope
  | field => field
  | func => func
  | builtin => builtin
  | typeName => typeName

end SymbolKind

namespace Symbol

/-- The entity with new numbers. -/
def rename (symbol : Symbol) : Symbol where
  name := symbol.name
  kind := symbol.kind.rename moved
  package := moved.package symbol.package
  type := symbol.type.rename moved
  decl := symbol.decl.map (NodeId.renumber moved.file)

/-- The entity without its type. -/
def untyped (symbol : Symbol) : Symbol := { symbol with type := .unknown }

variable {left right : Symbol} (same : left.untyped = right.untyped)
include same

theorem kind_eq_of_untyped : left.kind = right.kind := (congrArg Symbol.kind same :)

theorem package_eq_of_untyped : left.package = right.package := (congrArg Symbol.package same :)

theorem eq_of_untyped (type : left.type = right.type) : left = right := by
  cases left
  cases right
  simp_all [untyped]

end Symbol

namespace FieldInfo

/-- The field with new numbers. -/
def rename (field : FieldInfo) : FieldInfo :=
  ⟨field.name, moved.symbol field.symbol, field.type.rename moved, field.embedded⟩

end FieldInfo

/-- The scopes declare the same names, with new numbers for what they mean. -/
def Scope.Renamed (left right : Scope SymbolId) : Prop :=
  ∀ name : String, right[name]? = left[name]?.map moved.symbol

namespace Scope

variable {moved}

theorem renamed_empty : Renamed moved ∅ ∅ := fun name => by simp

theorem Renamed.insert {left right : Scope SymbolId} (renamed : Renamed moved left right)
    (name : String) (id : SymbolId) :
    Renamed moved (left.insert name id) (right.insert name (moved.symbol id)) := by
  intro other
  rw [Std.TreeMap.getElem?_insert, Std.TreeMap.getElem?_insert, renamed other]
  split <;> rfl

end Scope

/-- The named types are made of the same, with new numbers. -/
def Underlying.Renamed : Underlying → Underlying → Prop
  | struct fields, struct others => others = fields.map (FieldInfo.rename moved)
  | interface methods, interface others => Scope.Renamed moved methods others
  | other type, other another => another = type.rename moved
  | _, _ => False

namespace NamedType

/-- The named types have the same members, with new numbers. -/
structure Renamed (left right : NamedType) : Prop where
  underlying : left.underlying.Renamed moved right.underlying
  methods : Scope.Renamed moved left.methods right.methods

variable {moved} {left right : NamedType}

theorem Renamed.member? (renamed : Renamed moved left right) (name : String) :
    right.member? name = (left.member? name).map moved.symbol := by
  have underlying := renamed.underlying
  rw [NamedType.member?, NamedType.member?, renamed.methods name]
  cases left.methods[name]? with
  | some method => rfl
  | none =>
      revert underlying
      cases left.underlying <;> cases right.underlying <;> intro underlying <;>
        try exact underlying.elim
      case struct fields others =>
        cases underlying
        simp [List.find?_map, Function.comp_def, FieldInfo.rename]
      case interface methods others => exact underlying name
      case other => rfl

theorem Renamed.embedded (renamed : Renamed moved left right) :
    right.embedded = left.embedded.map (NamedRef.rename moved) := by
  have underlying := renamed.underlying
  rw [NamedType.embedded, NamedType.embedded]
  revert underlying
  cases left.underlying <;> cases right.underlying <;> intro underlying <;>
    try exact underlying.elim
  case struct fields others =>
    cases underlying
    simp [List.filter_map, List.filterMap_map, List.map_filterMap, Function.comp_def,
      FieldInfo.rename, TypeRef.named?_rename]
  case interface => rfl
  case other => rfl

end NamedType

/-- The tables have the same named types, with new numbers. -/
def NamedRenamed (left right : Std.TreeMap NamedRef NamedType) : Prop :=
  ∀ ref : NamedRef, (left[ref]? = none ∧ right[ref.rename moved]? = none) ∨
    ∃ type other, left[ref]? = some type ∧ right[ref.rename moved]? = some other ∧
      type.Renamed moved other

namespace NamedRenamed

variable {moved} {left right : Std.TreeMap NamedRef NamedType}

variable (renamed : NamedRenamed moved left right)
include renamed

theorem contains (ref : NamedRef) : right.contains (ref.rename moved) = left.contains ref := by
  rw [Std.TreeMap.contains_eq_isSome_getElem?, Std.TreeMap.contains_eq_isSome_getElem?]
  rcases renamed ref with ⟨missing, other_missing⟩ | ⟨type, other, found, other_found, -⟩
  · rw [missing, other_missing]
  · rw [found, other_found]
    rfl

theorem erase (ref : NamedRef) :
    NamedRenamed moved (left.erase ref) (right.erase (ref.rename moved)) := by
  intro other
  rw [Std.TreeMap.getElem?_erase, Std.TreeMap.getElem?_erase]
  by_cases same : ref = other
  · simp [same]
  · have apart : ref.rename moved ≠ other.rename moved :=
      fun equal => same (NamedRef.rename_injective moved equal)
    simpa [Std.LawfulEqCmp.compare_eq_iff_eq, same, apart] using renamed other

/-- A search for a member that has room for all named types finds what corresponds. -/
theorem searchMember (name : String) {leftBudget rightBudget : Nat}
    (left_lt : left.size < leftBudget) (right_lt : right.size < rightBudget)
    (waiting : List NamedRef) :
    Tables.searchMember name rightBudget right (waiting.map (NamedRef.rename moved)) =
      (Tables.searchMember name leftBudget left waiting).map moved.symbol := by
  induction leftBudget generalizing rightBudget left right waiting with
  | zero => omega
  | succ leftBudget ih =>
      obtain _ | rightBudget := rightBudget
      · omega
      have dropped : (waiting.map (NamedRef.rename moved)).dropWhile
          (fun ref => !right.contains ref) =
            (waiting.dropWhile fun ref => !left.contains ref).map (NamedRef.rename moved) := by
        rw [List.dropWhile_map]
        simp [Function.comp_def, renamed.contains]
      rw [Tables.searchMember, Tables.searchMember, dropped]
      cases waiting.dropWhile fun ref => !left.contains ref with
      | nil => rfl
      | cons ref rest =>
          simp only [List.map_cons]
          rcases renamed ref with ⟨missing, other_missing⟩ |
            ⟨type, other, found, other_found, alike⟩
          · simp [missing, other_missing]
          · simp only [found, other_found, alike.member?]
            cases type.member? name with
            | some member => rfl
            | none =>
                rw [Option.map_none]
                simp only
                rw [alike.embedded, ← List.map_append]
                exact ih (renamed.erase ref) (Tables.size_erase_lt found left_lt)
                  (Tables.size_erase_lt other_found right_lt) _

end NamedRenamed

/-! ## Tables -/

/-- What is compared of two tables. -/
structure View where
  /-- The constructs whose records are compared. -/
  node : NodeId → Prop := fun _ => True
  /-- The entities whose types are compared. -/
  typed : SymbolId → Prop := fun _ => True
  /-- The names of which it is compared what they mean in a package, and whether they name a
  type. -/
  member : PackageId → String → Prop := fun _ _ => True
  /-- The named types of which it is compared what they are made of. -/
  underlying : NamedRef → Prop := fun _ => True
  /-- The methods of named types that are compared. -/
  method : NamedRef → String → Prop := fun _ _ => True

/-- Of all packages and named types everything is compared. -/
structure View.Full (view : View) : Prop where
  member : ∀ package name, view.member package name
  underlying : ∀ ref, view.underlying ref
  method : ∀ ref name, view.method ref name

theorem View.full_all : View.Full {} :=
  ⟨fun _ _ => trivial, fun _ => trivial, fun _ _ => trivial⟩

namespace Tables

/-- What the first tables say of a thing, the second say of the thing with the corresponding
number. -/
structure Matches (view : View) (left right : Tables) : Prop where
  /-- The next numbers correspond. -/
  next : ∀ count, moved.symbol (left.symbols.size + count) = right.symbols.size + count
  fresh : ∀ count, view.typed (left.symbols.size + count)
  shape : ∀ id, (right.symbol? (moved.symbol id)).map Symbol.untyped =
    (left.symbol? id).map fun symbol => (symbol.rename moved).untyped
  typeOf : ∀ id, view.typed id →
    right.typeOf (moved.symbol id) = (left.typeOf id).rename moved
  types : ∀ id symbol, left.symbol? id = some symbol → symbol.kind = .typeName → view.typed id
  lookup : ∀ package name, view.member package name →
    right.lookup (moved.package package) name = (left.lookup package name).map moved.symbol
  uses : ∀ node, view.node node →
    right.uses[node.renumber moved.file]? = left.uses[node]?.map moved.symbol
  selections : ∀ node, view.node node →
    right.selections[node.renumber moved.file]? = left.selections[node]?.map moved.symbol
  receivers : ∀ node, view.node node → right.receivers[node.renumber moved.file]? =
    left.receivers[node]?.map (TypeRef.rename moved)
  named : ∀ ref : NamedRef, view.member ref.package ref.name →
    right.named.contains (ref.rename moved) = left.named.contains ref
  underlying : ∀ (ref : NamedRef) type other, view.underlying ref → left.named[ref]? = some type →
    right.named[ref.rename moved]? = some other →
      type.underlying.Renamed moved other.underlying
  methods : ∀ (ref : NamedRef) type other (name : String), view.method ref name →
    left.named[ref]? = some type → right.named[ref.rename moved]? = some other →
      other.methods[name]? = type.methods[name]?.map moved.symbol

namespace Matches

variable {moved} {view : View} {left right : Tables} (same : Matches moved view left right)
include same

/-! ### Entities -/

theorem symbol?_eq_none {id : SymbolId} (missing : left.symbol? id = none) :
    right.symbol? (moved.symbol id) = none := by
  have shape := same.shape id
  rw [missing] at shape
  simpa using shape

/-- To an entity an entity corresponds that differs in its type at most. -/
theorem exists_symbol? {id : SymbolId} {symbol : Symbol} (found : left.symbol? id = some symbol) :
    ∃ other, right.symbol? (moved.symbol id) = some other ∧
      other.untyped = (symbol.rename moved).untyped := by
  have shape := same.shape id
  rw [found, Option.map_some, Option.map_eq_some_iff] at shape
  exact shape

theorem symbol?_eq {id : SymbolId} (typed : view.typed id) :
    right.symbol? (moved.symbol id) = (left.symbol? id).map (Symbol.rename moved) := by
  cases found : left.symbol? id with
  | none => exact same.symbol?_eq_none found
  | some symbol =>
      obtain ⟨other, other_found, untyped⟩ := same.exists_symbol? found
      have type := same.typeOf id typed
      rw [Tables.typeOf, Tables.typeOf, found, other_found] at type
      rw [other_found, Option.map_some, Symbol.eq_of_untyped untyped type]

theorem typeNamed?_eq (id : SymbolId) :
    right.typeNamed? (moved.symbol id) =
      (left.typeNamed? id).map (TypeRef.rename moved) := by
  rw [Tables.typeNamed?, Tables.typeNamed?]
  cases found : left.symbol? id with
  | none => simp [same.symbol?_eq_none found]
  | some symbol =>
      by_cases kind : symbol.kind = .typeName
      · rw [same.symbol?_eq (same.types id symbol found kind), found]
        simp [Symbol.rename, kind, SymbolKind.rename]
      · obtain ⟨other, other_found, untyped⟩ := same.exists_symbol? found
        have other_kind : other.kind = symbol.kind.rename moved := Symbol.kind_eq_of_untyped untyped
        have renamed_kind : symbol.kind.rename moved ≠ .typeName := by
          cases other : symbol.kind <;> simp_all [SymbolKind.rename]
        simp [other_found, other_kind, renamed_kind, kind]

theorem importedPackage?_eq (id : SymbolId) :
    right.importedPackage? (moved.symbol id) =
      (left.importedPackage? id).map moved.package := by
  rw [Tables.importedPackage?, Tables.importedPackage?]
  cases found : left.symbol? id with
  | none => simp [same.symbol?_eq_none found]
  | some symbol =>
      obtain ⟨other, other_found, untyped⟩ := same.exists_symbol? found
      have other_kind : other.kind = symbol.kind.rename moved := Symbol.kind_eq_of_untyped untyped
      obtain ⟨name, kind, package, type, decl⟩ := symbol
      obtain ⟨_, _, _, _, _⟩ := other
      cases other_kind
      rw [other_found]
      cases kind <;> rfl

theorem objectOf_eq {ident : Ident} (seen : view.node ident.id) :
    right.objectOf (ident.renumber moved.file) = (left.objectOf ident).map moved.symbol :=
  same.uses ident.id seen

/-! ### Named types -/

theorem namedRenamed (full : view.Full) : NamedRenamed moved left.named right.named := by
  intro ref
  have known := same.named ref (full.member _ _)
  rw [Std.TreeMap.contains_eq_isSome_getElem?, Std.TreeMap.contains_eq_isSome_getElem?] at known
  cases found : left.named[ref]? with
  | none =>
      rw [found, Option.isSome_none, Option.isSome_eq_false_iff, Option.isNone_iff_eq_none] at known
      exact .inl ⟨rfl, known⟩
  | some type =>
      rw [found, Option.isSome_some, Option.isSome_iff_exists] at known
      obtain ⟨other, other_found⟩ := known
      refine .inr ⟨type, other, rfl, other_found, ?_, ?_⟩
      · exact same.underlying ref type other (full.underlying ref) found other_found
      · exact fun name =>
          same.methods ref type other name (full.method ref name) found other_found

theorem member?_eq (full : view.Full) (type : TypeRef) (name : String) :
    right.member? (type.rename moved) name = (left.member? type name).map moved.symbol := by
  have waiting : (type.rename moved).named?.toList =
      type.named?.toList.map (NamedRef.rename moved) := by
    rw [TypeRef.named?_rename]
    cases type.named? <;> rfl
  rw [Tables.member?, Tables.member?, waiting]
  exact (same.namedRenamed full).searchMember name (Nat.lt_succ_self _) (Nat.lt_succ_self _) _

end Matches

/-! ## Changes -/

section Changes

variable (tables : Tables)

theorem symbol?_setType (changed id : SymbolId) (type : TypeRef) :
    (tables.setType changed type).symbol? id =
      if changed = id then (tables.symbol? id).map fun symbol => { symbol with type }
      else tables.symbol? id := by
  simp only [symbol?, setType, Array.getElem?_modify]

/-- A package without members adds no meanings of names. -/
theorem lookup_addPackage_eq {info : PackageInfo} (empty : info.scope = ∅) (package : PackageId)
    (name : String) :
    (tables.addPackage info).2.lookup package name = tables.lookup package name := by
  simp only [lookup, addPackage, Array.getElem?_push]
  by_cases own : package = tables.packages.size <;> simp [own, empty]

theorem lookup_bind_eq {package : PackageId} (exists_package : package < tables.packages.size)
    (name : String) (id : SymbolId) (other : PackageId) (text : String) :
    (tables.bind package name id).lookup other text =
      if package = other ∧ name = text then some id else tables.lookup other text := by
  rw [lookup, lookup, bind, Array.getElem?_modify]
  by_cases own : package = other
  · subst own
    rw [if_pos rfl, Array.getElem?_eq_getElem exists_package, Option.map_some]
    by_cases same : name = text
    · simp [same]
    · simp [same, Std.TreeMap.getElem?_insert, Std.LawfulEqCmp.compare_eq_iff_eq]
  · simp [own]

end Changes

namespace Matches

variable {moved} {view : View} {left right : Tables} (same : Matches moved view left right)
include same

theorem recordUse (node : NodeId) (id : SymbolId) :
    Matches moved view (left.recordUse node id)
      (right.recordUse (node.renumber moved.file) (moved.symbol id)) :=
  { same with
    uses := fun other seen => by
      have injective := NodeId.renumber_injective moved.file_injective
      simp only [Tables.recordUse, Std.TreeMap.getElem?_insert, Std.LawfulEqCmp.compare_eq_iff_eq,
        injective.eq_iff]
      split
      · rfl
      · exact same.uses other seen }

theorem recordSelection (selector member : NodeId) (id : SymbolId) :
    Matches moved view (left.recordSelection selector member id)
      (right.recordSelection (selector.renumber moved.file) (member.renumber moved.file)
        (moved.symbol id)) :=
  { same.recordUse member id with
    selections := fun other seen => by
      have injective := NodeId.renumber_injective moved.file_injective
      simp only [Tables.recordSelection, Std.TreeMap.getElem?_insert,
        Std.LawfulEqCmp.compare_eq_iff_eq, injective.eq_iff]
      split
      · rfl
      · exact same.selections other seen }

theorem recordReceiver (decl : NodeId) (type : TypeRef) :
    Matches moved view (left.recordReceiver decl type)
      (right.recordReceiver (decl.renumber moved.file) (type.rename moved)) :=
  { same with
    receivers := fun other seen => by
      have injective := NodeId.renumber_injective moved.file_injective
      simp only [Tables.recordReceiver, Std.TreeMap.getElem?_insert,
        Std.LawfulEqCmp.compare_eq_iff_eq, injective.eq_iff]
      split
      · rfl
      · exact same.receivers other seen }

theorem symbol_size : moved.symbol left.symbols.size = right.symbols.size := same.next 0

theorem symbol_eq_size_iff (id : SymbolId) :
    moved.symbol id = right.symbols.size ↔ id = left.symbols.size := by
  rw [← same.symbol_size]
  exact moved.symbol_injective.eq_iff

theorem addSymbol (symbol : Symbol) :
    Matches moved view (left.addSymbol symbol).2 (right.addSymbol (symbol.rename moved)).2 :=
  { same with
    next := fun count => by
      have next := same.next (1 + count)
      simp only [Tables.addSymbol, Array.size_push]
      rw [Nat.add_assoc, next, Nat.add_assoc]
    fresh := fun count => by
      have fresh := same.fresh (1 + count)
      simp only [Tables.addSymbol, Array.size_push]
      rwa [Nat.add_assoc]
    shape := fun id => by
      rw [symbol?_addSymbol, symbol?_addSymbol]
      simp only [same.symbol_eq_size_iff]
      split
      · rfl
      · exact same.shape id
    typeOf := fun id typed => by
      have old := same.typeOf id typed
      rw [Tables.typeOf, Tables.typeOf] at old ⊢
      rw [symbol?_addSymbol, symbol?_addSymbol]
      by_cases new : id = left.symbols.size
      · simp [new, same.symbol_size, Symbol.rename]
      · simpa only [same.symbol_eq_size_iff, new, if_false] using old
    types := fun id other found kind => by
      rw [symbol?_addSymbol] at found
      split at found
      · rename_i new
        exact new ▸ same.fresh 0
      · exact same.types id other found kind }

theorem addPackage_right {info : PackageInfo} (empty : info.scope = ∅) :
    Matches moved view left (right.addPackage info).2 :=
  { same with
    lookup := fun package name seen => by
      rw [lookup_addPackage_eq right empty, same.lookup package name seen] }

theorem addPackage {info other : PackageInfo} (empty : info.scope = ∅)
    (other_empty : other.scope = ∅) :
    Matches moved view (left.addPackage info).2 (right.addPackage other).2 :=
  { same.addPackage_right other_empty with
    lookup := fun package name seen => by
      rw [lookup_addPackage_eq left empty]
      exact (same.addPackage_right other_empty).lookup package name seen }

theorem setType (id : SymbolId) (type : TypeRef) :
    Matches moved view (left.setType id type)
      (right.setType (moved.symbol id) (type.rename moved)) :=
  { same with
    next := fun count => by simpa [Tables.setType] using same.next count
    fresh := fun count => by simpa [Tables.setType] using same.fresh count
    shape := fun other => by
      have old := same.shape other
      rw [symbol?_setType, symbol?_setType]
      simp only [moved.symbol_injective.eq_iff]
      split
      · rw [Option.map_map, Option.map_map]
        exact old
      · exact old
    typeOf := fun other typed => by
      have old := same.typeOf other typed
      rw [Tables.typeOf, Tables.typeOf] at old ⊢
      rw [symbol?_setType, symbol?_setType]
      by_cases changed : id = other
      · subst changed
        cases found : left.symbol? id with
        | none => simp [same.symbol?_eq_none found]
        | some symbol =>
            obtain ⟨another, another_found, -⟩ := same.exists_symbol? found
            simp [another_found]
      · simpa only [moved.symbol_injective.eq_iff, changed, if_false] using old
    types := fun other symbol found kind => by
      rw [symbol?_setType] at found
      split at found
      · obtain ⟨old, old_found, rfl⟩ := Option.map_eq_some_iff.mp found
        exact same.types other old old_found kind
      · exact same.types other symbol found kind }

theorem bind {package : PackageId} (left_exists : package < left.packages.size)
    (right_exists : moved.package package < right.packages.size) (name : String) (id : SymbolId) :
    Matches moved view (left.bind package name id)
      (right.bind (moved.package package) name (moved.symbol id)) :=
  { same with
    lookup := fun other text seen => by
      rw [lookup_bind_eq left left_exists, lookup_bind_eq right right_exists,
        same.lookup other text seen]
      simp only [moved.package_injective.eq_iff]
      split <;> rfl }

/-- The same change of a named type in both tables. -/
theorem modifyNamed (ref : NamedRef) {change other : NamedType → NamedType}
    (underlying : ∀ type another, type.underlying.Renamed moved another.underlying →
      (change type).underlying.Renamed moved (other another).underlying)
    (methods : ∀ type another (name : String), another.methods[name]? =
      type.methods[name]?.map moved.symbol → (other another).methods[name]? =
        (change type).methods[name]?.map moved.symbol) :
    Matches moved view { left with named := left.named.modify ref change }
      { right with named := right.named.modify (ref.rename moved) other } := by
  have injective := NamedRef.rename_injective moved
  exact
  { same with
    named := fun another seen => by
      have known := same.named another seen
      simp only [Std.TreeMap.contains_modify] at known ⊢
      exact known
    underlying := fun another type renamed seen found other_found => by
      simp only [Std.TreeMap.getElem?_modify, Std.LawfulEqCmp.compare_eq_iff_eq,
        injective.eq_iff] at found other_found
      split at found
      · rename_i own
        rw [if_pos own] at other_found
        subst own
        obtain ⟨before, before_found, rfl⟩ := Option.map_eq_some_iff.mp found
        obtain ⟨after, after_found, rfl⟩ := Option.map_eq_some_iff.mp other_found
        exact underlying _ _ (same.underlying _ _ _ seen before_found after_found)
      · rename_i apart
        rw [if_neg apart] at other_found
        exact same.underlying _ _ _ seen found other_found
    methods := fun another type renamed name seen found other_found => by
      simp only [Std.TreeMap.getElem?_modify, Std.LawfulEqCmp.compare_eq_iff_eq,
        injective.eq_iff] at found other_found
      split at found
      · rename_i own
        rw [if_pos own] at other_found
        subst own
        obtain ⟨before, before_found, rfl⟩ := Option.map_eq_some_iff.mp found
        obtain ⟨after, after_found, rfl⟩ := Option.map_eq_some_iff.mp other_found
        exact methods _ _ name (same.methods _ _ _ name seen before_found after_found)
      · rename_i apart
        rw [if_neg apart] at other_found
        exact same.methods _ _ _ name seen found other_found }

end Matches

end Tables

end Relock
