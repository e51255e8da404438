import Relock.Proofs.Resolution.Entity

/-!
# Numbers of packages

Entities and types mention packages by their numbers. Here a mention is compared with the number of
packages that exist, and what resolution reads off its tables is shown to mention existing packages
if all that stands in the tables does.
-/

namespace Relock

namespace TypeRef

/-- The named types in a type belong to the first `count` packages. -/
def isWithin (count : Nat) : TypeRef → Bool
  | named ref => ref.package < count
  | pointer target => target.isWithin count
  | funcOf result => result.isWithin count
  | func | basic _ | unknown => true

theorem isWithin_mono {count more : Nat} (le : count ≤ more) {type : TypeRef}
    (within : type.isWithin count = true) : type.isWithin more = true := by
  induction type with
  | named ref =>
      simp only [isWithin, decide_eq_true_eq] at within ⊢
      exact Nat.lt_of_lt_of_le within le
  | pointer target ih => exact ih within
  | funcOf result ih => exact ih within
  | func | basic | unknown => rfl

theorem isWithin_ofResult {count : Nat} {result : Option TypeRef}
    (within : ∀ type ∈ result, type.isWithin count = true) :
    (ofResult result).isWithin count = true := by
  cases result with
  | none => rfl
  | some type => exact within type rfl

end TypeRef

namespace SymbolKind

/-- The packages that a kind mentions are among the first `count`. -/
def isWithin (count : Nat) : SymbolKind → Bool
  | method receiver => receiver.isWithin count
  | interfaceMethod interface => interface.isWithin count
  | package target => target < count
  | var _ | field | func | builtin | typeName => true

theorem isWithin_mono {count more : Nat} (le : count ≤ more) {kind : SymbolKind}
    (within : kind.isWithin count = true) : kind.isWithin more = true := by
  cases kind with
  | method receiver => exact TypeRef.isWithin_mono le within
  | interfaceMethod interface => exact TypeRef.isWithin_mono le within
  | package target =>
      simp only [isWithin, decide_eq_true_eq] at within ⊢
      exact Nat.lt_of_lt_of_le within le
  | var | field | func | builtin | typeName => rfl

end SymbolKind

namespace Symbol

/-- The packages that an entity mentions, its own among them, are among the first `count`. -/
def isWithin (count : Nat) (symbol : Symbol) : Bool :=
  symbol.package < count && symbol.kind.isWithin count && symbol.type.isWithin count

theorem isWithin_iff {count : Nat} {symbol : Symbol} :
    symbol.isWithin count = true ↔ symbol.package < count ∧
      symbol.kind.isWithin count = true ∧ symbol.type.isWithin count = true := by
  simp [isWithin, and_assoc]

theorem isWithin_mono {count more : Nat} (le : count ≤ more) {symbol : Symbol}
    (within : symbol.isWithin count = true) : symbol.isWithin more = true := by
  rw [isWithin_iff] at within ⊢
  obtain ⟨package, kind, type⟩ := within
  exact ⟨Nat.lt_of_lt_of_le package le, SymbolKind.isWithin_mono le kind,
    TypeRef.isWithin_mono le type⟩

end Symbol

namespace Underlying

/-- The types of fields, or the type that stands behind a name, mention the first `count`
packages. -/
def isWithin (count : Nat) : Underlying → Bool
  | struct fields => fields.all fun field => field.type.isWithin count
  | interface _ => true
  | other type => type.isWithin count

theorem isWithin_mono {count more : Nat} (le : count ≤ more) {underlying : Underlying}
    (within : underlying.isWithin count = true) : underlying.isWithin more = true := by
  cases underlying with
  | struct fields =>
      rw [isWithin, List.all_eq_true] at within ⊢
      exact fun field member => TypeRef.isWithin_mono le (within field member)
  | interface methods => rfl
  | other type => exact TypeRef.isWithin_mono le within

end Underlying

namespace Tables

/-- All that stands in the tables mentions the first `count` packages. -/
structure Within (count : Nat) (tables : Tables) : Prop where
  symbol : ∀ id symbol, tables.symbol? id = some symbol → symbol.isWithin count = true
  receiver : ∀ (node : NodeId) type, tables.receivers[node]? = some type →
    type.isWithin count = true
  named : ∀ (ref : NamedRef) type, tables.named[ref]? = some type →
    ref.package < count ∧ type.underlying.isWithin count = true

/-- All that stands in the tables mentions existing packages. -/
structure Housed (tables : Tables) : Prop where
  predeclared : Predeclared.sync < tables.packages.size
  within : tables.Within tables.packages.size

variable {count : Nat} {before after tables : Tables}

namespace Within

theorem mono {more : Nat} (within : tables.Within count) (le : count ≤ more) :
    tables.Within more where
  symbol id symbol found := Symbol.isWithin_mono le (within.symbol id symbol found)
  receiver node type found := TypeRef.isWithin_mono le (within.receiver node type found)
  named ref type found := by
    obtain ⟨package, underlying⟩ := within.named ref type found
    exact ⟨Nat.lt_of_lt_of_le package le, Underlying.isWithin_mono le underlying⟩

/-! ## Changes -/

theorem of_eq (within : before.Within count) (symbols : after.symbols = before.symbols)
    (receivers : after.receivers = before.receivers) (named : after.named = before.named) :
    after.Within count where
  symbol id symbol found := within.symbol id symbol (by rwa [symbol?, ← symbols])
  receiver node type found := within.receiver node type (receivers ▸ found)
  named ref type found := within.named ref type (named ▸ found)

theorem addSymbol (within : tables.Within count) {symbol : Symbol}
    (own : symbol.isWithin count = true) : (tables.addSymbol symbol).2.Within count where
  symbol id other found := by
    simp only [symbol?, Tables.addSymbol, Array.getElem?_push] at found
    split at found
    · cases found
      exact own
    · exact within.symbol id other found
  receiver := within.receiver
  named := within.named

variable (within : tables.Within count)
include within

theorem setType (changed : SymbolId) {type : TypeRef} (own : type.isWithin count = true) :
    (tables.setType changed type).Within count where
  symbol id symbol found := by
    simp only [symbol?, Tables.setType, Array.getElem?_modify] at found
    split at found
    · obtain ⟨old, old_eq, rfl⟩ := Option.map_eq_some_iff.mp found
      obtain ⟨package, kind, -⟩ := Symbol.isWithin_iff.mp (within.symbol id old old_eq)
      exact Symbol.isWithin_iff.mpr ⟨package, kind, own⟩
    · exact within.symbol id symbol found
  receiver := within.receiver
  named := within.named

theorem recordReceiver (decl : NodeId) {type : TypeRef} (own : type.isWithin count = true) :
    (tables.recordReceiver decl type).Within count where
  symbol := within.symbol
  receiver node other found := by
    rcases found_of_insert found with ⟨-, rfl⟩ | found
    · exact own
    · exact within.receiver node other found
  named := within.named

theorem setNamed {ref : NamedRef} {type : NamedType} (package : ref.package < count)
    (own : type.underlying.isWithin count = true) :
    (tables.setNamed ref type).Within count where
  symbol := within.symbol
  receiver := within.receiver
  named other form found := by
    rcases found_of_insert found with ⟨rfl, rfl⟩ | found
    · exact ⟨package, own⟩
    · exact within.named other form found

theorem setUnderlying (ref : NamedRef) {underlying : Underlying}
    (own : underlying.isWithin count = true) :
    (tables.setUnderlying ref underlying).Within count where
  symbol := within.symbol
  receiver := within.receiver
  named other form found := by
    rcases found_of_modify found with ⟨rfl, old, old_eq, rfl⟩ | found
    · exact ⟨(within.named ref old old_eq).1, own⟩
    · exact within.named other form found

theorem addMethod (ref : NamedRef) (name : String) (method : SymbolId) :
    (tables.addMethod ref name method).Within count where
  symbol := within.symbol
  receiver := within.receiver
  named other form found := by
    rcases found_of_modify found with ⟨rfl, old, old_eq, rfl⟩ | found
    · exact within.named ref old old_eq
    · exact within.named other form found

/-! ## Questions -/

theorem typeOf (id : SymbolId) : (tables.typeOf id).isWithin count = true := by
  rw [Tables.typeOf]
  split
  · rename_i symbol found
    exact (Symbol.isWithin_iff.mp (within.symbol id symbol found)).2.2
  · rfl

theorem typeNamed? {id : SymbolId} {type : TypeRef} (found : tables.typeNamed? id = some type) :
    type.isWithin count = true := by
  rw [Tables.typeNamed?] at found
  split at found
  · rename_i symbol symbol_eq
    split at found
    · cases found
      exact (Symbol.isWithin_iff.mp (within.symbol id symbol symbol_eq)).2.2
    · cases found
  · cases found

theorem receiverType (decl : FuncDecl) :
    ((tables.receiverType? decl).getD .unknown).isWithin count = true := by
  cases found : tables.receiverType? decl with
  | none => rfl
  | some type => exact within.receiver decl.id type found

end Within

theorem Housed.of_within (housed : before.Housed)
    (size : after.packages.size = before.packages.size)
    (within : after.Within before.packages.size) : after.Housed := by
  rw [← size] at within
  exact ⟨size ▸ housed.predeclared, within⟩

end Tables

namespace Resolution

variable {count : Nat} {tables : Tables}

/-- What holds of the types that entities name, and of what is made from such types, holds of every
type that is written. -/
theorem resolveType_of_typeNamed? {holds : TypeRef → Prop}
    (named : ∀ id type, tables.typeNamed? id = some type → holds type) (unknown : holds .unknown)
    (pointer : ∀ target, holds target → holds (.pointer target)) (func : holds .func)
    (funcOf : ∀ result, holds result → holds (.funcOf result)) (scope : FileScope)
    (written : TypeExpr) : holds (resolveType scope tables written) := by
  have known (found : Option SymbolId) :
      holds ((found.bind tables.typeNamed?).getD .unknown) := by
    cases type_eq : found.bind tables.typeNamed? with
    | none => exact unknown
    | some type =>
        obtain ⟨id, -, named_eq⟩ := Option.bind_eq_some_iff.mp type_eq
        exact named id type named_eq
  induction written with
  | name name => exact known _
  | qualified package name => exact known _
  | pointer target ih =>
      rw [resolveType]
      split
      · exact unknown
      · exact pointer _ ih
  | func => exact func
  | funcOf result ih => exact funcOf _ ih
  | other => exact unknown

variable (within : tables.Within count)
include within

theorem resolveType_isWithin (scope : FileScope) (written : TypeExpr) :
    (resolveType scope tables written).isWithin count = true :=
  resolveType_of_typeNamed? (fun _ _ => within.typeNamed?) rfl (fun _ => id) rfl (fun _ => id) scope
    written

theorem declared_isWithin (scope : FileScope) (written : Option TypeExpr) :
    ∀ type ∈ written.map (resolveType scope tables), type.isWithin count = true := by
  intro type found
  obtain ⟨written, -, rfl⟩ := Option.map_eq_some_iff.mp found
  exact resolveType_isWithin within scope written

theorem ofResult_isWithin (scope : FileScope) (result : Option TypeExpr) :
    (TypeRef.ofResult (result.map (resolveType scope tables))).isWithin count = true :=
  TypeRef.isWithin_ofResult (declared_isWithin within scope result)

end Resolution

end Relock
