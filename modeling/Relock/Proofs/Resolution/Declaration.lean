import Mathlib.Data.List.Perm.Subperm
import Relock.Proofs.Program.Marks
import Relock.Proofs.Resolution.Housing
import Relock.Proofs.Resolution.Leads

/-!
# The changes that declarations make

Before any body is looked at, the tables receive the packages and what they declare. Each function
and method gets one entity, recorded under its name, and everything else that is recorded is neither
of them. Where numbers are unique, nothing has been recorded under that name before. What is added
mentions existing packages only.
-/

namespace Relock

namespace Tables

variable {before after : Tables}

/-- The entity is a field of the given name. -/
def IsField (tables : Tables) (field : FieldInfo) : Prop :=
  ∃ package, tables.entity? field.symbol = some ⟨field.name, .field, package⟩

/-- The named types of fields and methods are as the entities say. -/
def MadeOf (tables : Tables) (ref : NamedRef) : Underlying → Prop
  | .struct fields => ∀ field ∈ fields, tables.IsField field
  | .interface methods => ∀ (name : String) id, methods[name]? = some id →
      ∃ package, tables.entity? id = some ⟨name, .interfaceMethod (.named ref), package⟩
  | .other _ => True

/-- The package of a file has its directory as path and its package name as name, and it is none of
the predeclared ones. -/
def Owns (tables : Tables) (package : PackageId) (label : String × String) : Prop :=
  Predeclared.sync < package ∧ tables.label? package = some label

/-- The names under which a file imports packages are names of packages. -/
def Imports (tables : Tables) (imports : Scope SymbolId) : Prop :=
  ∀ (name : String) id, imports[name]? = some id →
    ∃ entity target, tables.entity? id = some entity ∧ entity.kind = .package target

/-- A file sees its own package and the packages it imports. -/
structure Sees (tables : Tables) (scope : FileScope) (file : File) : Prop where
  owns : tables.Owns scope.package (file.dir, file.package)
  imports : tables.Imports scope.imports

/-- The tables after a name has declared a member of a package. -/
def declareAs (tables : Tables) (ident : Ident) (symbol : Symbol) : Tables :=
  (tables.declare symbol.package symbol).2.recordUse ident.id tables.symbols.size

/-- The tables after the method of a receiver type has been added to that type. -/
def addMethodOf (tables : Tables) (receiver : TypeRef) (name : String) (method : SymbolId) :
    Tables :=
  match receiver.named? with
  | some ref => tables.addMethod ref name method
  | none => tables

/-- The tables after a method has been declared. -/
def declareMethod (tables : Tables) (package : PackageId) (decl : FuncDecl)
    (receiver type : TypeRef) : Tables :=
  ((((tables.recordReceiver decl.id receiver).addSymbol
    { name := decl.name.name, kind := .method receiver, package, type }).2.recordUse
      decl.name.id tables.symbols.size)).addMethodOf receiver decl.name.name tables.symbols.size

variable (growth : before.Extends after)
include growth

theorem IsField.extend {field : FieldInfo} (known : before.IsField field) :
    after.IsField field := by
  obtain ⟨package, entity⟩ := known
  exact ⟨package, growth.entity _ _ entity⟩

theorem MadeOf.extend {ref : NamedRef} {underlying : Underlying}
    (made : before.MadeOf ref underlying) : after.MadeOf ref underlying := by
  cases underlying with
  | struct fields => exact fun field member => (made field member).extend growth
  | interface methods =>
      intro name id found
      obtain ⟨package, entity⟩ := made name id found
      exact ⟨package, growth.entity _ _ entity⟩
  | other type => trivial

theorem Owns.extend {package : PackageId} {label : String × String}
    (owns : before.Owns package label) : after.Owns package label :=
  ⟨owns.1, growth.label _ _ owns.2⟩

theorem Imports.extend {imports : Scope SymbolId} (known : before.Imports imports) :
    after.Imports imports := by
  intro name id found
  obtain ⟨entity, target, entity_eq, kind⟩ := known name id found
  exact ⟨entity, target, growth.entity _ _ entity_eq, kind⟩

theorem Sees.extend {scope : FileScope} {file : File} (sees : before.Sees scope file) :
    after.Sees scope file :=
  ⟨sees.owns.extend growth, sees.imports.extend growth⟩

end Tables

namespace Resolution

/-- One change that declarations make to the tables: for one of the given functions and methods,
each with its package, or for a name that is marked. -/
inductive Change (declared : List (PackageId × FuncDecl)) (marks : List Mark) :
    Tables → Tables → Prop where
  | package (tables : Tables) (info : PackageInfo) (empty : info.scope = ∅) :
      Change declared marks tables (tables.addPackage info).2
  /-- An imported package, a field, or a method that an interface asks for. -/
  | part (tables : Tables) (symbol : Symbol) (kind : symbol.kind.isCallable = false)
      (untyped : symbol.kind ≠ .typeName) (within : symbol.isWithin tables.packages.size = true)
      (unbound : symbol.decl = none) :
      Change declared marks tables (tables.addSymbol symbol).2
  | use (tables : Tables) (ident : Ident) (id : SymbolId) (entity : Entity)
      (marked : ident.mark ∈ marks) (known : tables.entity? id = some entity)
      (kind : entity.kind.isCallable = false) :
      Change declared marks tables (tables.recordUse ident.id id)
  | type (tables : Tables) (ident : Ident) (package : PackageId) (marked : ident.mark ∈ marks)
      (housed : package < tables.packages.size) :
      Change declared marks tables (tables.declareAs ident
        { name := ident.name, kind := .typeName, package, type := .named ⟨package, ident.name⟩ })
  | var (tables : Tables) (ident : Ident) (package : PackageId) (decl : NodeId)
      (marked : ident.mark ∈ marks) (housed : package < tables.packages.size) :
      Change declared marks tables (tables.declareAs ident
        { name := ident.name, kind := .var .package, package, type := .unknown, decl := some decl })
  | function (tables : Tables) (package : PackageId) (decl : FuncDecl)
      (member : (package, decl) ∈ declared) (plain : decl.isMethod = false)
      (fresh : (marks.map Mark.id).Nodup → tables.objectOf decl.name = none)
      (housed : package < tables.packages.size) :
      Change declared marks tables (tables.declareAs decl.name
        { name := decl.name.name, kind := .func, package, type := .func })
  /-- The receiver has a written type. -/
  | method (tables : Tables) (scope : FileScope) (decl : FuncDecl) (written : TypeExpr)
      (type : TypeRef) (member : (scope.package, decl) ∈ declared) (method : decl.isMethod = true)
      (fresh : (marks.map Mark.id).Nodup → tables.objectOf decl.name = none)
      (housed : scope.package < tables.packages.size)
      (within : type.isWithin tables.packages.size = true) :
      Change declared marks tables
        (tables.declareMethod scope.package decl (resolveType scope tables written) type)
  | named (tables : Tables) (ref : NamedRef) (housed : ref.package < tables.packages.size) :
      Change declared marks tables (tables.setNamed ref { underlying := .other .unknown })
  | underlying (tables : Tables) (ref : NamedRef) (underlying : Underlying)
      (made : tables.MadeOf ref underlying)
      (within : underlying.isWithin tables.packages.size = true) :
      Change declared marks tables (tables.setUnderlying ref underlying)
  /-- The type of a function becomes known. -/
  | retype (tables : Tables) (package : PackageId) (decl : FuncDecl) (id : SymbolId)
      (type : TypeRef) (member : (package, decl) ∈ declared)
      (recorded : tables.objectOf decl.name = some id)
      (within : type.isWithin tables.packages.size = true) :
      Change declared marks tables (tables.setType id type)

variable {declared : List (PackageId × FuncDecl)} {marks : List Mark} {before after : Tables}

/-- What some declarations can change, more of them can change. -/
theorem Change.widen {wider : List (PackageId × FuncDecl)} {more : List Mark} (sub : declared ⊆ wider)
    (part : marks.Subperm more) (change : Change declared marks before after) :
    Change wider more before after := by
  have nodup (unique : (more.map Mark.id).Nodup) : (marks.map Mark.id).Nodup := by
    obtain ⟨list, order, inside⟩ := part
    exact (order.map Mark.id).nodup_iff.mp (unique.sublist (inside.map Mark.id))
  cases change with
  | package info empty => exact .package _ info empty
  | part symbol kind untyped within unbound => exact .part _ symbol kind untyped within unbound
  | use ident id entity marked known kind =>
      exact .use _ ident id entity (part.subset marked) known kind
  | type ident package marked housed => exact .type _ ident package (part.subset marked) housed
  | var ident package decl marked housed =>
      exact .var _ ident package decl (part.subset marked) housed
  | function package decl member plain fresh housed =>
      exact .function _ package decl (sub member) plain (fun unique => fresh (nodup unique)) housed
  | method scope decl written type member method fresh housed within =>
      exact .method _ scope decl written type (sub member) method
        (fun unique => fresh (nodup unique)) housed within
  | named ref housed => exact .named _ ref housed
  | underlying ref underlying made within => exact .underlying _ ref underlying made within
  | retype package decl id type member recorded within =>
      exact .retype _ package decl id type (sub member) recorded within

theorem Change.mono {wider : List (PackageId × FuncDecl)} (sub : declared ⊆ wider)
    (change : Change declared marks before after) : Change wider marks before after :=
  change.widen sub (.refl marks)

end Resolution

namespace Tables

variable (tables : Tables)

section Methods

variable (package : PackageId) (decl : FuncDecl) (receiver type : TypeRef) (name : String)
  (method : SymbolId)

@[simp]
theorem uses_addMethodOf :
    (tables.addMethodOf receiver name method).uses = tables.uses := by
  unfold addMethodOf
  split <;> rfl

@[simp]
theorem symbols_addMethodOf :
    (tables.addMethodOf receiver name method).symbols = tables.symbols := by
  unfold addMethodOf
  split <;> rfl

@[simp]
theorem packages_addMethodOf :
    (tables.addMethodOf receiver name method).packages = tables.packages := by
  unfold addMethodOf
  split <;> rfl

@[simp]
theorem selections_addMethodOf :
    (tables.addMethodOf receiver name method).selections = tables.selections := by
  unfold addMethodOf
  split <;> rfl

@[simp]
theorem receivers_addMethodOf :
    (tables.addMethodOf receiver name method).receivers = tables.receivers := by
  unfold addMethodOf
  split <;> rfl

theorem uses_declareMethod :
    (tables.declareMethod package decl receiver type).uses =
      tables.uses.insert decl.name.id tables.symbols.size := by
  rw [declareMethod, uses_addMethodOf]
  rfl

theorem receivers_declareMethod :
    (tables.declareMethod package decl receiver type).receivers =
      tables.receivers.insert decl.id receiver := by
  rw [declareMethod, receivers_addMethodOf]
  rfl

theorem selections_declareMethod :
    (tables.declareMethod package decl receiver type).selections = tables.selections := by
  rw [declareMethod, selections_addMethodOf]
  rfl

theorem symbols_declareMethod :
    (tables.declareMethod package decl receiver type).symbols =
      tables.symbols.push { name := decl.name.name, kind := .method receiver, package, type } := by
  rw [declareMethod, symbols_addMethodOf]
  rfl

theorem packages_declareMethod :
    (tables.declareMethod package decl receiver type).packages = tables.packages := by
  rw [declareMethod, packages_addMethodOf]
  rfl

theorem entity?_declareMethod (id : SymbolId) :
    (tables.declareMethod package decl receiver type).entity? id =
      if id = tables.symbols.size then some ⟨decl.name.name, .method receiver, package⟩
      else tables.entity? id := by
  rw [entity?, symbol?, symbols_declareMethod]
  exact tables.entity?_addSymbol _ id

theorem Extends.declareMethod :
    tables.Extends (tables.declareMethod package decl receiver type) := by
  refine (Extends.addSymbol tables
    { name := decl.name.name, kind := .method receiver, package, type }).trans (.of_eq ?_ ?_)
  · rw [symbols_declareMethod]
    rfl
  · rw [packages_declareMethod]
    rfl

end Methods

theorem Extends.declareAs (ident : Ident) (symbol : Symbol) :
    tables.Extends (tables.declareAs ident symbol) :=
  ((Extends.addSymbol tables symbol).trans (.bind _ symbol.package symbol.name _)).trans
    (.of_eq rfl rfl)

variable {tables}

theorem Housed.declareAs (housed : tables.Housed) (ident : Ident) {symbol : Symbol}
    (own : symbol.isWithin tables.packages.size = true) :
    (tables.declareAs ident symbol).Housed := by
  refine housed.of_within ?_ ((housed.within.addSymbol own).of_eq rfl rfl rfl)
  simp [Tables.declareAs, recordUse, declare, bind, addSymbol]

theorem Within.addMethodOf {count : Nat} (within : tables.Within count) (receiver : TypeRef)
    (name : String) (method : SymbolId) :
    (tables.addMethodOf receiver name method).Within count := by
  unfold Tables.addMethodOf
  split
  · exact within.addMethod _ name method
  · exact within

theorem Housed.declareMethod (housed : tables.Housed) {package : PackageId} (decl : FuncDecl)
    {receiver type : TypeRef} (own : package < tables.packages.size)
    (received : receiver.isWithin tables.packages.size = true)
    (typed : type.isWithin tables.packages.size = true) :
    (tables.declareMethod package decl receiver type).Housed := by
  let method : Symbol := { name := decl.name.name, kind := .method receiver, package, type }
  have within : method.isWithin tables.packages.size = true :=
    Symbol.isWithin_iff.mpr ⟨own, received, typed⟩
  have added := (housed.within.recordReceiver decl.id received).addSymbol within
  refine housed.of_within (by rw [packages_declareMethod]) ?_
  rw [Tables.declareMethod]
  apply Within.addMethodOf
  exact added.of_eq rfl rfl rfl

end Tables

namespace Resolution

variable {declared : List (PackageId × FuncDecl)} {marks : List Mark} {before after : Tables}

theorem Change.grows (change : Change declared marks before after) : before.Extends after := by
  cases change with
  | package info empty => exact .addPackage _ info
  | part symbol kind untyped => exact .addSymbol _ symbol
  | use ident id entity marked known kind => exact .of_eq rfl rfl
  | type ident package marked => exact .declareAs _ _ _
  | var ident package decl marked => exact .declareAs _ _ _
  | function package decl member plain fresh => exact .declareAs _ _ _
  | method scope decl written type member method fresh => exact .declareMethod _ _ _ _ _
  | named ref => exact .of_eq rfl rfl
  | underlying ref underlying made => exact .of_eq rfl rfl
  | retype package decl id type member recorded => exact .setType _ id type

theorem grows_of_changes (changes : Relation.ReflTransGen (Change declared marks) before after) :
    before.Extends after :=
  kept_of_steps (fun _ _ change earlier => earlier.trans change.grows) changes (.refl before)

theorem package_lt_of_changes {package : PackageId}
    (changes : Relation.ReflTransGen (Change declared marks) before after)
    (own : package < before.packages.size) : package < after.packages.size :=
  Nat.lt_of_lt_of_le own (grows_of_changes changes).packages_le

/-- What declarations add mentions existing packages. -/
theorem Change.housed (change : Change declared marks before after) (housed : before.Housed) :
    after.Housed := by
  have within := housed.within
  cases change with
  | package info empty =>
      have more : before.packages.size ≤ (before.addPackage info).2.packages.size := by
        simp [Tables.addPackage]
      exact ⟨Nat.lt_of_lt_of_le housed.predeclared more, (within.mono more).of_eq rfl rfl rfl⟩
  | part symbol kind untyped own => exact housed.of_within rfl (within.addSymbol own)
  | use => exact housed.of_within rfl (within.of_eq rfl rfl rfl)
  | type ident package marked own =>
      exact housed.declareAs ident (Symbol.isWithin_iff.mpr ⟨own, rfl, decide_eq_true own⟩)
  | var ident package decl marked own =>
      exact housed.declareAs ident (Symbol.isWithin_iff.mpr ⟨own, rfl, rfl⟩)
  | function package decl member plain fresh own =>
      exact housed.declareAs decl.name (Symbol.isWithin_iff.mpr ⟨own, rfl, rfl⟩)
  | method scope decl written type member method fresh own typed =>
      exact housed.declareMethod decl own (resolveType_isWithin within scope written) typed
  | named ref own => exact housed.of_within rfl (within.setNamed own rfl)
  | underlying ref underlying made own => exact housed.of_within rfl (within.setUnderlying ref own)
  | retype package decl id type member recorded own =>
      exact housed.of_within rfl (within.setType id own)

theorem housed_of_changes (changes : Relation.ReflTransGen (Change declared marks) before after)
    (housed : before.Housed) : after.Housed :=
  kept_of_steps (fun _ _ change => change.housed) changes housed

/-- Declarations select nothing. -/
theorem Change.selections_eq (change : Change declared marks before after) :
    after.selections = before.selections := by
  cases change with
  | method scope decl written type member method fresh =>
      exact Tables.selections_declareMethod _ _ _ _ _
  | _ => rfl

/-- Declarations record nothing but what names declare. -/
theorem Change.uses_eq {node : NodeId} (change : Change declared marks before after)
    (named : ∀ mark ∈ marks, mark.role = .name → mark.id ≠ node)
    (functions : ∀ package decl, (package, decl) ∈ declared → decl.name.id ≠ node) :
    after.uses[node]? = before.uses[node]? := by
  have elsewhere (tables : Tables) {other : NodeId} (id : SymbolId) (apart : other ≠ node) :
      (tables.recordUse other id).uses[node]? = tables.uses[node]? := by
    simp [Tables.recordUse, Std.TreeMap.getElem?_insert, apart]
  cases change with
  | use ident id entity marked known kind
  | type ident package marked
  | var ident package decl marked => exact elsewhere _ _ (named _ marked rfl)
  | function package decl member plain fresh =>
      exact elsewhere _ _ (functions _ _ member)
  | method scope decl written type member method fresh =>
      rw [Tables.uses_declareMethod]
      exact elsewhere before _ (functions _ _ member)
  | _ => rfl

end Resolution

end Relock
