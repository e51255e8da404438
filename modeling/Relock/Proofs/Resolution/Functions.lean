import Relock.Proofs.Resolution.Coherence

/-!
# The entities of functions and methods

Every function and every method of a program has one entity, recorded under its name, and there are
no other functions and methods but the predeclared ones. So an entity of either kind tells its
declaration.
-/

namespace Relock

namespace Tables

/-- The kind of entity that a declaration declares. -/
def declaredKind? (tables : Tables) (decl : FuncDecl) : Option SymbolKind :=
  if decl.isMethod then (tables.receiverType? decl).map .method else some .func

/-- The entity with a number is the one that a declaration of a package declares. -/
def Declares (tables : Tables) (package : PackageId) (decl : FuncDecl) (id : SymbolId) : Prop :=
  tables.objectOf decl.name = some id ∧
    ∃ kind, tables.declaredKind? decl = some kind ∧
      tables.entity? id = some ⟨decl.name.name, kind, package⟩

/-- Functions and methods are accounted for by declarations, and the other way round. -/
structure Accounts (declared : List (PackageId × FuncDecl)) (tables : Tables) : Prop where
  callable : ∀ id entity, tables.entity? id = some entity → entity.kind.isCallable = true →
    Predeclared.tables.entity? id = some entity ∨
      ∃ package decl, (package, decl) ∈ declared ∧ tables.Declares package decl id
  recorded : ∀ package decl id, (package, decl) ∈ declared → tables.objectOf decl.name = some id →
    ∃ package, (package, decl) ∈ declared ∧ tables.Declares package decl id

variable {declared : List (PackageId × FuncDecl)} {before after tables : Tables}
  {package : PackageId} {decl : FuncDecl} {id : SymbolId}

theorem Declares.extend (growth : before.Extends after) (declares : before.Declares package decl id)
    (name : after.objectOf decl.name = before.objectOf decl.name)
    (receiver : after.receiverType? decl = before.receiverType? decl) :
    after.Declares package decl id := by
  obtain ⟨recorded, kind, kind_eq, known⟩ := declares
  refine ⟨name.trans recorded, kind, ?_, growth.entity _ _ known⟩
  rw [declaredKind?, receiver]
  exact kind_eq

theorem Declares.isCallable (declares : tables.Declares package decl id) :
    ∃ entity, tables.entity? id = some entity ∧ entity.kind.isCallable = true := by
  obtain ⟨-, kind, kind_eq, known⟩ := declares
  refine ⟨_, known, ?_⟩
  rw [declaredKind?] at kind_eq
  split at kind_eq
  · obtain ⟨receiver, -, rfl⟩ := Option.map_eq_some_iff.mp kind_eq
    rfl
  · cases kind_eq
    rfl

/-- What adds no function or method and records none changes no account. -/
theorem Accounts.of_eq (accounts : before.Accounts declared) (growth : before.Extends after)
    (callable : ∀ id entity, after.entity? id = some entity → entity.kind.isCallable = true →
      before.entity? id = some entity)
    (names : ∀ package decl, (package, decl) ∈ declared →
      after.objectOf decl.name = before.objectOf decl.name)
    (receivers : after.receivers = before.receivers) : after.Accounts declared := by
  have receiver (decl : FuncDecl) : after.receiverType? decl = before.receiverType? decl := by
    rw [receiverType?, receivers]
    rfl
  constructor
  · intro id entity known is_callable
    rcases accounts.callable id entity (callable id entity known is_callable) is_callable with
      predeclared | ⟨package, decl, member, declares⟩
    · exact .inl predeclared
    · exact .inr ⟨package, decl, member,
        declares.extend growth (names package decl member) (receiver decl)⟩
  · intro package decl id member recorded
    rw [names package decl member] at recorded
    obtain ⟨owner, owner_mem, declares⟩ := accounts.recorded package decl id member recorded
    exact ⟨owner, owner_mem, declares.extend growth (names owner decl owner_mem) (receiver decl)⟩

/-- A new entity is accounted for by the declaration it is recorded for, if none was before. -/
theorem Accounts.declare (accounts : before.Accounts declared) (growth : before.Extends after)
    {kind : SymbolKind} (member : (package, decl) ∈ declared)
    (fresh : before.objectOf decl.name = none)
    (added : ∀ id, after.entity? id = if id = before.symbols.size then
      some ⟨decl.name.name, kind, package⟩ else before.entity? id)
    (recorded : after.objectOf decl.name = some before.symbols.size)
    (kind_eq : after.declaredKind? decl = some kind)
    (others : ∀ package other, (package, other) ∈ declared → other ≠ decl →
      after.objectOf other.name = before.objectOf other.name ∧
        after.receiverType? other = before.receiverType? other) : after.Accounts declared := by
  have own : after.Declares package decl before.symbols.size :=
    ⟨recorded, kind, kind_eq, (added _).trans (if_pos rfl)⟩
  -- Nothing was recorded for this declaration, so an earlier account is of another one.
  have earlier {owner : PackageId} {other : FuncDecl} {id : SymbolId}
      (other_mem : (owner, other) ∈ declared) (declares : before.Declares owner other id) :
      after.Declares owner other id := by
    have apart : other ≠ decl := by
      rintro rfl
      rw [declares.1] at fresh
      cases fresh
    obtain ⟨name, receiver⟩ := others owner other other_mem apart
    exact declares.extend growth name receiver
  constructor
  · intro id entity known is_callable
    by_cases new : id = before.symbols.size
    · subst new
      exact .inr ⟨package, decl, member, own⟩
    · rw [added, if_neg new] at known
      rcases accounts.callable id entity known is_callable with
        predeclared | ⟨owner, other, other_mem, declares⟩
      · exact .inl predeclared
      · exact .inr ⟨owner, other, other_mem, earlier other_mem declares⟩
  · intro owner other id other_mem other_recorded
    by_cases same : other = decl
    · subst same
      rw [recorded] at other_recorded
      cases other_recorded
      exact ⟨package, member, own⟩
    · rw [(others owner other other_mem same).1] at other_recorded
      obtain ⟨package, package_mem, declares⟩ :=
        accounts.recorded owner other id other_mem other_recorded
      exact ⟨package, package_mem, earlier package_mem declares⟩

theorem objectOf_recordUse_of_ne {node : NodeId} {ident : Ident} (apart : node ≠ ident.id)
    (symbol : SymbolId) :
    (tables.recordUse node symbol).objectOf ident = tables.objectOf ident := by
  simp [recordUse, objectOf, Std.TreeMap.getElem?_insert, apart]

/-- An entity that is not callable is not among the functions and methods. -/
theorem entity?_of_addSymbol {symbol : Symbol} (kind : symbol.kind.isCallable = false)
    {entity : Entity} (known : (tables.addSymbol symbol).2.entity? id = some entity)
    (is_callable : entity.kind.isCallable = true) : tables.entity? id = some entity := by
  rw [entity?_addSymbol] at known
  split at known
  · cases known
    rw [Symbol.entity, kind] at is_callable
    cases is_callable
  · exact known

end Tables

namespace Resolution

variable {program : Program} {declared : List (PackageId × FuncDecl)} {scope : FileScope}

theorem Change.accounts {before after : Tables} (unique : program.UniqueIds)
    (functions : ∀ package decl, (package, decl) ∈ declared → decl ∈ program.functions)
    (change : Change declared program.marks before after) (accounts : before.Accounts declared) :
    after.Accounts declared := by
  have growth := change.grows
  have apart (ident : Ident) (marked : ident.mark ∈ program.marks) (package : PackageId)
      (decl : FuncDecl) (member : (package, decl) ∈ declared) : ident.id ≠ decl.name.id :=
    unique.name_apart (functions package decl member) ident.mark marked rfl
  cases change with
  | package | named | underlying =>
      exact accounts.of_eq growth (fun _ _ known _ => known) (fun _ _ _ => rfl) rfl
  | part symbol kind untyped =>
      exact accounts.of_eq growth (fun _ _ => Tables.entity?_of_addSymbol kind)
        (fun _ _ _ => rfl) rfl
  | use ident id entity marked known kind =>
      exact accounts.of_eq growth (fun _ _ known _ => known) (fun package decl member =>
        Tables.objectOf_recordUse_of_ne (apart ident marked package decl member) id) rfl
  | type ident package marked | var ident package decl marked =>
      exact accounts.of_eq growth (fun _ _ => Tables.entity?_of_addSymbol rfl)
        (fun package decl member =>
          Tables.objectOf_recordUse_of_ne (apart ident marked package decl member) _) rfl
  | function package decl member plain fresh =>
      refine accounts.declare growth member (fresh unique)
        (fun id => before.entity?_addSymbol _ id) ?_ ?_ ?_
      · exact Std.TreeMap.getElem?_insert_self
      · simp [Tables.declaredKind?, plain]
      · intro owner other other_mem different
        refine ⟨Tables.objectOf_recordUse_of_ne (fun same => different ?_) _, rfl⟩
        exact unique.function_eq (functions _ _ other_mem) (functions _ _ member) same.symm
  | method scope decl written type member method fresh =>
      refine accounts.declare growth member (fresh unique)
        (before.entity?_declareMethod _ decl _ type) ?_ ?_ ?_
      · rw [Tables.objectOf, Tables.uses_declareMethod]
        exact Std.TreeMap.getElem?_insert_self
      · rw [Tables.declaredKind?, Tables.receiverType?, Tables.receivers_declareMethod,
          if_pos method, Std.TreeMap.getElem?_insert_self]
        rfl
      · intro owner other other_mem different
        have name : decl.name.id ≠ other.name.id := fun same => different
          (unique.function_eq (functions _ _ other_mem) (functions _ _ member) same.symm)
        have number : decl.id ≠ other.id := fun same => different
          (unique.declaration_eq (functions _ _ other_mem) (functions _ _ member) same.symm)
        rw [Tables.objectOf, Tables.receiverType?, Tables.uses_declareMethod,
          Tables.receivers_declareMethod]
        simp [Std.TreeMap.getElem?_insert, name, number, Tables.objectOf, Tables.receiverType?]
  | retype package decl id type member recorded =>
      exact accounts.of_eq growth (fun _ _ known _ => by simpa using known) (fun _ _ _ => rfl) rfl

theorem Step.accounts {before after : Resolving} (unique : program.UniqueIds)
    (functions : ∀ package decl, (package, decl) ∈ declared → decl ∈ program.functions)
    (step : Step scope program.marks before after) (accounts : before.tables.Accounts declared) :
    after.tables.Accounts declared := by
  have growth := step.grows
  have apart (mark : Mark) (marked : mark ∈ program.marks)
      (other : ∀ decl, mark.role ≠ .function decl) (package : PackageId) (decl : FuncDecl)
      (member : (package, decl) ∈ declared) : mark.id ≠ decl.name.id :=
    fun same => other decl (unique.role_of_name (functions package decl member) marked same)
  cases step with
  | push | pop => exact accounts
  | declare place type decl ident marked =>
      exact accounts.of_eq growth (fun _ _ => Tables.entity?_of_addSymbol rfl)
        (fun package decl member => Tables.objectOf_recordUse_of_ne
          (apart ident.mark marked (by simp [Ident.mark]) package decl member) _) rfl
  | refer ident symbol marked found =>
      exact accounts.of_eq growth (fun _ _ known _ => known)
        (fun package decl member => Tables.objectOf_recordUse_of_ne
          (apart ident.mark marked (by simp [Ident.mark]) package decl member) _) rfl
  | select id member symbol selector_marked member_marked found =>
      exact accounts.of_eq growth (fun _ _ known _ => known)
        (fun package decl listed => Tables.objectOf_recordUse_of_ne
          (apart _ member_marked (by simp) package decl listed) symbol) rfl
  | retype symbol type =>
      exact accounts.of_eq growth (fun _ _ known _ => by simpa using known) (fun _ _ _ => rfl) rfl

end Resolution

/-! ## Receivers -/

namespace TypeRef

/-- A predeclared type below outer pointers is one of the universe. -/
def isPlain (type : TypeRef) : Bool :=
  match type.base with
  | .basic name => Predeclared.types.contains name
  | _ => true

end TypeRef

namespace Tables

/-- Types are named or of the universe, and so are receivers. -/
structure Typed (tables : Tables) : Prop where
  typeName : ∀ id symbol, tables.symbol? id = some symbol → symbol.kind = .typeName →
    symbol.type.isPlain = true
  receiver : ∀ (node : NodeId) type, tables.receivers[node]? = some type → type.isPlain = true

variable {before after tables : Tables} {symbol : Symbol} {id : SymbolId} {type : TypeRef}

theorem Typed.of_eq (typed : before.Typed) (symbols : after.symbols = before.symbols)
    (receivers : after.receivers = before.receivers) : after.Typed where
  typeName id symbol found := by
    rw [symbol?, symbols] at found
    exact typed.typeName id symbol found
  receiver node type found := typed.receiver node type (receivers ▸ found)

/-- A new entity keeps tables typed unless it is a type of no known base. -/
theorem Typed.of_push (typed : before.Typed)
    (plain : symbol.kind = .typeName → symbol.type.isPlain = true)
    (symbols : after.symbols = before.symbols.push symbol)
    (receivers : ∀ (node : NodeId) type, after.receivers[node]? = some type →
      before.receivers[node]? = some type ∨ type.isPlain = true) : after.Typed where
  typeName id other found := by
    rw [symbol?, symbols, Array.getElem?_push] at found
    split at found
    · cases found
      exact plain
    · exact typed.typeName id other found
  receiver node type found := (receivers node type found).elim (typed.receiver node type) id

theorem Typed.typeNamed? (typed : tables.Typed) (found : tables.typeNamed? id = some type) :
    type.isPlain = true := by
  rw [Tables.typeNamed?] at found
  cases symbol_eq : tables.symbol? id with
  | none => simp [symbol_eq] at found
  | some symbol =>
      simp only [symbol_eq] at found
      split at found
      · rename_i kind
        cases found
        exact typed.typeName id symbol symbol_eq kind
      · cases found

/-- What is recorded for a function is no type, so a new type for it is not that of a type name. -/
theorem Accounts.symbol?_of_retype {declared : List (PackageId × FuncDecl)}
    (accounts : tables.Accounts declared) {package : PackageId} {decl : FuncDecl}
    (member : (package, decl) ∈ declared) (recorded : tables.objectOf decl.name = some id)
    {other : SymbolId} (found : (tables.setType id type).symbol? other = some symbol)
    (kind : symbol.kind = .typeName) : tables.symbol? other = some symbol := by
  by_cases same : id = other
  · subst same
    obtain ⟨owner, -, declares⟩ := accounts.recorded package decl id member recorded
    obtain ⟨entity, known, callable⟩ := declares.isCallable
    have entity_eq : (tables.setType id type).entity? id = some symbol.entity :=
      congrArg (Option.map Symbol.entity) found
    rw [Tables.entity?_setType, known] at entity_eq
    cases entity_eq
    rw [Symbol.entity, kind] at callable
    cases callable
  · rwa [Tables.symbol?, Tables.setType, Array.getElem?_modify, if_neg same] at found

end Tables

namespace Resolution

theorem resolveType_isPlain {tables : Tables} (typed : tables.Typed) (scope : FileScope)
    (written : TypeExpr) : (resolveType scope tables written).isPlain = true :=
  resolveType_of_typeNamed? (fun _ _ => typed.typeNamed?) rfl (fun _ => id) rfl (fun _ _ => rfl)
    scope written

theorem Change.typed {declared : List (PackageId × FuncDecl)} {marks : List Mark}
    {before after : Tables} (change : Change declared marks before after)
    (accounts : before.Accounts declared) (typed : before.Typed) : after.Typed := by
  cases change with
  | package | use | named | underlying => exact typed.of_eq rfl rfl
  | part symbol kind untyped =>
      exact typed.of_push (fun same => absurd same untyped) rfl fun _ _ found => .inl found
  | type ident package marked => exact typed.of_push (fun _ => rfl) rfl fun _ _ found => .inl found
  | var ident package decl marked | function package decl member plain fresh =>
      exact typed.of_push (by simp) rfl fun _ _ found => .inl found
  | method scope decl written type member method fresh =>
      refine typed.of_push (by simp) (before.symbols_declareMethod _ decl _ type)
        fun node receiver found => ?_
      rw [Tables.receivers_declareMethod] at found
      rcases found_of_insert found with ⟨-, rfl⟩ | found
      · exact .inr (resolveType_isPlain typed scope written)
      · exact .inl found
  | retype package decl id type member recorded =>
      refine ⟨fun other symbol found kind => ?_, typed.receiver⟩
      exact typed.typeName other symbol (accounts.symbol?_of_retype member recorded found kind) kind

end Resolution

/-! ## Whole programs -/

namespace Predeclared

theorem accounts (declared : List (PackageId × FuncDecl)) : tables.Accounts declared where
  callable _ _ known _ := .inl known
  recorded _ decl id _ recorded := by
    have none := uses_eq_none decl.name.id
    rw [Tables.objectOf, none] at recorded
    cases recorded

theorem isPlain_all : ∀ symbol ∈ tables.symbols.toList, symbol.kind = .typeName →
    symbol.type.isPlain = true := by
  decide +kernel

theorem package_all : ∀ symbol ∈ tables.symbols.toList, symbol.kind.isCallable = true →
    symbol.package = sync := by
  decide +kernel

theorem typed : tables.Typed where
  typeName _ symbol found :=
    isPlain_all symbol (Array.mem_toList_iff.mpr (Array.mem_of_getElem? found))
  receiver node _ found := by
    rw [receivers_eq_none node] at found
    cases found

/-- The predeclared methods belong to package `sync`. -/
theorem package_of_isCallable {id : SymbolId} {entity : Entity}
    (known : tables.entity? id = some entity) (callable : entity.kind.isCallable = true) :
    entity.package = sync := by
  obtain ⟨symbol, found, rfl⟩ := Option.map_eq_some_iff.mp known
  exact package_all symbol (Array.mem_toList_iff.mpr (Array.mem_of_getElem? found)) callable

end Predeclared

namespace Resolution

variable {program : Program} {units : List (FileScope × File)} {declared : Tables}
  {final : Resolving}

theorem Resolves.functions (run : Resolves program units declared final) (package : PackageId)
    (decl : FuncDecl) (member : (package, decl) ∈ declaredIn units) : decl ∈ program.functions :=
  functions_of_units run.files member

/-- In the tables of a program each function and each method is that of its declaration. -/
theorem Resolves.accounts (unique : program.UniqueIds)
    (run : Resolves program units declared final) : final.tables.Accounts (declaredIn units) := by
  have early : declared.Accounts (declaredIn units) :=
    kept_of_steps (fun _ _ change => change.accounts unique run.functions) run.changes
      (Predeclared.accounts _)
  have keeps (before after : Resolving) (step : StepIn units program.marks before after) :
      before.tables.Accounts (declaredIn units) → after.tables.Accounts (declaredIn units) := by
    obtain ⟨unit, -, step⟩ := step
    exact step.accounts unique run.functions
  exact kept_of_steps keeps run.steps early

theorem Step.receivers_eq {scope : FileScope} {marks : List Mark} {before after : Resolving}
    (step : Step scope marks before after) : after.tables.receivers = before.tables.receivers := by
  cases step <;> rfl

theorem Resolves.isPlain (unique : program.UniqueIds)
    (run : Resolves program units declared final) {decl : FuncDecl} {receiver : TypeRef}
    (recorded : final.tables.receiverType? decl = some receiver) : receiver.isPlain = true := by
  have keeps (before after : Tables)
      (change : Change (declaredIn units) program.marks before after) :
      before.Accounts (declaredIn units) ∧ before.Typed →
        after.Accounts (declaredIn units) ∧ after.Typed :=
    fun both => ⟨change.accounts unique run.functions both.1, change.typed both.1 both.2⟩
  have typed := (kept_of_steps keeps run.changes ⟨Predeclared.accounts _, Predeclared.typed⟩).2
  have kept : final.tables.receivers = declared.receivers := by
    have keeps (before after : Resolving) (step : StepIn units program.marks before after)
        (same : before.tables.receivers = declared.receivers) :
        after.tables.receivers = declared.receivers := by
      obtain ⟨unit, -, step⟩ := step
      rw [step.receivers_eq, same]
    exact kept_of_steps keeps run.steps rfl
  rw [Tables.receiverType?, kept] at recorded
  exact typed.receiver decl.id receiver recorded

end Resolution

end Relock
