import Relock.Proofs.Renaming.Growth
import Relock.Proofs.Resolution.Stages

/-!
# What signatures are about

The type of a receiver is written without the name of a package, and so it is a type of the package
that declares the method, or one of the universe, where no type has methods. Signatures set the types
of functions and leave other types alone, so that written types keep their meaning meanwhile.
-/

namespace Relock

namespace TypeExpr

/-- Below outer pointers stands a type of an imported package. -/
def isQualified (type : TypeExpr) : Bool :=
  match type.stripPointer with
  | qualified _ _ => true
  | _ => false

end TypeExpr

/-! ## Packages of types -/

namespace Tables

/-- The name of a type belongs to the package of the type. -/
def Titled (tables : Tables) : Prop :=
  ∀ id symbol, tables.symbol? id = some symbol → symbol.kind = .typeName →
    ∀ ref, symbol.type.named? = some ref → ref.package = symbol.package

variable {before after tables : Tables}

theorem Titled.of_eq (titled : before.Titled) (symbols : after.symbols = before.symbols) :
    after.Titled := by
  intro id symbol found
  rw [symbol?, symbols] at found
  exact titled id symbol found

theorem Titled.of_push (titled : before.Titled) {symbol : Symbol}
    (own : symbol.kind = .typeName → ∀ ref, symbol.type.named? = some ref →
      ref.package = symbol.package)
    (symbols : after.symbols = before.symbols.push symbol) : after.Titled := by
  intro id other found
  rw [symbol?, symbols, Array.getElem?_push] at found
  split at found
  · cases found
    exact own
  · exact titled id other found

theorem typeNamed?_eq_some_iff {id : SymbolId} {type : TypeRef} :
    tables.typeNamed? id = some type ↔
      ∃ symbol, tables.symbol? id = some symbol ∧ symbol.kind = .typeName ∧ symbol.type = type := by
  rw [typeNamed?]
  cases tables.symbol? id <;> simp

end Tables

theorem Predeclared.titled : Predeclared.tables.Titled := by
  have all : ∀ symbol ∈ tables.symbols.toList, symbol.kind = .typeName →
      ∀ ref ∈ symbol.type.named?, ref.package = symbol.package := by
    decide +kernel
  intro id symbol found kind
  exact all symbol (Array.mem_toList_iff.mpr (Array.mem_of_getElem? found)) kind

namespace Resolution

theorem Change.titled {declared : List (PackageId × FuncDecl)} {marks : List Mark}
    {before after : Tables} (change : Change declared marks before after)
    (accounts : before.Accounts declared) (titled : before.Titled) : after.Titled := by
  cases change with
  | package | use | named | underlying => exact titled.of_eq rfl
  | part symbol kind untyped => exact titled.of_push (fun same => absurd same untyped) rfl
  | type ident package marked =>
      refine titled.of_push (fun _ ref named => ?_) rfl
      cases named
      rfl
  | var ident package decl marked => exact titled.of_push (by simp) rfl
  | function package decl member plain fresh => exact titled.of_push (by simp) rfl
  | method scope decl written type member method fresh =>
      exact titled.of_push (by simp) (before.symbols_declareMethod _ decl _ type)
  | retype package decl id type member recorded =>
      intro other symbol found kind
      exact titled other symbol (accounts.symbol?_of_retype member recorded found kind) kind

end Resolution

open Resolution in
theorem Program.Reaches.titled {program : Program} (unique : program.UniqueIds) {tables : Tables}
    (reaches : program.Reaches tables) : tables.Titled := by
  have keeps (before after : Tables)
      (change : Change (declaredIn program.units) program.marks before after) :
      before.Accounts (declaredIn program.units) ∧ before.Titled →
        after.Accounts (declaredIn program.units) ∧ after.Titled :=
    fun both => ⟨change.accounts unique (fun _ _ => functions_of_units program.map_snd_units)
      both.1, change.titled both.1 both.2⟩
  exact (kept_of_steps keeps reaches ⟨Predeclared.accounts _, Predeclared.titled⟩).2

/-! ## The universe -/

/-- What belongs to the universe. -/
def View.universe : View where
  node _ := False
  member package _ := package = Predeclared.universal
  underlying _ := False
  method _ _ := False

namespace Program

open Resolution

variable (program : Program)

/-- No file changes what names mean in the universe. -/
theorem imported_keeps_universe : program.imported.2.Keeps .universe program.completed := by
  have names : Always (Tables.Keeps .universe) (namesRound program.units) := by
    refine .forM fun unit member => .forM fun decl _ => declareNames_keeps ?_
    have own : unit.1.package ≠ Predeclared.universal := by
      have beyond := (program.sees_of_mem_units member).owns.1
      intro same
      rw [same] at beyond
      exact absurd beyond (by decide)
    exact ⟨fun _ _ => id, fun _ _ => own, fun _ _ _ => ⟨id, fun _ => id⟩⟩
  have types : Always (Tables.Keeps .universe) (typesRound program.units) :=
    .forM fun _ _ => .forM fun _ _ => completeType_keeps (fun _ _ => id) id
  exact (Tables.Keeps.of_steps (names _).1).trans (.of_steps (types _).1)

theorem universe_kept : Predeclared.tables.Keeps .universe program.completed :=
  (Tables.Keeps.of_steps (declareScopes_keeps program.files _).1).trans
    program.imported_keeps_universe

/-- No type of the universe is a named one. -/
theorem named?_of_universal {name : String} {id : SymbolId} {type : TypeRef}
    (found : program.completed.lookup Predeclared.universal name = some id)
    (type_eq : program.completed.typeNamed? id = some type) : type.named? = none := by
  have keeps := program.universe_kept
  rw [keeps.lookup _ _ rfl] at found
  have all : ∀ symbol ∈ Predeclared.tables.symbols.toList,
      symbol.package = Predeclared.universal → symbol.type.named? = none := by
    decide +kernel
  obtain ⟨kind, known, -⟩ := Predeclared.coherent.member _ name id found
  obtain ⟨symbol, symbol_eq, entity⟩ := Option.map_eq_some_iff.mp known
  have old := Tables.lt_size_of_entity? known
  obtain ⟨later, later_eq, -, rfl⟩ := Tables.typeNamed?_eq_some_iff.mp type_eq
  have typeOf := keeps.typeOf id old trivial
  rw [Tables.typeOf, Tables.typeOf, later_eq, symbol_eq] at typeOf
  dsimp only at typeOf
  rw [typeOf]
  exact all symbol (Array.mem_toList_iff.mpr (Array.mem_of_getElem? symbol_eq))
    (congrArg Entity.package entity)

/-- The named type of a receiver belongs to the package of the method. -/
theorem package_of_receiver (unique : program.UniqueIds) (scope : FileScope) {written : TypeExpr}
    (plain : written.isQualified = false) {ref : NamedRef}
    (named : (resolveType scope program.completed written).named? = some ref) :
    ref.package = scope.package := by
  induction written with
  | name name =>
      rw [resolveType] at named
      cases type_eq : ((program.completed.lookup scope.package name).or
          (program.completed.lookup Predeclared.universal name)).bind
            program.completed.typeNamed? with
      | none =>
          rw [type_eq] at named
          cases named
      | some type =>
          rw [type_eq, Option.getD_some] at named
          obtain ⟨id, found, type_eq⟩ := Option.bind_eq_some_iff.mp type_eq
          rcases Option.or_eq_some_iff.mp found with own | ⟨-, universal⟩
          · obtain ⟨kind, known, -⟩ := program.reaches_completed.coherent.member _ name id own
            obtain ⟨symbol, symbol_eq, is_type, rfl⟩ :=
              Tables.typeNamed?_eq_some_iff.mp type_eq
            rw [Tables.entity?, symbol_eq, Option.map_some, Option.some_inj] at known
            exact (program.reaches_completed.titled unique id symbol symbol_eq is_type ref
              named).trans (congrArg Entity.package known)
          · rw [program.named?_of_universal universal type_eq] at named
            cases named
  | qualified package name => cases plain
  | pointer target ih =>
      refine ih plain ?_
      rw [resolveType] at named
      split at named
      · cases named
      · exact named
  | func => cases named
  | funcOf result => cases named
  | other => cases named

end Program

/-! ## Written types -/

/-- What the meaning of written types rests on. -/
def View.written (tables : Tables) : View where
  node _ := False
  typed id := ∃ symbol, tables.symbol? id = some symbol ∧ symbol.kind = .typeName
  underlying _ := False
  method _ _ := False

namespace Tables.Keeps

theorem toWritten {view : View} {before after tables : Tables} (keeps : before.Keeps view after)
    (members : ∀ package name, view.member package name)
    (types : ∀ id symbol, tables.symbol? id = some symbol → symbol.kind = .typeName →
      view.typed id) : before.Keeps (.written tables) after :=
  keeps.weaken (fun _ => False.elim) (fun id _ ⟨symbol, found, kind⟩ => types id symbol found kind)
    (fun package name _ => members package name) (fun _ => False.elim) fun _ _ => False.elim

variable {before after : Tables} (keeps : before.Keeps (.written before) after)
include keeps

theorem importedPackage?_eq {id : SymbolId} (old : id < before.symbols.size) :
    after.importedPackage? id = before.importedPackage? id := by
  obtain ⟨⟨_, kind, _, _, _⟩, found⟩ : ∃ symbol, before.symbol? id = some symbol :=
    ⟨_, Array.getElem?_eq_getElem old⟩
  obtain ⟨⟨_, other, _, _, _⟩, other_found, untyped⟩ := keeps.exists_symbol? found
  cases Symbol.kind_eq_of_untyped untyped
  rw [importedPackage?, importedPackage?, found, other_found]
  cases kind <;> rfl

theorem typeNamed?_eq {id : SymbolId} (old : id < before.symbols.size) :
    after.typeNamed? id = before.typeNamed? id := by
  have found : before.symbol? id = some before.symbols[id] := Array.getElem?_eq_getElem old
  obtain ⟨other, other_found, untyped⟩ := keeps.exists_symbol? found
  have kind : other.kind = before.symbols[id].kind := Symbol.kind_eq_of_untyped untyped
  rw [Tables.typeNamed?, Tables.typeNamed?, found, other_found]
  by_cases is_type : before.symbols[id].kind = .typeName
  · have type := keeps.typeOf id old ⟨_, found, is_type⟩
    rw [Tables.typeOf, Tables.typeOf, found, other_found] at type
    simp only [kind, is_type, type]
  · simp only [kind, is_type, if_false]

/-- Written types mean the same as long as the names of types do. -/
theorem resolveType_eq (bounded : before.Bounded) {scope : FileScope}
    (imports : ∀ (name : String) id, scope.imports[name]? = some id → id < before.symbols.size)
    (written : TypeExpr) :
    Resolution.resolveType scope after written = Resolution.resolveType scope before written := by
  have named_eq {found : Option SymbolId}
      (old : ∀ id, found = some id → id < before.symbols.size) :
      (found.bind after.typeNamed?).getD .unknown =
        (found.bind before.typeNamed?).getD .unknown := by
    cases found with
    | none => rfl
    | some id => rw [Option.bind_some, Option.bind_some, keeps.typeNamed?_eq (old id rfl)]
  have member_lt {package : PackageId} {name : String} {id : SymbolId}
      (found : before.lookup package name = some id) : id < before.symbols.size :=
    bounded.lookup package name id found
  induction written with
  | name name =>
      rw [Resolution.resolveType, Resolution.resolveType, keeps.lookup _ _ trivial,
        keeps.lookup _ _ trivial]
      refine named_eq fun id found => ?_
      rcases Option.or_eq_some_iff.mp found with own | ⟨-, universal⟩
      · exact member_lt own
      · exact member_lt universal
  | qualified package name =>
      have found_eq : ((scope.imports[package]?.bind after.importedPackage?).bind
          fun target => after.lookup target name) =
            ((scope.imports[package]?.bind before.importedPackage?).bind
              fun target => before.lookup target name) := by
        cases import_eq : scope.imports[package]? with
        | none => rfl
        | some id =>
            rw [Option.bind_some, Option.bind_some,
              keeps.importedPackage?_eq (imports _ id import_eq)]
            exact congrArg _ (funext fun target => keeps.lookup _ _ trivial)
      rw [Resolution.resolveType, Resolution.resolveType, found_eq]
      refine named_eq fun id found => ?_
      obtain ⟨target, -, found⟩ := Option.bind_eq_some_iff.mp found
      exact member_lt found
  | pointer target ih => rw [Resolution.resolveType, Resolution.resolveType, ih]
  | func => rfl
  | funcOf result ih => rw [Resolution.resolveType, Resolution.resolveType, ih]
  | other => rfl

end Tables.Keeps

/-! ## What signatures leave alone -/

/-- The names of a round keep their records and all that is no function keeps its type. -/
def View.unsigned (marks : List Mark) (tables : Tables) : View where
  node node := ∃ mark ∈ marks, mark.id = node
  typed id := ∀ symbol, tables.symbol? id = some symbol → symbol.kind ≠ .func
  method _ _ := False

namespace Decl

theorem role_of_recorded_names {decl : Decl} {mark : Mark} (listed : mark ∈ decl.recorded .names) :
    mark.role = .name ∨ ∃ function, function.isMethod = false ∧ mark.role = .function function := by
  cases decl with
  | type spec =>
      cases List.mem_singleton.mp listed
      exact .inl rfl
  | func decl =>
      by_cases method : decl.isMethod <;> simp [recorded, method] at listed
      rw [listed]
      exact .inr ⟨decl, Bool.eq_false_iff.mpr method, rfl⟩
  | var spec =>
      obtain ⟨ident, -, rfl⟩ := List.mem_map.mp listed
      exact .inl rfl

end Decl

namespace Program

theorem recorded_subset (program : Program) (round : Round) :
    program.recorded round ⊆ program.marks := by
  intro mark listed
  obtain ⟨decl, declared, recorded⟩ := List.mem_flatMap.mp listed
  rw [marks_eq]
  exact List.mem_flatMap.mpr ⟨decl, declared, decl.recorded_subset round recorded⟩

/-- The names of the first round are no names of methods, and no numbers of declarations. -/
theorem UniqueIds.names_apart {program : Program} (unique : program.UniqueIds) {mark : Mark}
    (listed : mark ∈ program.recorded .names) {decl : FuncDecl}
    (member : decl ∈ program.functions) (method : decl.isMethod = true) :
    mark.id ≠ decl.name.id ∧ mark.id ≠ decl.id := by
  have marked := program.recorded_subset .names listed
  obtain ⟨other, -, recorded⟩ := List.mem_flatMap.mp listed
  constructor
  · intro same
    have role := unique.role_of_name member marked same
    rcases Decl.role_of_recorded_names recorded with name | ⟨function, plain, function_eq⟩
    · cases name.symm.trans role
    · cases function_eq.symm.trans role
      rw [method] at plain
      cases plain
  · intro same
    have declaration : ⟨decl.id, .declaration decl⟩ ∈ program.marks :=
      program.marks_of_function member List.mem_cons_self
    cases unique.eq_of_id_eq marked declaration same
    rcases Decl.role_of_recorded_names recorded with name | ⟨function, -, function_eq⟩
    · cases name
    · cases function_eq

end Program

/-- What is recorded for a function is its entity. -/
theorem Program.entity_of_function {program : Program} (unique : program.UniqueIds)
    {unit : FileScope × File} (member : unit ∈ program.units) {decl : FuncDecl}
    (declared : decl ∈ unit.2.functions) (plain : decl.isMethod = false) {id : SymbolId}
    (recorded : program.completed.objectOf decl.name = some id) :
    program.completed.entity? id = some ⟨decl.name.name, .func, unit.1.package⟩ := by
  have entry := Resolution.mem_declaredIn.mpr ⟨unit, member, declared, rfl⟩
  obtain ⟨owner, -, -, kind, kind_eq, known⟩ :=
    (program.reaches_completed.accounts unique).recorded _ decl id entry recorded
  rw [Tables.declaredKind?, plain] at kind_eq
  cases kind_eq
  have listed_mem := File.mem_functions.mp declared
  have mark : ⟨decl.name.id, .function decl⟩ ∈ (Decl.func decl).recorded .names := by
    simp [Decl.recorded, plain]
  obtain ⟨entity, entity_eq, package, -⟩ :=
    Program.member_of_name unique member listed_mem mark recorded
  cases known.symm.trans entity_eq
  rw [known, ← package]

namespace Resolution

theorem mem_recorded_names {program : Program} {decl : FuncDecl}
    (member : decl ∈ program.functions) (plain : decl.isMethod = false) :
    ∃ mark ∈ program.recorded .names, mark.id = decl.name.id := by
  refine ⟨⟨decl.name.id, .function decl⟩, List.mem_flatMap.mpr ⟨.func decl,
    Program.mem_functions.mp member, ?_⟩, rfl⟩
  simp [Decl.recorded, plain]

section Signatures

variable {program : Program} (unique : program.UniqueIds) {unit : FileScope × File}
  {reached : Tables} {units : List (FileScope × File)}
include unique

/-- A signature leaves the names and all types alone. -/
theorem signature_keeps_names (listed : unit ∈ program.units) {decl : FuncDecl}
    (declared : decl ∈ unit.2.functions)
    (keeps : program.completed.Keeps (.unsigned (program.recorded .names) program.completed)
      reached) :
    Leads (Tables.Keeps (.unsigned (program.recorded .names) program.completed)) reached
      (declareSignature unit.1 decl) := by
  have member : decl ∈ program.functions :=
    functions_of_units program.map_snd_units (mem_declaredIn.mpr ⟨unit, listed, declared, rfl⟩)
  refine declareSignature_keeps keeps (fun plain => ?_) (fun method => ?_) fun _ _ _ _ _ => id
  · refine ⟨mem_recorded_names member plain, fun id recorded typed => ?_⟩
    obtain ⟨symbol, found, entity⟩ := Option.map_eq_some_iff.mp
      (Program.entity_of_function unique listed declared plain recorded)
    exact typed symbol found (congrArg Entity.kind entity)
  · constructor
    · rintro ⟨mark, names, same⟩
      exact (unique.names_apart names member method).1 same
    · rintro ⟨mark, names, same⟩
      exact (unique.names_apart names member method).2 same

/-- Signatures of some files leave the names and all types alone. -/
theorem signatures_keep_names (some_units : units ⊆ program.units) :
    program.completed.Keeps (.unsigned (program.recorded .names) program.completed)
      ((signaturesRound units).run program.completed).2 := by
  refine .of_steps (Leads.forM fun unit listed reached steps => ?_).1
  refine .forM fun decl declared later more => ?_
  exact signature_keeps_names unique (some_units listed) declared (.of_steps (steps.trans more))

omit unique in
/-- Meanwhile written types keep their meaning. -/
theorem resolveType_of_written
    (keeps : program.completed.Keeps (.written program.completed) reached)
    (listed : unit ∈ program.units) (written : TypeExpr) :
    resolveType unit.1 reached written = resolveType unit.1 program.completed written := by
  have growth := (grows_of_changes program.steps_named).trans
    (grows_of_changes program.steps_completed)
  exact keeps.resolveType_eq (bounded_of_changes program.reaches_completed)
    (program.imports_lt_size growth unit listed) written

omit unique in
theorem written_of_unsigned {marks : List Mark}
    (keeps : program.completed.Keeps (.unsigned marks program.completed) reached) :
    program.completed.Keeps (.written program.completed) reached := by
  refine keeps.toWritten (fun _ _ => trivial) ?_
  intro id symbol found is_type other other_found func
  cases found.symm.trans other_found
  cases is_type.symm.trans func

/-- After the signatures of some files, those of others do what the tables before all signatures let
expect. -/
theorem signatures_keep_after {earlier : List (FileScope × File)} (before : earlier ⊆ program.units)
    (now : units ⊆ program.units) {view : View} (members : ∀ package name, view.member package name)
    (types : ∀ id symbol, program.completed.symbol? id = some symbol → symbol.kind = .typeName →
      view.typed id) (plain : ∀ unit ∈ units, ∀ decl ∈ unit.2.functions, decl.isMethod = false →
      view.node decl.name.id ∧
        ∀ id, program.completed.objectOf decl.name = some id → ¬view.typed id)
    (method : ∀ unit ∈ units, ∀ decl ∈ unit.2.functions, decl.isMethod = true →
      ¬view.node decl.name.id ∧ ¬view.node decl.id)
    (added : ∀ unit ∈ units, ∀ decl ∈ unit.2.functions, ∀ receiver ref,
      decl.receiver = some receiver →
      (resolveType unit.1 program.completed receiver.type).named? = some ref →
        ¬view.method ref decl.name.name) :
    ((signaturesRound earlier).run program.completed).2.Keeps view
      ((signaturesRound units).run ((signaturesRound earlier).run program.completed).2).2 := by
  have names := signatures_keep_names unique before
  refine declareSignatures_keep (fun unit listed decl declared is_plain => ?_) method
    fun unit listed decl declared receiver reached ref receiver_eq keeps named _ => ?_
  · obtain ⟨seen, untyped⟩ := plain unit listed decl declared is_plain
    refine ⟨seen, fun id recorded => untyped id ?_⟩
    rwa [names.objectOf ?_] at recorded
    have entry := mem_declaredIn.mpr ⟨unit, now listed, declared, rfl⟩
    exact mem_recorded_names (functions_of_units program.map_snd_units entry) is_plain
  · -- The names of types keep their types through the earlier signatures and the present ones.
    have whole : program.completed.Keeps (.written program.completed) reached :=
      (written_of_unsigned names).trans (keeps.toWritten members types)
    rw [resolveType_of_written whole (now listed)] at named
    exact added unit listed decl declared receiver ref receiver_eq named

end Signatures

/-! ## Receivers -/

/-- A signature records the receiver of its method, if it has one. -/
theorem receivers_declareSignature (scope : FileScope) (decl : FuncDecl) (tables : Tables) :
    ((declareSignature scope decl).run tables).2.receivers =
      match decl.receiver with
      | some receiver => tables.receivers.insert decl.id (resolveType scope tables receiver.type)
      | none => tables.receivers := by
  cases receiver : decl.receiver with
  | some written =>
      have run : ((declareSignature scope decl).run tables).2 =
          tables.declareMethod scope.package decl (resolveType scope tables written.type)
            (.ofResult (decl.result.map (resolveType scope tables))) := by
        rw [← run_declareMethod]
        simp only [declareSignature, receiver]
        rfl
      rw [run, Tables.receivers_declareMethod]
  | none =>
      simp only [declareSignature, receiver, StateT.run_bind, StateT.run_get, pure_bind]
      cases tables.objectOf decl.name <;> rfl

/-- The functions and methods of files, each with what its file sees. -/
def functionsIn (units : List (FileScope × File)) : List (FileScope × FuncDecl) :=
  units.flatMap fun unit => unit.2.functions.map (unit.1, ·)

theorem mem_functionsIn {units : List (FileScope × File)} {item : FileScope × FuncDecl} :
    item ∈ functionsIn units ↔ ∃ unit ∈ units, unit.1 = item.1 ∧ item.2 ∈ unit.2.functions := by
  obtain ⟨scope, decl⟩ := item
  simp [functionsIn, and_comm]

theorem signaturesRound_eq (units : List (FileScope × File)) :
    signaturesRound units = (functionsIn units).forM fun item => declareSignature item.1 item.2 := by
  have one (unit : FileScope × File) : unit.2.functions.forM (declareSignature unit.1) =
      (unit.2.functions.map (unit.1, ·)).forM fun item => declareSignature item.1 item.2 := by
    induction unit.2.functions with
    | nil => rfl
    | cons decl decls ih => exact congrArg (declareSignature unit.1 decl >>= fun _ => ·) ih
  rw [functionsIn, forM_flatMap]
  exact congrArg units.forM (funext one)

theorem receiverType?_of_apart {decl : FuncDecl} {items : List (FileScope × FuncDecl)}
    (apart : ∀ item ∈ items, item.2.id ≠ decl.id) (tables : Tables) :
    ((items.forM fun item => declareSignature item.1 item.2).run tables).2.receiverType? decl =
      tables.receiverType? decl := by
  induction items generalizing tables with
  | nil => rfl
  | cons item items ih =>
      rw [List.forall_mem_cons] at apart
      refine (ih apart.2 ((declareSignature item.1 item.2).run tables).2).trans ?_
      rw [Tables.receiverType?, Tables.receiverType?, receivers_declareSignature]
      cases item.2.receiver with
      | none => rfl
      | some receiver => simp [Std.TreeMap.getElem?_insert, apart.1]

end Resolution

namespace Program

open Resolution

theorem map_snd_functionsIn (program : Program) :
    (functionsIn program.units).map Prod.snd = program.functions := by
  rw [functionsIn, List.map_flatMap, Program.functions, ← program.map_snd_units, List.flatMap_map]
  simp [Function.comp_def]

/-- The receiver of a method has the type that is written, as types are when they are complete. -/
theorem receiverType?_signed {program : Program} (unique : program.UniqueIds)
    {unit : FileScope × File} (listed : unit ∈ program.units) {decl : FuncDecl}
    (declared : decl ∈ unit.2.functions) {receiver : Receiver}
    (receiver_eq : decl.receiver = some receiver) :
    program.signed.receiverType? decl =
      some (resolveType unit.1 program.completed receiver.type) := by
  have apart := unique.pairwise_functions
  rw [← program.map_snd_functionsIn, List.pairwise_map] at apart
  have item_mem : (unit.1, decl) ∈ functionsIn program.units :=
    mem_functionsIn.mpr ⟨unit, listed, rfl, declared⟩
  obtain ⟨earlier, later, split⟩ := List.append_of_mem item_mem
  rw [split, List.pairwise_append, List.pairwise_cons] at apart
  have keeps : program.completed.Keeps (.unsigned (program.recorded .names) program.completed)
      ((earlier.forM fun item => declareSignature item.1 item.2).run program.completed).2 := by
    refine .of_steps (Leads.forM fun item member reached steps => ?_).1
    obtain ⟨other, other_mem, scope, inside⟩ :=
      mem_functionsIn.mp (split ▸ List.mem_append_left _ member)
    rw [← scope]
    exact signature_keeps_names unique other_mem inside (.of_steps steps)
  have later_apart (item : FileScope × FuncDecl) (member : item ∈ later) : item.2.id ≠ decl.id := by
    intro same
    have in_program (item : FileScope × FuncDecl) (member : item ∈ functionsIn program.units) :
        item.2 ∈ program.functions := program.map_snd_functionsIn ▸ List.mem_map_of_mem member
    have item_in := in_program item (split ▸ by simp [member])
    exact apart.2.1.1 item member
      (congrArg (·.name.id) (unique.declaration_eq item_in (in_program _ item_mem) same)).symm
  rw [Program.signed, signaturesRound_eq, split, run_forM_append]
  refine (receiverType?_of_apart later_apart ((declareSignature unit.1 decl).run _).2).trans ?_
  rw [Tables.receiverType?, receivers_declareSignature, receiver_eq]
  exact Std.TreeMap.getElem?_insert_self.trans
    (congrArg some (resolveType_of_written (written_of_unsigned keeps) listed receiver.type))

theorem receiverType?_resolve (program : Program) (decl : FuncDecl) :
    program.resolve.receiverType? decl = program.signed.receiverType? decl := by
  rw [program.resolve_eq]
  refine @kept_of_steps _ _ (fun state : Resolving => state.tables.receiverType? decl =
    program.signed.receiverType? decl) (fun before after step earlier => ?_) _ _
      program.steps_resolved rfl
  obtain ⟨unit, member, step⟩ := step
  rw [Tables.receiverType?, step.receivers_eq]
  exact earlier

end Program

/-! ## What values leave alone -/

/-- The names of a round keep their records. -/
def View.recorded (marks : List Mark) : View where
  node node := ∃ mark ∈ marks, mark.id = node
  typed _ := False

namespace Program

theorem UniqueIds.recorded_decl {program : Program} (unique : program.UniqueIds) {decl : Decl}
    (declared : decl ∈ program.decls) (round : Round) : Mark.Unique (decl.recorded round) := by
  have part : (decl.recorded round).Sublist (program.recorded round) :=
    List.sublist_flatten_of_mem (List.mem_map_of_mem declared)
  exact (unique.recorded_round round).sublist (part.map Mark.id)

theorem decl_mem_of_units {program : Program} {unit : FileScope × File}
    (member : unit ∈ program.units) {decl : Decl} (declared : decl ∈ unit.2.decls) :
    decl ∈ program.decls :=
  List.mem_flatMap.mpr ⟨unit.2, (List.of_mem_zip member).2, declared⟩

end Program

namespace Resolution

/-- Values of some files leave the records of names alone. -/
theorem values_keep_names {program : Program} (unique : program.UniqueIds)
    {units : List (FileScope × File)} (some_units : units ⊆ program.units) (state : Resolving) :
    state.tables.Keeps (.recorded (program.recorded .names))
      ((valuesRound units).run state).2.tables := by
  refine resolveValues_keep (fun unit listed spec declared ident named => ?_)
    fun unit listed spec declared => ?_ <;>
    have decl_mem := File.mem_vars.mp declared <;>
    have declared := Program.decl_mem_of_units (some_units listed) decl_mem
  · refine ⟨⟨ident.mark, List.mem_flatMap.mpr ⟨_, declared, ?_⟩, rfl⟩, fun _ _ => id⟩
    exact List.mem_map_of_mem named
  · refine ⟨unique.recorded_decl declared .values, ?_⟩
    rintro mark marked ⟨other, name, same⟩
    have apart : Mark.Apart (program.recorded .names) (program.recorded .values) :=
      unique.recorded_apart nofun
    exact apart other name mark (List.mem_flatMap.mpr ⟨_, declared, marked⟩) same

/-- After the values of some files, those of others set the types of the variables that were declared
for their names. -/
theorem values_keep_after {program : Program} (unique : program.UniqueIds)
    {earlier units : List (FileScope × File)} (before : earlier ⊆ program.units)
    (now : units ⊆ program.units) {view : View}
    (names : ∀ unit ∈ units, ∀ spec ∈ unit.2.vars, ∀ ident ∈ spec.names, view.node ident.id ∧
      ∀ id, program.completed.objectOf ident = some id → ¬view.typed id)
    (values : ∀ unit ∈ units, ∀ spec ∈ unit.2.vars, ∀ mark ∈ exprMarks spec.values,
      ¬view.node mark.id) :
    ((valuesRound earlier).run { tables := program.signed }).2.tables.Keeps view
      ((valuesRound units).run
        ((valuesRound earlier).run { tables := program.signed }).2).2.tables := by
  have signed := signatures_keep_names unique (List.Subset.refl program.units)
  have valued := values_keep_names unique before { tables := program.signed }
  refine resolveValues_keep (fun unit listed spec declared ident named => ?_)
    fun unit listed spec declared => ?_
  · obtain ⟨seen, untyped⟩ := names unit listed spec declared ident named
    refine ⟨seen, fun id recorded => untyped id ?_⟩
    have decl_mem := File.mem_vars.mp declared
    have name : ∃ mark ∈ program.recorded .names, mark.id = ident.id :=
      ⟨ident.mark, List.mem_flatMap.mpr ⟨_, Program.decl_mem_of_units (now listed) decl_mem,
        List.mem_map_of_mem named⟩, rfl⟩
    rw [valued.objectOf name] at recorded
    exact (signed.objectOf name).symm.trans recorded
  · have decl_mem := File.mem_vars.mp declared
    exact ⟨unique.recorded_decl (Program.decl_mem_of_units (now listed) decl_mem) .values,
      values unit listed spec declared⟩

end Resolution

end Relock
