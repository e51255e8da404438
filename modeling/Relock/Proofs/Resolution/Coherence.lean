import Relock.Proofs.Resolution.Program

/-!
# Coherent tables

The scopes of packages and the members of named types lead to entities that say the same of
themselves: a member of a package has that name and that package, and a method of a named type has a
receiver of that type. So what a name or a selector refers to is a method only if the method belongs
to a named type.
-/

namespace Relock

namespace SymbolKind

/-- Members of packages are functions, types and variables, and what is predeclared. -/
def isMember : SymbolKind → Bool
  | var .package | func | builtin | typeName => true
  | _ => false

end SymbolKind

namespace TypeRef

theorem base_of_named? {type : TypeRef} {ref : NamedRef} (named : type.named? = some ref) :
    type.base = .named ref := by
  rw [named?] at named
  split at named
  · rename_i base_eq
    rw [base_eq, Option.some.inj named]
  · cases named

end TypeRef

namespace Tables

variable {package : PackageId} {name : String} {id : SymbolId}

/-- The entity is a member of a package, of the given name. -/
def IsMember (tables : Tables) (package : PackageId) (name : String) (id : SymbolId) : Prop :=
  ∃ kind, tables.entity? id = some ⟨name, kind, package⟩ ∧ kind.isMember = true

/-- The entity is a method of a named type, of the given name. -/
def IsMethod (tables : Tables) (ref : NamedRef) (name : String) (id : SymbolId) : Prop :=
  ∃ receiver package, tables.entity? id = some ⟨name, .method receiver, package⟩ ∧
    receiver.named? = some ref

/-- The methods of a named type and what it is made of are as the entities say. -/
structure Forms (tables : Tables) (ref : NamedRef) (type : NamedType) : Prop where
  methods : ∀ (name : String) id, type.methods[name]? = some id → tables.IsMethod ref name id
  underlying : tables.MadeOf ref type.underlying

/-- Packages and named types are as the entities say. -/
structure Coherent (tables : Tables) : Prop where
  member : ∀ package (name : String) id, tables.lookup package name = some id →
    tables.IsMember package name id
  named : ∀ (ref : NamedRef) type, tables.named[ref]? = some type → tables.Forms ref type

/-- The entity can be referred to: a method only by way of a named type. -/
def Reachable (tables : Tables) (id : SymbolId) : Prop :=
  ∃ entity, tables.entity? id = some entity ∧
    ∀ receiver, entity.kind = .method receiver → ∃ ref, receiver.named? = some ref

variable {before after : Tables} {ref : NamedRef} {type : NamedType}

section Growth

variable (growth : before.Extends after)
include growth

theorem IsMember.extend (member : before.IsMember package name id) :
    after.IsMember package name id := by
  obtain ⟨kind, known, is_member⟩ := member
  exact ⟨kind, growth.entity _ _ known, is_member⟩

theorem IsMethod.extend (method : before.IsMethod ref name id) : after.IsMethod ref name id := by
  obtain ⟨receiver, package, known, named⟩ := method
  exact ⟨receiver, package, growth.entity _ _ known, named⟩

theorem Forms.extend (forms : before.Forms ref type) :
    after.Forms ref type where
  methods name id found := (forms.methods name id found).extend growth
  underlying := forms.underlying.extend growth

theorem Reachable.extend (reachable : before.Reachable id) : after.Reachable id := by
  obtain ⟨entity, known, named⟩ := reachable
  exact ⟨entity, growth.entity _ _ known, named⟩

end Growth

/-- Tables stay coherent if whatever is new in them is as the entities say. -/
theorem Coherent.extend (coherent : before.Coherent) (growth : before.Extends after)
    (member : ∀ package (name : String) id, after.lookup package name = some id →
      before.lookup package name = some id ∨ after.IsMember package name id)
    (named : ∀ (ref : NamedRef) type, after.named[ref]? = some type →
      before.named[ref]? = some type ∨ after.Forms ref type) : after.Coherent where
  member package name id found := by
    rcases member package name id found with old | new
    · exact (coherent.member package name id old).extend growth
    · exact new
  named ref type found := by
    rcases named ref type found with old | new
    · exact (coherent.named ref type old).extend growth
    · exact new

/-- Packages and named types that stay the same stay coherent. -/
theorem Coherent.of_eq (coherent : before.Coherent) (growth : before.Extends after)
    (packages : after.packages = before.packages) (named : after.named = before.named) :
    after.Coherent := by
  refine coherent.extend growth (fun package name id found => .inl ?_)
    (fun ref type found => .inl (named ▸ found))
  rw [lookup, packages] at found
  exact found

/-! ## What names lead to -/

variable {tables : Tables}

theorem IsMember.reachable (member : tables.IsMember package name id) : tables.Reachable id := by
  obtain ⟨kind, known, is_member⟩ := member
  refine ⟨_, known, ?_⟩
  rintro receiver rfl
  cases is_member

theorem Forms.reachable (forms : tables.Forms ref type) (found : type.member? name = some id) :
    tables.Reachable id := by
  rw [NamedType.member?] at found
  cases method : type.methods[name]? with
  | some other =>
      rw [method] at found
      cases found
      obtain ⟨receiver, package, known, named⟩ := forms.methods name id method
      exact ⟨_, known, fun other same => by cases same; exact ⟨ref, named⟩⟩
  | none =>
      rw [method] at found
      have made := forms.underlying
      cases underlying : type.underlying with
      | struct fields =>
          rw [underlying] at found made
          obtain ⟨field, field_found, rfl⟩ := Option.map_eq_some_iff.mp found
          obtain ⟨package, known⟩ := made field (List.mem_of_find?_eq_some field_found)
          exact ⟨_, known, fun receiver same => by cases same⟩
      | interface methods =>
          rw [underlying] at found made
          obtain ⟨package, known⟩ := made name id found
          exact ⟨_, known, fun receiver same => by cases same⟩
      | other type =>
          rw [underlying] at found
          cases found

/-- A member is found in a named type of the table. -/
theorem exists_named_of_searchMember {budget : Nat} {table : Std.TreeMap NamedRef NamedType}
    {waiting : List NamedRef} (found : searchMember name budget table waiting = some id) :
    ∃ (ref : NamedRef) (type : NamedType), table[ref]? = some type ∧
      type.member? name = some id := by
  induction budget generalizing table waiting with
  | zero => cases found
  | succ budget ih =>
      rw [searchMember] at found
      split at found
      · cases found
      · rename_i ref rest _
        cases type_eq : table[ref]? with
        | none => simp [type_eq] at found
        | some type =>
            simp only [type_eq] at found
            cases member : type.member? name with
            | some other =>
                simp only [member] at found
                cases found
                exact ⟨ref, type, type_eq, member⟩
            | none =>
                simp only [member] at found
                obtain ⟨inner, inner_type, inner_eq, inner_member⟩ := ih found
                rw [Std.TreeMap.getElem?_erase] at inner_eq
                split at inner_eq
                · cases inner_eq
                · exact ⟨inner, inner_type, inner_eq, inner_member⟩

theorem Coherent.reachable (coherent : tables.Coherent)
    (found : Resolution.Selectable tables name id) : tables.Reachable id := by
  rcases found with ⟨package, found⟩ | ⟨type, found⟩
  · exact (coherent.member package name id found).reachable
  · obtain ⟨ref, type, type_eq, member⟩ := exists_named_of_searchMember found
    exact (coherent.named ref type type_eq).reachable member

/-! ## What changes keep -/

theorem lookup_addPackage {info : PackageInfo} (empty : info.scope = ∅)
    (found : (tables.addPackage info).2.lookup package name = some id) :
    tables.lookup package name = some id := by
  simp only [lookup, addPackage, Array.getElem?_push] at found ⊢
  split at found
  · rename_i other other_eq
    split at other_eq
    · cases other_eq
      simp [empty] at found
    · rw [other_eq]
      exact found
  · cases found

theorem lookup_bind {other : PackageId} {text : String} {symbol : SymbolId}
    (found : (tables.bind package name symbol).lookup other text = some id) :
    tables.lookup other text = some id ∨ other = package ∧ text = name ∧ id = symbol := by
  simp only [lookup, bind, Array.getElem?_modify] at found ⊢
  by_cases same : package = other
  · subst same
    cases info_eq : tables.packages[package]? with
    | none => simp [info_eq] at found
    | some info =>
        simp only [info_eq, if_true, Option.map_some] at found
        rcases found_of_insert found with ⟨rfl, rfl⟩ | found
        · exact .inr ⟨rfl, rfl, rfl⟩
        · exact .inl found
  · rw [if_neg same] at found
    exact .inl found

theorem entity?_declareAs (ident : Ident) (symbol : Symbol) :
    (tables.declareAs ident symbol).entity? tables.symbols.size = some symbol.entity := by
  have added := tables.entity?_addSymbol symbol tables.symbols.size
  rw [if_pos rfl] at added
  exact added

theorem Coherent.declareAs (coherent : tables.Coherent) (ident : Ident) (symbol : Symbol)
    (kind : symbol.kind.isMember = true) : (tables.declareAs ident symbol).Coherent := by
  refine coherent.extend (.declareAs tables ident symbol) (fun package name id found => ?_)
    (fun ref type found => .inl found)
  rcases lookup_bind found with old | ⟨rfl, rfl, rfl⟩
  · exact .inl old
  · exact .inr ⟨symbol.kind, entity?_declareAs ident symbol, kind⟩

theorem Coherent.declareMethod (coherent : tables.Coherent) (package : PackageId)
    (decl : FuncDecl) (receiver type : TypeRef) :
    (tables.declareMethod package decl receiver type).Coherent := by
  have growth := Extends.declareMethod tables package decl receiver type
  refine coherent.extend growth (fun other name id found => .inl ?_) (fun ref form found => ?_)
  · rw [lookup, packages_declareMethod] at found
    exact found
  · cases named : receiver.named? with
    | none =>
        rw [Tables.declareMethod, addMethodOf, named] at found
        exact .inl found
    | some own =>
        have known := tables.entity?_declareMethod package decl receiver type tables.symbols.size
        rw [if_pos rfl] at known
        rw [Tables.declareMethod, addMethodOf, named] at found
        rcases found_of_modify found with ⟨rfl, old, old_eq, rfl⟩ | found
        · have forms := (coherent.named own old old_eq).extend growth
          refine .inr ⟨fun name id found => ?_, forms.underlying⟩
          rcases found_of_insert found with ⟨rfl, rfl⟩ | found
          · exact ⟨receiver, package, known, named⟩
          · exact forms.methods name id found
        · exact .inl found

end Tables

namespace Resolution

/-- Every change that declarations make keeps tables coherent. -/
theorem Change.coherent {declared : List (PackageId × FuncDecl)} {marks : List Mark}
    {before after : Tables} (change : Change declared marks before after)
    (coherent : before.Coherent) : after.Coherent := by
  have growth := change.grows
  cases change with
  | package info empty =>
      exact coherent.extend growth
        (fun package name id found => .inl (Tables.lookup_addPackage empty found))
        (fun ref type found => .inl found)
  | part symbol kind untyped => exact coherent.of_eq growth rfl rfl
  | use ident id entity marked known kind => exact coherent.of_eq growth rfl rfl
  | type ident package marked => exact coherent.declareAs ident _ rfl
  | var ident package decl marked => exact coherent.declareAs ident _ rfl
  | function package decl member plain fresh => exact coherent.declareAs decl.name _ rfl
  | method scope decl written type member method fresh => exact coherent.declareMethod _ decl _ type
  | named ref =>
      refine coherent.extend growth (fun package name id found => .inl found)
        (fun other type found => ?_)
      rcases found_of_insert found with ⟨-, rfl⟩ | found
      · exact .inr ⟨fun name id found => by simp at found, trivial⟩
      · exact .inl found
  | underlying ref underlying made =>
      refine coherent.extend growth (fun package name id found => .inl found)
        (fun other type found => ?_)
      rcases found_of_modify found with ⟨rfl, old, old_eq, rfl⟩ | found
      · have forms := (coherent.named ref old old_eq).extend growth
        exact .inr ⟨forms.methods, made.extend growth⟩
      · exact .inl found
  | retype package decl id type member recorded => exact coherent.of_eq growth rfl rfl

end Resolution

/-! ## Predeclared tables -/

namespace Predeclared

variable {package : PackageId} {name : String} {id : SymbolId} {ref : NamedRef}

theorem lookup_mem (found : tables.lookup package name = some id) :
    ∃ index : Fin tables.packages.size, index.val = package ∧
      (name, id) ∈ tables.packages[index].scope.toList := by
  rw [Tables.lookup] at found
  split at found
  · rename_i info info_eq
    obtain ⟨bound, rfl⟩ := Array.getElem?_eq_some_iff.mp info_eq
    exact ⟨⟨package, bound⟩, rfl, Std.TreeMap.mem_toList_iff_getElem?_eq_some.mpr found⟩
  · cases found

/-- What the predeclared types are made of is as the entities say. -/
def madeRight (ref : NamedRef) : Underlying → Bool
  | .struct fields => fields.isEmpty
  | .interface methods => methods.toList.all fun method =>
      tables.entity? method.2 == some ⟨method.1, .interfaceMethod (.named ref), sync⟩
  | .other _ => true

theorem madeOf_of_madeRight {underlying : Underlying} (right : madeRight ref underlying = true) :
    tables.MadeOf ref underlying := by
  cases underlying with
  | struct fields =>
      rw [List.isEmpty_iff.mp right]
      simp [Tables.MadeOf]
  | interface methods =>
      intro name id found
      have listed := Std.TreeMap.mem_toList_iff_getElem?_eq_some.mpr found
      exact ⟨sync, by simpa using List.all_eq_true.mp right _ listed⟩
  | other type => trivial

theorem isMember_all : ∀ index : Fin tables.packages.size,
    ∀ entry ∈ tables.packages[index].scope.toList, ∃ entity ∈ tables.entity? entry.2,
      entity.name = entry.1 ∧ entity.package = index ∧ entity.kind.isMember = true := by
  decide +kernel

theorem entity?_method_all : ∀ entry ∈ tables.named.toList, ∀ method ∈ entry.2.methods.toList,
    tables.entity? method.2 = some ⟨method.1, .method (.pointer (.named entry.1)), sync⟩ := by
  decide +kernel

theorem madeRight_all :
    ∀ entry ∈ tables.named.toList, madeRight entry.1 entry.2.underlying = true := by
  decide +kernel

theorem isMember (found : tables.lookup package name = some id) :
    tables.IsMember package name id := by
  obtain ⟨index, rfl, listed⟩ := lookup_mem found
  obtain ⟨entity, known, named, packaged, is_member⟩ := isMember_all index (name, id) listed
  have entity_eq : entity = ⟨name, entity.kind, index⟩ := by
    rw [← packaged]
    exact congrArg (Entity.mk · entity.kind entity.package) named
  exact ⟨entity.kind, known.trans (congrArg some entity_eq), is_member⟩

theorem forms {type : NamedType} (found : tables.named[ref]? = some type) :
    tables.Forms ref type := by
  have listed := Std.TreeMap.mem_toList_iff_getElem?_eq_some.mpr found
  refine ⟨fun name id method => ?_, madeOf_of_madeRight (madeRight_all (ref, type) listed)⟩
  have method_listed := Std.TreeMap.mem_toList_iff_getElem?_eq_some.mpr method
  exact ⟨.pointer (.named ref), sync,
    entity?_method_all (ref, type) listed (name, id) method_listed, rfl⟩

theorem coherent : tables.Coherent := ⟨fun _ _ _ => isMember, fun _ _ => forms⟩

end Predeclared

/-! ## What names and selectors refer to -/

/-- A declaration adds one name to the scopes and keeps the other ones. -/
theorem ScopeStack.of_mem_declare {α : Type} {stack : ScopeStack α} {declared name : String}
    {value found : α} {scope : Scope α} (member : scope ∈ (stack.declare declared value).scopes)
    (found_eq : scope[name]? = some found) :
    found = value ∨ ∃ inner ∈ stack.scopes, inner[name]? = some found := by
  have own {inner : Scope α} (inserted : (inner.insert declared value)[name]? = some found) :
      found = value ∨ inner[name]? = some found := by
    exact (found_of_insert inserted).imp_left fun new => new.2.symm
  rw [declare] at member
  cases scopes : stack.scopes with
  | nil =>
      simp only [scopes, List.mem_singleton] at member
      subst member
      exact (own found_eq).imp_right fun empty => by simp at empty
  | cons first outer =>
      simp only [scopes, List.mem_cons] at member
      rcases member with rfl | member
      · exact (own found_eq).imp_right fun inner => ⟨first, List.mem_cons_self, inner⟩
      · exact .inr ⟨scope, List.mem_cons_of_mem first member, found_eq⟩

namespace Tables

/-- What is recorded exists and can be referred to, or is recorded for the name of a function or
method. -/
structure Refers (declared : List (PackageId × FuncDecl)) (tables : Tables) : Prop where
  known : ∀ (node : NodeId) id, tables.uses[node]? = some id →
    ∃ entity, tables.entity? id = some entity
  use : ∀ (node : NodeId) id, tables.uses[node]? = some id →
    tables.Reachable id ∨ ∃ package decl, (package, decl) ∈ declared ∧ decl.name.id = node
  selection : ∀ (node : NodeId) id, tables.selections[node]? = some id → tables.Reachable id

variable {declared : List (PackageId × FuncDecl)} {before after tables : Tables}
  {symbol id : SymbolId}

theorem Refers.of_eq (refers : before.Refers declared) (growth : before.Extends after)
    (uses : after.uses = before.uses) (selections : after.selections = before.selections) :
    after.Refers declared where
  known node id found := by
    rw [uses] at found
    obtain ⟨entity, known⟩ := refers.known node id found
    exact ⟨entity, growth.entity _ _ known⟩
  use node id found := by
    rw [uses] at found
    exact (refers.use node id found).imp_left (·.extend growth)
  selection node id found := by
    rw [selections] at found
    exact (refers.selection node id found).extend growth

theorem uses_recordUse {node other : NodeId}
    (found : (tables.recordUse node symbol).uses[other]? = some id) :
    id = symbol ∨ tables.uses[other]? = some id :=
  (found_of_insert found).imp_left fun new => new.2.symm

theorem Refers.recordUse (refers : tables.Refers declared) (node : NodeId)
    (reachable : tables.Reachable symbol) : (tables.recordUse node symbol).Refers declared where
  known other id found := by
    rcases uses_recordUse found with rfl | old
    · exact reachable.imp fun _ both => both.1
    · exact refers.known other id old
  use other id found := by
    rcases uses_recordUse found with rfl | old
    · exact .inl reachable
    · exact refers.use other id old
  selection := refers.selection

theorem Refers.recordSelection (refers : tables.Refers declared) (selector member : NodeId)
    (reachable : tables.Reachable symbol) :
    (tables.recordSelection selector member symbol).Refers declared where
  known := (refers.recordUse member reachable).known
  use := (refers.recordUse member reachable).use
  selection other id found := by
    rcases found_of_insert found with ⟨-, rfl⟩ | found
    · exact reachable
    · exact refers.selection other id found

theorem reachable_of_entity? {entity : Entity} (known : tables.entity? id = some entity)
    (kind : entity.kind.isCallable = false) : tables.Reachable id := by
  refine ⟨entity, known, fun receiver method => ?_⟩
  rw [method] at kind
  cases kind

theorem Refers.declareAs (refers : tables.Refers declared) (ident : Ident) (symbol : Symbol)
    (kind : ∀ receiver, symbol.kind ≠ .method receiver) :
    (tables.declareAs ident symbol).Refers declared := by
  have growth := (Extends.addSymbol tables symbol).trans
    (.bind _ symbol.package symbol.name tables.symbols.size)
  refine (refers.of_eq growth rfl rfl).recordUse ident.id ?_
  exact ⟨symbol.entity, entity?_declareAs ident symbol,
    fun receiver same => absurd same (kind receiver)⟩

theorem Refers.declareMethod (refers : tables.Refers declared) {package : PackageId}
    {decl : FuncDecl} (member : (package, decl) ∈ declared) (receiver type : TypeRef) :
    (tables.declareMethod package decl receiver type).Refers declared := by
  have growth := Extends.declareMethod tables package decl receiver type
  constructor
  · intro node id found
    rw [uses_declareMethod] at found
    rcases found_of_insert found with ⟨-, rfl⟩ | found
    · exact ⟨_, (tables.entity?_declareMethod package decl receiver type _).trans (if_pos rfl)⟩
    · obtain ⟨entity, known⟩ := refers.known node id found
      exact ⟨entity, growth.entity _ _ known⟩
  · intro node id found
    rw [uses_declareMethod] at found
    rcases found_of_insert found with ⟨same, -⟩ | found
    · exact .inr ⟨package, decl, member, same⟩
    · exact (refers.use node id found).imp_left (·.extend growth)
  · intro node id found
    rw [selections_declareMethod] at found
    exact (refers.selection node id found).extend growth

end Tables

theorem Predeclared.refers (declared : List (PackageId × FuncDecl)) : tables.Refers declared :=
  ⟨fun node id found => by simp [uses_eq_none] at found,
    fun node id found => by simp [uses_eq_none] at found,
    fun node id found => by simp [selections_eq_none] at found⟩

namespace Resolution

variable {before : Resolving}

theorem Change.refers {declared : List (PackageId × FuncDecl)} {marks : List Mark}
    {before after : Tables} (change : Change declared marks before after)
    (refers : before.Refers declared) : after.Refers declared := by
  have growth := change.grows
  cases change with
  | package | part | named | underlying | retype => exact refers.of_eq growth rfl rfl
  | use ident id entity marked known kind =>
      exact refers.recordUse ident.id (Tables.reachable_of_entity? known kind)
  | type ident package marked
  | var ident package decl marked => exact refers.declareAs ident _ (by simp)
  | function package decl member plain fresh => exact refers.declareAs decl.name _ (by simp)
  | method scope decl written type member method fresh =>
      exact refers.declareMethod member _ type

/-- In the middle of resolution everything in scope can be referred to. -/
structure Sound (units : List (FileScope × File)) (state : Resolving) : Prop where
  coherent : state.tables.Coherent
  refers : state.tables.Refers (declaredIn units)
  sees : ∀ unit ∈ units, state.tables.Sees unit.1 unit.2
  locals : ∀ scope ∈ state.scopes.scopes, ∀ (name : String) id, scope[name]? = some id →
    state.tables.Reachable id

variable {units : List (FileScope × File)} {marks : List Mark} {after : Resolving}
  {unit : FileScope × File}

theorem Sound.reachable {state : Resolving} (sound : Sound units state) (member : unit ∈ units)
    {name : String} {id : SymbolId} (found : lookup unit.1 state name = some id) :
    state.tables.Reachable id := by
  rw [lookup, Option.or_eq_some_iff, Option.or_eq_some_iff, Option.or_eq_some_iff] at found
  rcases found with ((inner | ⟨-, own⟩) | ⟨-, imported⟩) | ⟨-, universal⟩
  · obtain ⟨scope, scope_mem, inner⟩ := List.exists_of_findSome?_eq_some inner
    exact sound.locals scope scope_mem name id inner
  · exact (sound.coherent.member _ name id own).reachable
  · obtain ⟨entity, target, known, kind⟩ := (sound.sees unit member).imports name id imported
    exact Tables.reachable_of_entity? known (by rw [kind]; rfl)
  · exact (sound.coherent.member _ name id universal).reachable

/-- Tables that grow keep what is in scope reachable. -/
theorem Sound.extend (sound : Sound units before) {after : Tables}
    (growth : before.tables.Extends after) (coherent : after.Coherent)
    (refers : after.Refers (declaredIn units)) :
    Sound units { before with tables := after } where
  coherent := coherent
  refers := refers
  sees unit member := (sound.sees unit member).extend growth
  locals scope member name id found := (sound.locals scope member name id found).extend growth

theorem Step.grows {scope : FileScope} (step : Step scope marks before after) :
    before.tables.Extends after.tables := by
  cases step with
  | push | pop => exact .refl _
  | declare => exact (Tables.Extends.addSymbol _ _).trans (.of_eq rfl rfl)
  | refer | select => exact .of_eq rfl rfl
  | retype symbol type => exact .setType _ symbol type

theorem Sound.step (member : unit ∈ units) (step : Step unit.1 marks before after)
    (sound : Sound units before) : Sound units after := by
  have growth := step.grows
  have coherent := sound.coherent
  cases step with
  | push =>
      exact ⟨coherent, sound.refers, sound.sees, by simpa [ScopeStack.push] using sound.locals⟩
  | pop =>
      exact ⟨coherent, sound.refers, sound.sees, fun scope inner =>
        sound.locals scope (List.mem_of_mem_tail inner)⟩
  | declare place type decl ident marked =>
      let symbol : Symbol := ⟨ident.name, .var place, unit.1.package, type, decl⟩
      have known := before.tables.entity?_addSymbol symbol before.tables.symbols.size
      rw [if_pos rfl] at known
      have reachable : (before.declare ident symbol).tables.Reachable before.tables.symbols.size :=
        Tables.reachable_of_entity? known rfl
      have added := sound.refers.of_eq (Tables.Extends.addSymbol before.tables symbol) rfl rfl
      have grown := sound.extend growth (coherent.of_eq growth rfl rfl)
        (added.recordUse ident.id reachable)
      refine ⟨grown.coherent, grown.refers, grown.sees, fun scope scope_mem name id found => ?_⟩
      rcases ScopeStack.of_mem_declare scope_mem found with rfl | ⟨inner, inner_mem, inner_found⟩
      · exact reachable
      · exact grown.locals inner inner_mem name id inner_found
  | refer ident symbol marked found =>
      have reachable := sound.reachable member found
      exact sound.extend growth (coherent.of_eq growth rfl rfl)
        (sound.refers.recordUse ident.id reachable)
  | select id member symbol selector_marked member_marked found =>
      exact sound.extend growth (coherent.of_eq growth rfl rfl)
        (sound.refers.recordSelection id member.id (coherent.reachable found))
  | retype symbol type =>
      exact sound.extend growth (coherent.of_eq growth rfl rfl) (sound.refers.of_eq growth rfl rfl)

theorem StepIn.grows (step : StepIn units marks before after) :
    before.tables.Extends after.tables := by
  obtain ⟨unit, -, step⟩ := step
  exact step.grows

/-- The tables of a program are coherent, and its names and selectors refer to what can be referred
to. -/
theorem Runs.sound {program : Program} {declared : Tables} {final : Resolving}
    (run : Runs program units declared final) : Sound units final := by
  have coherent : declared.Coherent :=
    kept_of_steps (fun _ _ change => change.coherent) run.changes Predeclared.coherent
  have refers : declared.Refers (declaredIn units) :=
    kept_of_steps (fun _ _ change => change.refers) run.changes (Predeclared.refers _)
  have start : Sound units { tables := declared } :=
    ⟨coherent, refers, run.sees, fun scope member => by simp [ScopeStack.empty] at member⟩
  have keeps (before after : Resolving) (step : StepIn units program.marks before after) :
      Sound units before → Sound units after := by
    obtain ⟨unit, member, step⟩ := step
    exact Sound.step member step
  exact kept_of_steps keeps run.steps start

end Resolution

end Relock
