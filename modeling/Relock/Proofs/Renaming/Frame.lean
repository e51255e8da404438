import Relock.Proofs.Renaming.Basic
import Relock.Proofs.Resolution.Bindings

/-!
# What a round leaves alone

A round of resolution over some files changes what belongs to their declarations and nothing else:
records under the numbers of the files, members and named types of their packages, and the types of
entities that they declare. A view says what is not to change, and must leave out what the
declarations are about.
-/

namespace Relock

namespace Tables

/-- What the view shows of the first tables is the same in the second. -/
structure Keeps (view : View) (before after : Tables) : Prop where
  size : before.symbols.size ≤ after.symbols.size
  shape : ∀ id, id < before.symbols.size →
    (after.symbol? id).map Symbol.untyped = (before.symbol? id).map Symbol.untyped
  typeOf : ∀ id, id < before.symbols.size → view.typed id → after.typeOf id = before.typeOf id
  lookup : ∀ package name, view.member package name →
    after.lookup package name = before.lookup package name
  uses : ∀ node, view.node node → after.uses[node]? = before.uses[node]?
  selections : ∀ node, view.node node → after.selections[node]? = before.selections[node]?
  receivers : ∀ node, view.node node → after.receivers[node]? = before.receivers[node]?
  named : ∀ ref : NamedRef, view.member ref.package ref.name →
    after.named.contains ref = before.named.contains ref
  types : ∀ (ref : NamedRef) old, before.named[ref]? = some old →
    ∃ new, after.named[ref]? = some new ∧ (view.underlying ref → new.underlying = old.underlying) ∧
      ∀ name : String, view.method ref name → new.methods[name]? = old.methods[name]?

namespace Keeps

variable {view : View} {before middle after tables : Tables} {id : SymbolId} {name : String}
  {ref : NamedRef}

theorem refl (view : View) (tables : Tables) : Keeps view tables tables where
  size := Nat.le_refl _
  shape _ _ := rfl
  typeOf _ _ _ := rfl
  lookup _ _ _ := rfl
  uses _ _ := rfl
  selections _ _ := rfl
  receivers _ _ := rfl
  named _ _ := rfl
  types _ old found := ⟨old, found, fun _ => rfl, fun _ _ => rfl⟩

theorem trans (first : Keeps view before middle) (second : Keeps view middle after) :
    Keeps view before after where
  size := Nat.le_trans first.size second.size
  shape id old :=
    (second.shape id (Nat.lt_of_lt_of_le old first.size)).trans (first.shape id old)
  typeOf id old seen :=
    (second.typeOf id (Nat.lt_of_lt_of_le old first.size) seen).trans (first.typeOf id old seen)
  lookup package name seen :=
    (second.lookup package name seen).trans (first.lookup package name seen)
  uses node seen := (second.uses node seen).trans (first.uses node seen)
  selections node seen := (second.selections node seen).trans (first.selections node seen)
  receivers node seen := (second.receivers node seen).trans (first.receivers node seen)
  named ref seen := (second.named ref seen).trans (first.named ref seen)
  types ref old found := by
    obtain ⟨type, type_eq, underlying, methods⟩ := first.types ref old found
    obtain ⟨new, new_eq, underlying_later, methods_later⟩ := second.types ref type type_eq
    exact ⟨new, new_eq, fun seen => (underlying_later seen).trans (underlying seen),
      fun name seen => (methods_later name seen).trans (methods name seen)⟩

/-- What is shown less of is kept as well. -/
theorem weaken (keeps : Keeps view before after) {weaker : View}
    (node : ∀ node, weaker.node node → view.node node)
    (typed : ∀ id, id < before.symbols.size → weaker.typed id → view.typed id)
    (member : ∀ package name, weaker.member package name → view.member package name)
    (underlying : ∀ ref, weaker.underlying ref → view.underlying ref)
    (method : ∀ ref name, weaker.method ref name → view.method ref name) :
    Keeps weaker before after where
  size := keeps.size
  shape := keeps.shape
  typeOf id old seen := keeps.typeOf id old (typed id old seen)
  lookup package name seen := keeps.lookup package name (member package name seen)
  uses other seen := keeps.uses other (node other seen)
  selections other seen := keeps.selections other (node other seen)
  receivers other seen := keeps.receivers other (node other seen)
  named ref seen := keeps.named ref (member _ _ seen)
  types ref old found := by
    obtain ⟨new, new_eq, made, methods⟩ := keeps.types ref old found
    exact ⟨new, new_eq, fun seen => made (underlying ref seen),
      fun name seen => methods name (method ref name seen)⟩

/-- What single steps keep, a sequence of them keeps. -/
theorem of_steps (steps : Relation.ReflTransGen (Keeps view) before after) :
    Keeps view before after :=
  kept_of_steps (fun _ _ step earlier => earlier.trans step) steps (.refl view before)

/-- The name, the kind and the package of an entity stay as they are. -/
theorem exists_symbol? (keeps : Keeps view before after) {symbol : Symbol}
    (found : before.symbol? id = some symbol) :
    ∃ other, after.symbol? id = some other ∧ other.untyped = symbol.untyped := by
  have old : id < before.symbols.size := (Array.getElem?_eq_some_iff.mp found).1
  have shape := keeps.shape id old
  rwa [found, Option.map_some, Option.map_eq_some_iff] at shape

theorem objectOf (keeps : Keeps view before after) {ident : Ident} (seen : view.node ident.id) :
    after.objectOf ident = before.objectOf ident :=
  keeps.uses ident.id seen

/-! ### Single changes -/

theorem addSymbol (view : View) (tables : Tables) (symbol : Symbol) :
    Keeps view tables (tables.addSymbol symbol).2 :=
  { Keeps.refl view tables with
    size := by simp [Tables.addSymbol]
    shape := fun id old => by rw [symbol?_addSymbol, if_neg (Nat.ne_of_lt old)]
    typeOf := fun id old _ => by
      rw [Tables.typeOf, Tables.typeOf, symbol?_addSymbol, if_neg (Nat.ne_of_lt old)] }

theorem addPackage (view : View) (tables : Tables) {info : PackageInfo} (empty : info.scope = ∅) :
    Keeps view tables (tables.addPackage info).2 :=
  { Keeps.refl view tables with
    lookup := fun package name _ => lookup_addPackage_eq tables empty package name }

theorem recordUse {node : NodeId} (ignored : ¬view.node node) (id : SymbolId) :
    Keeps view tables (tables.recordUse node id) :=
  { Keeps.refl view tables with
    uses := fun other seen => by
      have apart : node ≠ other := fun same => ignored (same ▸ seen)
      simp [Tables.recordUse, Std.TreeMap.getElem?_insert, apart] }

theorem recordReceiver {decl : NodeId} (ignored : ¬view.node decl) (type : TypeRef) :
    Keeps view tables (tables.recordReceiver decl type) :=
  { Keeps.refl view tables with
    receivers := fun other seen => by
      have apart : decl ≠ other := fun same => ignored (same ▸ seen)
      simp [Tables.recordReceiver, Std.TreeMap.getElem?_insert, apart] }

theorem bind {package : PackageId} (ignored : ¬view.member package name) (id : SymbolId) :
    Keeps view tables (tables.bind package name id) :=
  { Keeps.refl view tables with
    lookup := fun other text seen => by
      have apart : package ≠ other ∨ name ≠ text := by
        by_contra both
        rw [not_or, not_ne_iff, not_ne_iff] at both
        exact ignored (both.1 ▸ both.2 ▸ seen)
      simp only [Tables.lookup, Tables.bind, Array.getElem?_modify]
      by_cases own : package = other
      · have different := apart.resolve_left (not_not_intro own)
        subst own
        cases tables.packages[package]? <;> simp [Std.TreeMap.getElem?_insert, different]
      · simp [own] }

theorem setType (ignored : ¬view.typed id) (type : TypeRef) :
    Keeps view tables (tables.setType id type) :=
  { Keeps.refl view tables with
    size := by simp [Tables.setType]
    shape := fun other old => by
      rw [symbol?_setType]
      split
      · rw [Option.map_map]
        rfl
      · rfl
    typeOf := fun other old seen => by
      have apart : id ≠ other := fun same => ignored (same ▸ seen)
      rw [Tables.typeOf, Tables.typeOf, symbol?_setType, if_neg apart] }

theorem setNamed {type : NamedType} (member : ¬view.member ref.package ref.name)
    (underlying : ¬view.underlying ref) (methods : ∀ name, ¬view.method ref name) :
    Keeps view tables (tables.setNamed ref type) :=
  { Keeps.refl view tables with
    named := fun other seen => by
      have apart : ref ≠ other := fun same => member (same ▸ seen)
      simp [Tables.setNamed, Std.TreeMap.contains_insert, apart]
    types := fun other old found => by
      by_cases own : ref = other
      · subst own
        refine ⟨type, by simp [Tables.setNamed], fun seen => absurd seen underlying,
          fun name seen => absurd seen (methods name)⟩
      · exact ⟨old, by simpa [Tables.setNamed, Std.TreeMap.getElem?_insert, own] using found,
          fun _ => rfl, fun _ _ => rfl⟩ }

/-- A change of a named type that leaves alone what the view shows of it. -/
theorem modifyNamed {change : NamedType → NamedType} (keeps : ∀ old, tables.named[ref]? = some old →
      (view.underlying ref → (change old).underlying = old.underlying) ∧
        ∀ name : String, view.method ref name → (change old).methods[name]? = old.methods[name]?) :
    Keeps view tables { tables with named := tables.named.modify ref change } :=
  { Keeps.refl view tables with
    named := fun other _ => by simp [Std.TreeMap.contains_modify]
    types := fun other old found => by
      by_cases own : ref = other
      · subst own
        exact ⟨change old, by simp [found], keeps old found⟩
      · exact ⟨old, by simpa [Std.TreeMap.getElem?_modify, own] using found, fun _ => rfl,
          fun _ _ => rfl⟩ }

theorem setUnderlying (ignored : ¬view.underlying ref) (underlying : Underlying) :
    Keeps view tables (tables.setUnderlying ref underlying) :=
  modifyNamed fun _ _ => ⟨fun seen => absurd seen ignored, fun _ _ => rfl⟩

theorem addMethod (ignored : tables.named.contains ref = true → ¬view.method ref name)
    (method : SymbolId) : Keeps view tables (tables.addMethod ref name method) := by
  refine modifyNamed fun old found => ⟨fun _ => rfl, fun text seen => ?_⟩
  have known : tables.named.contains ref = true := by
    rw [Std.TreeMap.contains_eq_isSome_getElem?, found]
    rfl
  have apart : name ≠ text := fun same => ignored known (same ▸ seen)
  simp [Std.TreeMap.getElem?_insert, apart]

/-- Records in bodies are made for their own constructs. -/
theorem of_records {marks : List Mark} {bindings : List Binding}
    (records : before.Records marks bindings after)
    (ignored : ∀ mark ∈ marks, ¬view.node mark.id) : Keeps view before after := by
  have unmarked (node : NodeId) (seen : view.node node) : ∀ mark ∈ marks, mark.id ≠ node :=
    fun mark marked same => ignored mark marked (same ▸ seen)
  exact
  { size := records.size_le
    shape := fun id old => by rw [symbol?, symbol?, records.symbols id old]
    typeOf := fun id old _ => by rw [Tables.typeOf, Tables.typeOf, symbol?, symbol?,
      records.symbols id old]
    lookup := fun package name _ => by rw [Tables.lookup, Tables.lookup, records.packages]
    uses := fun node seen => records.uses node (unmarked node seen)
    selections := fun node seen => records.selections node (unmarked node seen)
    receivers := fun node _ => by rw [records.receivers]
    named := fun ref _ => by rw [records.named]
    types := fun ref old found =>
      ⟨old, by rw [records.named, found], fun _ => rfl, fun _ _ => rfl⟩ }

end Keeps

end Tables

namespace Resolution

variable {view : View} {scope : FileScope}

theorem recordUse_keeps {node : NodeId} (ignored : ¬view.node node) (id : SymbolId) :
    Always (Tables.Keeps view) (modify fun tables => tables.recordUse node id) :=
  .modify fun _ => .recordUse ignored id

theorem declareImports_keeps (own : PackageId) (file : File) :
    Always (Tables.Keeps view) (declareImports own file) :=
  declareImports_always (fun tables _ => .addPackage view tables)
    (fun tables symbol _ => .addSymbol view tables symbol) own file

theorem declareScopes_keeps (files : List File) :
    Always (Tables.Keeps view) (declareScopes files) :=
  declareScopes_always (fun tables _ => .addPackage view tables)
    (fun tables symbol _ => .addSymbol view tables symbol) files

end Resolution

/-! ## Names -/

namespace Decl

/-- The names of members of its package that a declaration declares. -/
def members : Decl → List String
  | type spec => if spec.name.name.isEmpty then [] else [spec.name.name]
  | func decl => if decl.isMethod then [] else [decl.name.name]
  | var spec => Ident.declared spec.names

end Decl

/-- The view leaves out what a declaration of a package declares. -/
structure View.Ignores (view : View) (package : PackageId) (decl : Decl) : Prop where
  node : ∀ mark ∈ decl.recorded .names, ¬view.node mark.id
  member : ∀ name ∈ decl.members, ¬view.member package name
  type : ∀ spec, decl = .type spec → spec.name.name ∈ decl.members →
    ¬view.underlying ⟨package, spec.name.name⟩ ∧ ∀ name, ¬view.method ⟨package, spec.name.name⟩ name

namespace Resolution

variable {view : View} {scope : FileScope} {decl : FuncDecl} {tables : Tables}
  {units : List (FileScope × File)}

theorem declareMember_keeps {ident : Ident} {symbol : Symbol} (node : ¬view.node ident.id)
    (member : ¬view.member symbol.package symbol.name) :
    Always (Tables.Keeps view) (declareMember ident symbol) := by
  refine .bind (.modifyGet fun tables => ?_) fun id => recordUse_keeps node id
  exact (Tables.Keeps.addSymbol view tables symbol).trans (.bind member _)

theorem declareNames_keeps {package : PackageId} {decl : Decl}
    (ignores : view.Ignores package decl) :
    Always (Tables.Keeps view) (declareNames package decl) := by
  cases decl with
  | type spec =>
      rw [declareNames]
      split
      · exact .pure _
      · rename_i nonempty
        have listed : spec.name.name ∈ (Decl.type spec).members := by simp [Decl.members, nonempty]
        have member : ¬view.member package spec.name.name := ignores.member _ listed
        obtain ⟨underlying, methods⟩ := ignores.type spec rfl listed
        refine .bind (declareMember_keeps (ignores.node _ List.mem_cons_self) member) fun _ => ?_
        exact .modify fun _ => .setNamed member underlying methods
  | func decl =>
      rw [declareNames]
      split
      · exact .pure _
      · rename_i plain
        refine declareMember_keeps (ignores.node ⟨decl.name.id, .function decl⟩ ?_)
          (ignores.member _ ?_)
        · simp [Decl.recorded, plain]
        · simp [Decl.members, plain]
  | var spec =>
      rw [declareNames]
      refine .forM fun ident listed => ?_
      split
      · exact .pure _
      · rename_i named
        refine declareMember_keeps (ignores.node ident.mark (List.mem_map_of_mem listed))
          (ignores.member _ ?_)
        exact Ident.mem_declared.mpr ⟨ident, listed, by simpa using named, rfl⟩

/-! ## Types -/

theorem completeType_keeps {spec : TypeSpec}
    (ignored : ∀ ident ∈ spec.body.names, ¬view.node ident.id)
    (underlying : ¬view.underlying ⟨scope.package, spec.name.name⟩) :
    Always (Tables.Keeps view) (completeType scope spec) :=
  completeType_always (fun tables symbol _ => .addSymbol view tables symbol)
    (fun ident named _ => .recordUse (ignored ident named)) fun _ => .setUnderlying underlying

/-! ## Signatures -/

/-- A method is added to the named type of its receiver, which the view may show without it. -/
theorem declareMethod_keeps {receiver type : TypeRef} (name : ¬view.node decl.name.id)
    (number : ¬view.node decl.id)
    (method : ∀ ref, receiver.named? = some ref → tables.named.contains ref = true →
      ¬view.method ref decl.name.name) :
    tables.Keeps view (tables.declareMethod scope.package decl receiver type) := by
  have recorded := ((Tables.Keeps.recordReceiver number receiver).trans
    (.addSymbol view (tables.recordReceiver decl.id receiver)
      { name := decl.name.name, kind := .method receiver, package := scope.package, type })).trans
      (.recordUse name tables.symbols.size)
  rw [Tables.declareMethod, Tables.addMethodOf]
  split
  · rename_i ref named
    refine recorded.trans (.addMethod ?_ _)
    exact method ref named
  · exact recorded

/-- A signature sets the type of a function, which has been recorded before, or adds a method to a
named type. -/
theorem declareSignature_keeps {reached : Tables} (keeps : tables.Keeps view reached)
    (plain : decl.isMethod = false →
      view.node decl.name.id ∧ ∀ id, tables.objectOf decl.name = some id → ¬view.typed id)
    (method : decl.isMethod = true → ¬view.node decl.name.id ∧ ¬view.node decl.id)
    (added : ∀ receiver ref, decl.receiver = some receiver →
      (resolveType scope reached receiver.type).named? = some ref →
      reached.named.contains ref = true → ¬view.method ref decl.name.name) :
    Leads (Tables.Keeps view) reached (declareSignature scope decl) := by
  refine .get_bind ?_
  cases receiver : decl.receiver with
  | some written =>
      obtain ⟨name, number⟩ := method (by simp [FuncDecl.isMethod, receiver])
      refine ⟨.single ?_, trivial⟩
      dsimp only
      rw [run_declareMethod]
      exact declareMethod_keeps name number fun ref named known =>
        added written ref receiver named known
  | none =>
      obtain ⟨seen, ignored⟩ := plain (by simp [FuncDecl.isMethod, receiver])
      rw [keeps.objectOf seen]
      cases recorded : tables.objectOf decl.name with
      | none => exact .pure trivial
      | some id => exact ⟨.single (.setType (ignored id recorded) _), trivial⟩

/-- Signatures set the types of functions and add methods to named types. -/
theorem declareSignatures_keep
    (plain : ∀ unit ∈ units, ∀ decl ∈ unit.2.functions, decl.isMethod = false →
      view.node decl.name.id ∧ ∀ id, tables.objectOf decl.name = some id → ¬view.typed id)
    (method : ∀ unit ∈ units, ∀ decl ∈ unit.2.functions, decl.isMethod = true →
      ¬view.node decl.name.id ∧ ¬view.node decl.id)
    (added : ∀ unit ∈ units, ∀ decl ∈ unit.2.functions, ∀ receiver reached ref,
      decl.receiver = some receiver → tables.Keeps view reached →
      (resolveType unit.1 reached receiver.type).named? = some ref →
      reached.named.contains ref = true → ¬view.method ref decl.name.name) :
    tables.Keeps view
      ((units.forM fun unit => unit.2.functions.forM (declareSignature unit.1)).run tables).2 := by
  refine .of_steps (Leads.forM fun unit listed reached steps => ?_).1
  refine .forM fun decl declared later more => ?_
  have keeps := Tables.Keeps.of_steps (steps.trans more)
  exact declareSignature_keeps keeps (plain unit listed decl declared)
    (method unit listed decl declared) fun receiver ref receiver_eq =>
      added unit listed decl declared receiver later ref receiver_eq keeps

/-! ## Values and bodies -/

/-- The values of variables set the types of these variables. -/
theorem resolveValues_keep {state : Resolving}
    (names : ∀ unit ∈ units, ∀ spec ∈ unit.2.vars, ∀ ident ∈ spec.names,
      view.node ident.id ∧ ∀ id, state.tables.objectOf ident = some id → ¬view.typed id)
    (values : ∀ unit ∈ units, ∀ spec ∈ unit.2.vars, Mark.Unique (exprMarks spec.values) ∧
      ∀ mark ∈ exprMarks spec.values, ¬view.node mark.id) :
    state.tables.Keeps view ((units.forM fun unit =>
      unit.2.vars.forM (resolvePackageVars unit.1)).run state).2.tables := by
  let step (before after : Resolving) : Prop := before.tables.Keeps view after.tables
  have whole {before after : Resolving} (steps : Relation.ReflTransGen step before after) :
      before.tables.Keeps view after.tables :=
    kept_of_steps (fun _ _ keeps earlier => Tables.Keeps.trans earlier keeps) steps (.refl view _)
  have taken : Leads step state
      (units.forM fun unit => unit.2.vars.forM (resolvePackageVars unit.1)) := by
    refine .forM fun unit listed reached steps => .forM fun spec declared later more => ?_
    obtain ⟨unique, ignored⟩ := values unit listed spec declared
    have resolved (start : Resolving) : Leads step start (resolveExprs unit.1 spec.values) :=
      ⟨.single (.of_records (resolveExprs_records spec.values unique start) ignored), trivial⟩
    refine .get_bind ((resolved later).bind fun types middle first _ => ?_)
    refine .forM fun item item_mem final rest => .get_bind ?_
    have keeps := whole ((steps.trans more).trans (first.trans rest))
    obtain ⟨seen, untyped⟩ := names unit listed spec declared item.1 (List.of_mem_zip item_mem).1
    rw [keeps.objectOf seen]
    cases recorded : state.tables.objectOf item.1 with
    | none => exact .pure trivial
    | some id => exact .modify (.setType (untyped id recorded) _) trivial
  exact whole taken.1

theorem resolveBodies_keep {units : List (FileScope × File)} {state : Resolving}
    (bodies : ∀ unit ∈ units, ∀ decl ∈ unit.2.functions, Mark.Unique decl.innerMarks ∧
      ∀ mark ∈ decl.innerMarks, ¬view.node mark.id) :
    state.tables.Keeps view ((units.forM fun unit =>
      unit.2.functions.forM (resolveBody unit.1)).run state).2.tables := by
  have taken : Leads (fun before after : Resolving => before.tables.Keeps view after.tables) state
      (units.forM fun unit => unit.2.functions.forM (resolveBody unit.1)) := by
    refine .forM fun unit listed reached _ => .forM fun decl declared later _ => ?_
    obtain ⟨unique, ignored⟩ := bodies unit listed decl declared
    exact ⟨.single (.of_records (resolveBody_records unique later) ignored), trivial⟩
  exact kept_of_steps (fun _ _ keeps earlier => Tables.Keeps.trans earlier keeps) taken.1
    (.refl view _)

end Resolution

end Relock
