import Relock.Proofs.Renaming.Signatures

/-!
# What plain names refer to

A name with no package in front of it refers to a local variable, to a member of the package of its
file, to an imported package or to something predeclared. No statement declares the last two. So
names never refer to what a statement of another package declares.
-/

namespace Relock

namespace Tables

/-- The entity belongs to the package, or no statement declares it. -/
def AtHome (tables : Tables) (package : PackageId) (id : SymbolId) : Prop :=
  ∃ symbol, tables.symbol? id = some symbol ∧ (symbol.decl = none ∨ symbol.package = package)

/-- Every entity is still there, with another type at most. -/
def Retains (before after : Tables) : Prop :=
  ∀ id symbol, before.symbol? id = some symbol →
    ∃ later, after.symbol? id = some later ∧ later.untyped = symbol.untyped

variable {before after : Tables}

theorem Retains.symbol? (retains : before.Retains after) {id : SymbolId} {symbol : Symbol}
    (found : before.symbol? id = some symbol) :
    ∃ later, after.symbol? id = some later ∧ later.decl = symbol.decl ∧
      later.package = symbol.package := by
  obtain ⟨later, later_found, untyped⟩ := retains id symbol found
  exact ⟨later, later_found, (congrArg Symbol.decl untyped :), Symbol.package_eq_of_untyped untyped⟩

theorem AtHome.retain (retains : before.Retains after) {package : PackageId} {id : SymbolId}
    (home : before.AtHome package id) : after.AtHome package id := by
  obtain ⟨symbol, found, origin⟩ := home
  obtain ⟨later, later_found, decl, own⟩ := retains.symbol? found
  exact ⟨later, later_found, by rwa [decl, own]⟩

/-- What can be looked up in a file from outside its bodies is at home there: its members belong to
its package, and no statement declares what is imported or predeclared. -/
structure Known (scope : FileScope) (tables : Tables) : Prop where
  member : ∀ name id, tables.lookup scope.package name = some id →
    ∃ symbol, tables.symbol? id = some symbol ∧ symbol.package = scope.package
  foreign : ∀ (name : String) id,
    scope.imports[name]? = some id ∨ tables.lookup Predeclared.universal name = some id →
      ∃ symbol, tables.symbol? id = some symbol ∧ symbol.decl = none

theorem Known.retain {scope : FileScope} (known : before.Known scope)
    (retains : before.Retains after) (packages : after.packages = before.packages) :
    after.Known scope := by
  have lookup (package : PackageId) (name : String) :
      after.lookup package name = before.lookup package name := by
    rw [Tables.lookup, Tables.lookup, packages]
  constructor
  · intro name id found
    rw [lookup] at found
    obtain ⟨symbol, symbol_found, own⟩ := known.member name id found
    obtain ⟨later, later_found, -, package⟩ := retains.symbol? symbol_found
    exact ⟨later, later_found, package.trans own⟩
  · intro name id found
    rw [lookup] at found
    obtain ⟨symbol, symbol_found, undeclared⟩ := known.foreign name id found
    obtain ⟨later, later_found, decl, -⟩ := retains.symbol? symbol_found
    exact ⟨later, later_found, decl.trans undeclared⟩

end Tables

namespace Resolution

section Steps

variable {scope : FileScope} {marks : List Mark} {before after : Resolving}

theorem Step.retains (step : Step scope marks before after) :
    before.tables.Retains after.tables := by
  intro id symbol found
  cases step with
  | push | pop | refer | select => exact ⟨symbol, found, rfl⟩
  | declare place type decl ident =>
      have old : id ≠ before.tables.symbols.size :=
        Nat.ne_of_lt (Array.getElem?_eq_some_iff.mp found).1
      exact ⟨symbol, (before.tables.symbol?_addSymbol _ id).trans ((if_neg old).trans found), rfl⟩
  | retype changed type =>
      have later := before.tables.symbol?_setType changed id type
      rw [found] at later
      split at later
      · exact ⟨_, later, rfl⟩
      · exact ⟨_, later, rfl⟩

/-- What can be looked up in a body is at home in the file. -/
structure Settled (scope : FileScope) (state : Resolving) : Prop
    extends state.tables.Known scope where
  locals : ∀ inner ∈ state.scopes.scopes, ∀ (name : String) id, inner[name]? = some id →
    state.tables.AtHome scope.package id

theorem Settled.atHome (settled : Settled scope before) {name : String} {id : SymbolId}
    (found : lookup scope before name = some id) : before.tables.AtHome scope.package id := by
  have foreign (outside : scope.imports[name]? = some id ∨
      before.tables.lookup Predeclared.universal name = some id) :
      before.tables.AtHome scope.package id := by
    obtain ⟨symbol, symbol_found, undeclared⟩ := settled.foreign name id outside
    exact ⟨symbol, symbol_found, .inl undeclared⟩
  rw [lookup, Option.or_eq_some_iff, Option.or_eq_some_iff, Option.or_eq_some_iff] at found
  rcases found with ((inner | ⟨-, own⟩) | ⟨-, imported⟩) | ⟨-, universal⟩
  · obtain ⟨scope, scope_mem, inner⟩ := List.exists_of_findSome?_eq_some inner
    exact settled.locals scope scope_mem name id inner
  · obtain ⟨symbol, symbol_found, package⟩ := settled.member name id own
    exact ⟨symbol, symbol_found, .inr package⟩
  · exact foreign (.inl imported)
  · exact foreign (.inr universal)

theorem atHome_declare (state : Resolving) (ident : Ident) {symbol : Symbol}
    (own : symbol.package = scope.package) :
    (state.declare ident symbol).tables.AtHome scope.package state.tables.symbols.size :=
  ⟨symbol, (state.tables.symbol?_addSymbol symbol _).trans (if_pos rfl), .inr own⟩

theorem Step.settled (step : Step scope marks before after) (settled : Settled scope before) :
    Settled scope after := by
  have retains := step.retains
  have old (inner : Scope SymbolId) (inner_mem : inner ∈ before.scopes.scopes) (name : String)
      (id : SymbolId) (found : inner[name]? = some id) : after.tables.AtHome scope.package id :=
    (settled.locals inner inner_mem name id found).retain retains
  refine ⟨settled.toKnown.retain retains step.packages_eq, ?_⟩
  cases step with
  | push => simpa [ScopeStack.push] using old
  | pop => exact fun inner inner_mem => old inner (List.mem_of_mem_tail inner_mem)
  | refer | select | retype => exact old
  | declare place type decl ident =>
      intro inner inner_mem name id found
      rcases ScopeStack.of_mem_declare inner_mem found with rfl | ⟨outer, outer_mem, outer_found⟩
      · exact atHome_declare before ident rfl
      · exact old outer outer_mem name id outer_found

end Steps

/-! ## Names in files -/

/-- The marks of a file that are recorded while values and bodies are resolved. -/
def innerMarks (file : File) : List Mark :=
  file.decls.flatMap fun decl => decl.recorded .values ++ decl.recorded .bodies

/-- Names in values and bodies of a file refer to what is at home there. -/
def Homely (units : List (FileScope × File)) (tables : Tables) : Prop :=
  ∀ unit ∈ units, ∀ mark ∈ innerMarks unit.2, mark.role = .name → ∀ id,
    tables.uses[mark.id]? = some id → tables.AtHome unit.1.package id

variable {units : List (FileScope × File)}

theorem Homely.retain {before after : Tables} (homely : Homely units before)
    (retains : before.Retains after) (uses : after.uses = before.uses) : Homely units after :=
  fun unit member mark marked role id found =>
    (homely unit member mark marked role id (uses ▸ found)).retain retains

section Files

variable (unique : Mark.Unique (units.flatMap fun unit => innerMarks unit.2))
  {unit : FileScope × File} {count : Nat} {state : Resolving}
include unique

/-- A new record of a name that is at home in its file. -/
theorem Homely.recordUse (member : unit ∈ units) {ident : Ident}
    (marked : ident.mark ∈ innerMarks unit.2) {tables : Tables} (homely : Homely units tables)
    {symbol : SymbolId} (home : tables.AtHome unit.1.package symbol) :
    Homely units (tables.recordUse ident.id symbol) := by
  intro other other_mem mark mark_mem role id found
  rcases found_of_insert found with ⟨same, rfl⟩ | found
  · have own : unit = other :=
      unique.eq_of_id_eq member other_mem marked mark_mem same
    exact own ▸ home
  · exact homely other other_mem mark mark_mem role id found

theorem Step.homely (member : unit ∈ units) {before after : Resolving}
    (step : Step unit.1 (innerMarks unit.2) before after) (settled : Settled unit.1 before)
    (homely : Homely units before.tables) : Homely units after.tables := by
  have retains := step.retains
  cases step with
  | push | pop => exact homely
  | declare place type decl ident marked =>
      have grown : Homely units (before.tables.addSymbol _).2 := homely.retain retains rfl
      exact grown.recordUse unique member marked (atHome_declare before ident rfl)
  | refer ident symbol marked found =>
      exact homely.recordUse unique member marked (settled.atHome found)
  | select id selected symbol selector_marked member_marked =>
      intro other other_mem mark mark_mem role found_id found
      rcases found_of_insert found with ⟨same, -⟩ | found
      · -- A name that is selected is marked as such.
        have marks_eq := List.inj_on_of_nodup_map unique
          (List.mem_flatMap.mpr ⟨unit, member, member_marked⟩)
          (List.mem_flatMap.mpr ⟨other, other_mem, mark_mem⟩) same
        cases marks_eq
        cases role
      · exact homely other other_mem mark mark_mem role found_id found
  | retype => exact homely.retain retains rfl

/-- Between bodies no scope is open, and names refer to what is at home. -/
structure Quiet (units : List (FileScope × File)) (count : Nat) (state : Resolving) : Prop where
  scopes : state.scopes = .empty
  ready : ∀ unit ∈ units, Ready unit.1 count state
  known : ∀ unit ∈ units, state.tables.Known unit.1
  homely : Homely units state.tables

theorem Quiet.run (quiet : Quiet units count state) (member : unit ∈ units)
    {computation : Resolve PUnit} (takes : Takes unit.1 (innerMarks unit.2) count computation)
    (keeping : Keeping computation) : Quiet units count (computation.run state).2 := by
  have steps := (takes state (quiet.ready unit member)).1
  have start : Settled unit.1 state :=
    ⟨quiet.known unit member, by simp [quiet.scopes, ScopeStack.empty]⟩
  let inside (state : Resolving) : Prop := Settled unit.1 state ∧ Homely units state.tables
  have kept : inside (computation.run state).2 :=
    kept_of_steps (fun _ _ step both =>
      ⟨step.settled both.1, step.homely unique member both.1 both.2⟩) steps ⟨start, quiet.homely⟩
  refine ⟨(keeping state).scopes.trans quiet.scopes, fun other other_mem => ?_,
    fun other other_mem => ?_, kept.2⟩
  · exact kept_of_steps (fun _ _ step => step.ready) steps (quiet.ready other other_mem)
  · let sees (state : Resolving) : Prop := state.tables.Known other.1
    have later : sees (computation.run state).2 :=
      kept_of_steps (fun _ _ step known => known.retain step.retains step.packages_eq) steps
        (quiet.known other other_mem)
    exact later

omit unique in
theorem Quiet.forM {α : Type} {items : List α} {action : α → Resolve PUnit}
    (each : ∀ item ∈ items, ∀ state, Quiet units count state →
      Quiet units count ((action item).run state).2) (quiet : Quiet units count state) :
    Quiet units count ((items.forM action).run state).2 := by
  induction items generalizing state with
  | nil => exact quiet
  | cons item items ih =>
      rw [List.forall_mem_cons] at each
      exact ih each.2 (each.1 state quiet)

theorem Quiet.values (quiet : Quiet units count state) :
    Quiet units count ((valuesRound units).run state).2 := by
  refine quiet.forM fun unit member state quiet => quiet.forM fun spec declared state quiet => ?_
  have decl_mem := File.mem_vars.mp declared
  refine quiet.run unique member (resolvePackageVars_takes fun mark marked => ?_)
    (resolvePackageVars_keeping spec)
  exact List.mem_flatMap.mpr ⟨_, decl_mem, List.mem_append_left _ marked⟩

theorem Quiet.bodies (quiet : Quiet units count state) :
    Quiet units count ((bodiesRound units).run state).2 := by
  refine quiet.forM fun unit member state quiet => quiet.forM fun decl declared state quiet => ?_
  have listed_mem := File.mem_functions.mp declared
  refine quiet.run unique member (resolveBody_takes fun mark marked => ?_)
    (resolveBody_keeping decl)
  exact List.mem_flatMap.mpr ⟨_, listed_mem, List.mem_append_right _ marked⟩

end Files

end Resolution

/-! ## Programs -/

namespace Program

open Resolution

variable {program : Program} (unique : program.UniqueIds)
include unique

theorem unique_innerMarks :
    Mark.Unique (program.units.flatMap fun unit => innerMarks unit.2) := by
  have inner (decl : Decl) :
      (decl.recorded .values ++ decl.recorded .bodies).Sublist decl.marks := by
    have whole := decl.recorded_sublist
    simp only [Round.all, List.flatMap_cons, List.flatMap_nil, List.append_nil] at whole
    exact (List.sublist_append_right _ _).trans ((List.sublist_append_right _ _).trans
      ((List.sublist_append_right _ _).trans whole))
  have listed (decls : List Decl) :
      (decls.flatMap fun decl => decl.recorded .values ++ decl.recorded .bodies).Sublist
        (decls.flatMap Decl.marks) := by
    induction decls with
    | nil => exact .slnil
    | cons decl decls ih => exact (inner decl).append ih
  have flat : (program.units.flatMap fun unit => innerMarks unit.2) =
      program.decls.flatMap fun decl => decl.recorded .values ++ decl.recorded .bodies := by
    rw [Program.decls, ← program.map_snd_units, List.flatMap_assoc, List.flatMap_map]
    rfl
  rw [flat, Mark.Unique]
  rw [UniqueIds, marks_eq] at unique
  exact unique.sublist ((listed program.decls).map Mark.id)

/-- Nothing is recorded for values and bodies before they are resolved. -/
theorem uses_signed {round : Round} (late : round = .values ∨ round = .bodies) {mark : Mark}
    (listed : mark ∈ program.recorded round) : program.signed.uses[mark.id]? = none := by
  have apart (early : Round) (different : early ≠ round) :
      ∀ other ∈ program.recorded early, other.id ≠ mark.id :=
    fun other recorded => unique.recorded_apart different other recorded mark listed
  have signatures := (signatures_bind program.map_snd_units (unique.recorded_round .signatures)
    program.completed).uses mark.id (apart _ (by rcases late with rfl | rfl <;> nofun))
  have types := (types_bind program.map_snd_units (unique.recorded_round .types)
    program.named).uses mark.id (apart _ (by rcases late with rfl | rfl <;> nofun))
  have names := (names_bind program.map_snd_units (unique.recorded_round .names)
    program.imported.2).uses mark.id (apart _ (by rcases late with rfl | rfl <;> nofun))
  have scopes := (@declareScopes_binds [] program.files Predeclared.tables).uses mark.id
    (by simp)
  exact signatures.trans (types.trans (names.trans (scopes.trans
    (Predeclared.uses_eq_none mark.id))))

theorem known_signed {unit : FileScope × File} (member : unit ∈ program.units) :
    program.signed.Known unit.1 := by
  have signatures := signatures_keep_names unique (List.Subset.refl program.units)
  -- What no statement has declared before the names of members is declared by none.
  have kept {tables : Tables} {view : View} (keeps : tables.Keeps view program.completed)
      {id : SymbolId} {symbol : Symbol} (found : tables.symbol? id = some symbol)
      (undeclared : tables.declOf? id = none) :
      ∃ symbol, program.signed.symbol? id = some symbol ∧ symbol.decl = none := by
    obtain ⟨middle, middle_found, middle_untyped⟩ := keeps.exists_symbol? found
    obtain ⟨later, later_found, untyped⟩ := signatures.exists_symbol? middle_found
    refine ⟨later, later_found, (congrArg Symbol.decl (untyped.trans middle_untyped) :).trans ?_⟩
    rw [Tables.declOf?, found, Option.bind_some] at undeclared
    exact undeclared
  have none_imported (id : SymbolId) : program.imported.2.declOf? id = none := by
    cases declared : program.imported.2.declOf? id with
    | none => rfl
    | some node =>
        rcases (@declareScopes_binds [] program.files Predeclared.tables).bound id node
          declared with old | ⟨binding, listed, -⟩
        · rw [Predeclared.declOf?_eq_none] at old
          cases old
        · cases listed
  constructor
  · intro name id found
    obtain ⟨kind, known, -⟩ := program.reaches_signed.coherent.member _ name id found
    obtain ⟨symbol, symbol_found, entity⟩ := Option.map_eq_some_iff.mp known
    exact ⟨symbol, symbol_found, congrArg Entity.package entity⟩
  · rintro name id (found | found)
    · obtain ⟨entity, target, known, -⟩ := (program.sees_of_mem_units member).imports name id found
      obtain ⟨symbol, symbol_found, -⟩ := Option.map_eq_some_iff.mp known
      exact kept program.imported_keeps_universe symbol_found (none_imported id)
    · have lookup := signatures.lookup Predeclared.universal name trivial
      have same := lookup.trans (program.universe_kept.lookup _ name rfl)
      obtain ⟨kind, known, -⟩ := Predeclared.coherent.member _ name id (same.symm.trans found)
      obtain ⟨symbol, symbol_found, -⟩ := Option.map_eq_some_iff.mp known
      exact kept program.universe_kept symbol_found (Predeclared.declOf?_eq_none id)

/-- A name in a value or body refers to an entity of the package of its file, or to one that no
statement declares. -/
theorem atHome_of_name {unit : FileScope × File} (member : unit ∈ program.units) {mark : Mark}
    (marked : mark ∈ innerMarks unit.2) (role : mark.role = .name) {id : SymbolId}
    (found : program.resolve.uses[mark.id]? = some id) :
    program.resolve.AtHome unit.1.package id := by
  have start : Quiet program.units program.signed.packages.size { tables := program.signed } := by
    refine ⟨rfl, program.ready_signed, fun _ => known_signed unique, ?_⟩
    intro unit member mark marked role id found
    obtain ⟨decl, declared, recorded⟩ := List.mem_flatMap.mp marked
    have listed := decl_mem_of_units member declared
    have unused : program.signed.uses[mark.id]? = none := by
      rcases List.mem_append.mp recorded with value | body
      · exact uses_signed unique (.inl rfl) (List.mem_flatMap.mpr ⟨decl, listed, value⟩)
      · exact uses_signed unique (.inr rfl) (List.mem_flatMap.mpr ⟨decl, listed, body⟩)
    rw [unused] at found
    cases found
  have quiet := (start.values (unique_innerMarks unique)).bodies (unique_innerMarks unique)
  rw [program.resolve_eq] at found ⊢
  exact quiet.homely unit member mark marked role id found

end Program

end Relock
