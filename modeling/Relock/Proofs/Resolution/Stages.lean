import Relock.Proofs.Resolution.Bindings
import Relock.Proofs.Resolution.Functions

/-!
# The stages of resolution

The tables of a program between the rounds of resolution: with what files see, with the names of
members, with types, with signatures, and with the values of variables. Up to the signatures each of
them comes about by the changes that declarations make.
-/

namespace Relock

namespace Resolution

/-! ## Rounds -/

variable (units : List (FileScope × File))

/-- The round that declares the names of members. -/
abbrev namesRound : Building PUnit :=
  units.forM fun unit => unit.2.decls.forM (declareNames unit.1.package)

/-- The round that completes types. -/
abbrev typesRound : Building PUnit :=
  units.forM fun unit => unit.2.types.forM (completeType unit.1)

/-- The round that declares signatures. -/
abbrev signaturesRound : Building PUnit :=
  units.forM fun unit => unit.2.functions.forM (declareSignature unit.1)

/-- The round that resolves the values of variables of packages. -/
abbrev valuesRound : Resolve PUnit :=
  units.forM fun unit => unit.2.vars.forM (resolvePackageVars unit.1)

/-- The round that resolves bodies. -/
abbrev bodiesRound : Resolve PUnit :=
  units.forM fun unit => unit.2.functions.forM (resolveBody unit.1)

theorem valuesRound_keeping : Keeping (valuesRound units) :=
  .forM fun _ _ => .forM fun spec _ => resolvePackageVars_keeping spec

theorem run_forM_append {σ α : Type} (items more : List α) (action : α → StateM σ PUnit)
    (state : σ) : (((items ++ more).forM action).run state).2 =
      ((more.forM action).run ((items.forM action).run state).2).2 := by
  induction items generalizing state with
  | nil => rfl
  | cons item items ih => exact ih ((action item).run state).2

end Resolution

namespace Program

open Resolution

variable (program : Program) {unit : FileScope × File} {decl : FuncDecl}

/-! ## Tables between rounds -/

/-- What the files of a program see, and the tables that say what it is. -/
def imported : List FileScope × Tables := (declareScopes program.files).run Predeclared.tables

/-- The files of a program with what they see. -/
def units : List (FileScope × File) := program.imported.1.zip program.files

/-- The tables with the names of members. -/
def named : Tables := ((namesRound program.units).run program.imported.2).2

/-- The tables with completed types. -/
def completed : Tables := ((typesRound program.units).run program.named).2

/-- The tables with signatures. -/
def signed : Tables := ((signaturesRound program.units).run program.completed).2

/-- The state with the values of variables. -/
def valued : Resolving := ((valuesRound program.units).run { tables := program.signed }).2

/-! ## Changes -/

/-- The tables come about by changes that the declarations of the program make. -/
def Reaches (tables : Tables) : Prop :=
  Relation.ReflTransGen (Change (declaredIn program.units) program.marks) Predeclared.tables tables

variable {program} {tables : Tables}

namespace Reaches

variable (reaches : program.Reaches tables)
include reaches

theorem housed : tables.Housed :=
  housed_of_changes reaches Predeclared.housed

theorem coherent : tables.Coherent :=
  kept_of_steps (fun _ _ change => change.coherent) reaches Predeclared.coherent

theorem refers : tables.Refers (declaredIn program.units) :=
  kept_of_steps (fun _ _ change => change.refers) reaches (Predeclared.refers _)

end Reaches

variable (program)

theorem sees_imported : List.Forall₂ (fun scope file => program.imported.2.Sees scope file)
    program.imported.1 program.files :=
  (@declareScopes_leads [] program.marks _ program.files Predeclared.housed.predeclared).2

theorem map_snd_units : program.units.map Prod.snd = program.files :=
  List.map_snd_zip (Nat.le_of_eq program.sees_imported.length_eq.symm)

theorem Reaches.accounts {program : Program} (unique : program.UniqueIds)
    (reaches : program.Reaches tables) : tables.Accounts (declaredIn program.units) :=
  kept_of_steps (fun _ _ change => change.accounts unique fun _ _ =>
    functions_of_units program.map_snd_units) reaches (Predeclared.accounts _)

theorem sees_of_mem_units (member : unit ∈ program.units) : program.imported.2.Sees unit.1 unit.2 :=
  (List.forall₂_iff_zip.mp program.sees_imported).2 member

theorem imports_lt_size (growth : program.imported.2.Extends tables) (unit : FileScope × File)
    (member : unit ∈ program.units) (name : String) (id : SymbolId)
    (found : unit.1.imports[name]? = some id) : id < tables.symbols.size := by
  obtain ⟨entity, target, known, -⟩ :=
    ((program.sees_of_mem_units member).extend growth).imports name id found
  exact Tables.lt_size_of_entity? known

theorem steps_imported : Relation.ReflTransGen (Change [] program.marks) Predeclared.tables
    program.imported.2 :=
  (@declareScopes_leads [] program.marks _ program.files Predeclared.housed.predeclared).1

theorem reaches_imported : program.Reaches program.imported.2 :=
  Relation.ReflTransGen.mono (fun _ _ change => change.mono (List.nil_subset _)) _ _
    program.steps_imported

theorem lt_size_of_mem_units (member : unit ∈ program.units) :
    unit.1.package < program.imported.2.packages.size :=
  Tables.lt_size_of_label? (program.sees_of_mem_units member).owns.2

theorem objectOf_imported (unique : program.UniqueIds) (member : decl ∈ program.functions) :
    program.imported.2.objectOf decl.name = none :=
  (objectOf_of_changes program.steps_imported (unique.name_apart member) (by simp)).trans
    (Predeclared.uses_eq_none decl.name.id)

theorem steps_named : Relation.ReflTransGen (Change (plainIn program.units) program.marks)
    program.imported.2 program.named :=
  (declareNames_all_leads program.map_snd_units (fun _ => program.lt_size_of_mem_units)
    fun unique _ => program.objectOf_imported unique).1

theorem steps_completed : Relation.ReflTransGen (Change (plainIn program.units) program.marks)
    program.named program.completed :=
  (completeType_all_leads program.map_snd_units
    (housed_of_changes program.steps_named program.reaches_imported.housed)
    fun _ member => package_lt_of_changes program.steps_named
      (program.lt_size_of_mem_units member)).1

theorem plainIn_subset (units : List (FileScope × File)) : plainIn units ⊆ declaredIn units :=
  List.filter_subset_self _

theorem reaches_named : program.Reaches program.named :=
  program.reaches_imported.trans (Relation.ReflTransGen.mono
    (fun _ _ change => change.mono (plainIn_subset _)) _ _ program.steps_named)

theorem reaches_completed : program.Reaches program.completed :=
  program.reaches_named.trans (Relation.ReflTransGen.mono
    (fun _ _ change => change.mono (plainIn_subset _)) _ _ program.steps_completed)

/-- The names of methods are recorded no earlier than their signatures. -/
theorem objectOf_completed (unique : program.UniqueIds) (member : decl ∈ program.functions)
    (method : decl.isMethod = true) : program.completed.objectOf decl.name = none :=
  (objectOf_of_plain_changes program.map_snd_units unique
    (program.steps_named.trans program.steps_completed) member method).trans
      (program.objectOf_imported unique member)

theorem steps_signed : Relation.ReflTransGen (Change (declaredIn program.units) program.marks)
    program.imported.2 program.signed :=
  (declareMembers_leads program.map_snd_units program.reaches_imported.housed
    (fun _ => program.lt_size_of_mem_units) fun unique _ => program.objectOf_imported unique).1

theorem reaches_signed : program.Reaches program.signed :=
  program.reaches_imported.trans program.steps_signed

theorem ready_signed (unit : FileScope × File) (member : unit ∈ program.units) :
    Ready unit.1 program.signed.packages.size { tables := program.signed } :=
  ⟨rfl, package_lt_of_changes program.steps_signed (program.lt_size_of_mem_units member),
    program.reaches_signed.housed⟩

/-- The state with everything resolved. -/
def resolved : Resolving := ((bodiesRound program.units).run program.valued).2

theorem resolve_eq : program.resolve = program.resolved.tables := by
  rw [resolve, declareProgram_eq]
  rfl

theorem steps_valued :
    Relation.ReflTransGen (StepIn program.units program.marks) { tables := program.signed }
      program.valued :=
  (values_lead program.ready_signed program.map_snd_units).1

theorem steps_resolved :
    Relation.ReflTransGen (StepIn program.units program.marks) { tables := program.signed }
      program.resolved :=
  (resolveBodies_leads program.ready_signed program.map_snd_units).1

theorem runs : Runs program program.units program.signed program.resolved where
  files := program.map_snd_units
  changes := program.reaches_signed
  sees _ member := (program.sees_of_mem_units member).extend
    (grows_of_changes program.steps_signed)
  steps := program.steps_resolved
  tables_eq := program.resolve_eq

theorem sound_of_steps {state : Resolving} (steps : Relation.ReflTransGen
      (StepIn program.units program.marks) { tables := program.signed } state) :
    Sound program.units state := by
  have start : Sound program.units { tables := program.signed } :=
    { coherent := program.reaches_signed.coherent
      refers := program.reaches_signed.refers
      sees := program.runs.sees
      locals := fun scope member => by simp [ScopeStack.empty] at member }
  refine kept_of_steps (fun before after step => ?_) steps start
  obtain ⟨unit, member, step⟩ := step
  exact Sound.step member step

end Program

/-! ## What names declare -/

namespace Decl

/-- The kind of the members that a declaration declares. -/
def memberKind : Decl → SymbolKind
  | type _ => .typeName
  | func _ => .func
  | var _ => .var .package

/-- The entity is a member that the declaration declares in a package. Types of variables are not yet
known. -/
structure Makes (package : PackageId) (decl : Decl) (symbol : Symbol) : Prop where
  package : symbol.package = package
  kind : symbol.kind = decl.memberKind
  type : symbol.kind = .var .package → symbol.type = .unknown

end Decl

namespace Resolution

/-- One change that the names of declarations make to the tables: a name declares a member of the
package, or a type gets its place. -/
inductive NameStep (items : List (PackageId × Decl)) : Tables → Tables → Prop where
  | member (tables : Tables) (item : PackageId × Decl) (ident : Ident) (symbol : Symbol)
      (listed : item ∈ items) (marked : ∃ mark ∈ item.2.recorded .names, mark.id = ident.id)
      (made : item.2.Makes item.1 symbol) : NameStep items tables (tables.declareAs ident symbol)
  | type (tables : Tables) (ref : NamedRef) (type : NamedType) :
      NameStep items tables (tables.setNamed ref type)

variable {items : List (PackageId × Decl)}

theorem declareNames_steps {item : PackageId × Decl} (listed : item ∈ items) (tables : Tables) :
    Leads (NameStep items) tables (declareNames item.1 item.2) := by
  obtain ⟨package, decl⟩ := item
  cases decl with
  | type spec =>
      dsimp only
      rw [declareNames]
      split
      · exact .pure trivial
      · refine (declareMember_leads (.member tables _ spec.name _ listed ?_ ⟨rfl, rfl, by simp⟩)).bind
          fun _ reached _ _ => .modify (.type reached _ _) trivial
        exact ⟨_, List.mem_cons_self, rfl⟩
  | func decl =>
      dsimp only
      rw [declareNames]
      split
      · exact .pure trivial
      · rename_i plain
        refine declareMember_leads (.member tables _ decl.name _ listed ?_ ⟨rfl, rfl, by simp⟩)
        exact ⟨⟨decl.name.id, .function decl⟩, by simp [Decl.recorded, plain], rfl⟩
  | var spec =>
      dsimp only
      rw [declareNames]
      refine .forM fun ident member reached _ => ?_
      split
      · exact .pure trivial
      · refine declareMember_leads (.member reached _ ident _ listed ?_ ⟨rfl, rfl, fun _ => rfl⟩)
        exact ⟨ident.mark, List.mem_map_of_mem member, rfl⟩

end Resolution

namespace Tables

/-- What is recorded for the names of a declaration, the declaration makes. -/
def Owned (items : List (PackageId × Decl)) (tables : Tables) : Prop :=
  ∀ item ∈ items, ∀ mark ∈ item.2.recorded .names, ∀ id, tables.uses[mark.id]? = some id →
    ∃ symbol, tables.symbol? id = some symbol ∧ item.2.Makes item.1 symbol

/-- What is recorded exists, and is recorded once. -/
structure Separate (tables : Tables) : Prop where
  known : ∀ (node : NodeId) id, tables.uses[node]? = some id → id < tables.symbols.size
  once : ∀ (node other : NodeId) id, tables.uses[node]? = some id →
    tables.uses[other]? = some id → node = other

end Tables

namespace Resolution

variable {items : List (PackageId × Decl)} {before after : Tables}

theorem NameStep.owned (unique : Mark.Unique (items.flatMap fun item => item.2.recorded .names))
    (step : NameStep items before after) (owned : before.Owned items) : after.Owned items := by
  cases step with
  | type ref type => exact owned
  | member other ident symbol other_listed marked made =>
      intro item listed mark mark_mem id recorded
      obtain ⟨another, another_mem, number⟩ := marked
      rcases found_of_insert recorded with ⟨same, rfl⟩ | recorded
      · cases unique.eq_of_id_eq other_listed listed another_mem mark_mem (number.trans same)
        exact ⟨symbol, (before.symbol?_addSymbol symbol _).trans (if_pos rfl), made⟩
      · obtain ⟨old, found, own⟩ := owned item listed mark mark_mem id recorded
        have earlier : id < before.symbols.size := (Array.getElem?_eq_some_iff.mp found).1
        exact ⟨old, (before.symbol?_addSymbol symbol id).trans
          ((if_neg (Nat.ne_of_lt earlier)).trans found), own⟩

/-- A name gets a new entity. -/
theorem NameStep.separate (step : NameStep items before after) (separate : before.Separate) :
    after.Separate := by
  cases step with
  | type ref type => exact ⟨separate.known, separate.once⟩
  | member item ident symbol listed marked made =>
      have uses (node : NodeId) : (before.declareAs ident symbol).uses[node]? =
          if ident.id = node then some before.symbols.size else before.uses[node]? := by
        simp [Tables.declareAs, Tables.recordUse, Tables.declare, Tables.addSymbol, Tables.bind,
          Std.TreeMap.getElem?_insert]
      have size : (before.declareAs ident symbol).symbols.size = before.symbols.size + 1 :=
        Array.size_push symbol
      have new {node : NodeId} (recorded : before.uses[node]? = some before.symbols.size) : False :=
        Nat.lt_irrefl _ (separate.known node _ recorded)
      refine ⟨fun node id recorded => ?_, fun node other id recorded other_recorded => ?_⟩
      · rw [uses] at recorded
        rw [size]
        split at recorded
        · cases recorded
          exact Nat.lt_succ_self _
        · exact Nat.lt_succ_of_lt (separate.known node id recorded)
      · rw [uses] at recorded other_recorded
        split at recorded <;> split at other_recorded
        · exact ‹ident.id = node›.symm.trans ‹ident.id = other›
        · cases recorded
          exact (new other_recorded).elim
        · cases other_recorded
          exact (new recorded).elim
        · exact separate.once node other id recorded other_recorded

/-- The declarations of files, each with its package. -/
def declsIn (units : List (FileScope × File)) : List (PackageId × Decl) :=
  units.flatMap fun unit => unit.2.decls.map (unit.1.package, ·)

theorem mem_declsIn {units : List (FileScope × File)} {unit : FileScope × File}
    (member : unit ∈ units) {decl : Decl} (declared : decl ∈ unit.2.decls) :
    (unit.1.package, decl) ∈ declsIn units :=
  List.mem_flatMap.mpr ⟨unit, member, List.mem_map_of_mem declared⟩

end Resolution

namespace Program

open Resolution

section

variable (program : Program)

theorem map_snd_declsIn : (declsIn program.units).map Prod.snd = program.decls := by
  rw [declsIn, List.map_flatMap, Program.decls, ← program.map_snd_units, List.flatMap_map]
  simp [Function.comp_def]

theorem steps_names :
    Leads (NameStep (declsIn program.units)) program.imported.2 (namesRound program.units) :=
  .forM fun _ member _ _ => .forM fun _ declared reached _ =>
    declareNames_steps (mem_declsIn member declared) reached

theorem uses_imported (node : NodeId) : program.imported.2.uses[node]? = none := by
  have unused := (@declareScopes_binds [] program.files Predeclared.tables).uses node
    (by simp)
  rw [Program.imported, unused, Predeclared.uses_eq_none]

theorem separate_named : program.named.Separate := by
  refine kept_of_steps (fun _ _ step => step.separate) program.steps_names.1 ⟨?_, ?_⟩
  · intro node id recorded
    cases (program.uses_imported node).symm.trans recorded
  · intro node other id recorded
    cases (program.uses_imported node).symm.trans recorded

end

variable {program : Program} (unique : program.UniqueIds) {mark : Mark} {unit : FileScope × File}
  {decl : Decl} {id : SymbolId}
include unique

/-- The names that are recorded first keep their records while types are completed. -/
theorem uses_completed (listed : mark ∈ program.recorded .names) :
    program.completed.uses[mark.id]? = program.named.uses[mark.id]? := by
  have apart : Mark.Apart (program.recorded .types) (program.recorded .names) :=
    unique.recorded_apart nofun
  exact (types_bind program.map_snd_units (unique.recorded_round .types) program.named).uses
    mark.id fun other recorded => apart other recorded mark listed

/-- What a name declares is a member of the package of its file. -/
theorem symbol_of_name (member : unit ∈ program.units) (declared : decl ∈ unit.2.decls)
    (listed : mark ∈ decl.recorded .names) (recorded : program.completed.uses[mark.id]? = some id) :
    ∃ symbol, program.named.symbol? id = some symbol ∧ decl.Makes unit.1.package symbol := by
  have flat : program.recorded .names =
      (declsIn program.units).flatMap fun item => item.2.recorded .names := by
    rw [Program.recorded, ← program.map_snd_declsIn, List.flatMap_map]
  have start : program.imported.2.Owned (declsIn program.units) := by
    intro item _ mark _ id found
    cases (program.uses_imported mark.id).symm.trans found
  have owned : program.named.Owned (declsIn program.units) :=
    kept_of_steps (fun _ _ step => step.owned (flat ▸ unique.recorded_round .names))
      program.steps_names.1 start
  have item := mem_declsIn member declared
  have in_program : mark ∈ program.recorded .names := flat ▸ List.mem_flatMap.mpr ⟨_, item, listed⟩
  rw [uses_completed unique in_program] at recorded
  exact owned _ item mark listed id recorded

theorem member_of_name (member : unit ∈ program.units) (declared : decl ∈ unit.2.decls)
    (listed : mark ∈ decl.recorded .names) (recorded : program.completed.uses[mark.id]? = some id) :
    ∃ entity, program.completed.entity? id = some entity ∧ entity.package = unit.1.package ∧
      entity.kind = decl.memberKind := by
  obtain ⟨symbol, found, made⟩ := symbol_of_name unique member declared listed recorded
  exact ⟨symbol.entity, (grows_of_changes program.steps_completed).entity id _
    (congrArg (Option.map Symbol.entity) found), made.package, made.kind⟩

/-- Different names declare different members. -/
theorem name_injective {first second : Mark} (listed : first ∈ program.recorded .names)
    (second_listed : second ∈ program.recorded .names)
    (recorded : program.completed.uses[first.id]? = some id)
    (second_recorded : program.completed.uses[second.id]? = some id) : first.id = second.id := by
  rw [uses_completed unique listed] at recorded
  rw [uses_completed unique second_listed] at second_recorded
  exact program.separate_named.once _ _ id recorded second_recorded

end Program

end Relock
