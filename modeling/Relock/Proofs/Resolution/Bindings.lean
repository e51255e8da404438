import Mathlib.Data.List.Perm.Basic
import Relock.Proofs.Program.Parts
import Relock.Proofs.Resolution.Passes
import Relock.Proofs.Resolution.Program
import Relock.Proofs.Resolution.Records
import Relock.Proofs.Resolution.Scopes

/-!
# Variables and their bindings

Resolution says of a variable which statement or declaration declares it, and the bindings of a
program are listed apart from that. The two agree: under the number that a variable gives there is
a binding, and one of its names is recorded for the variable. Each round of resolution makes its
records for names of its own, so no record is lost.
-/

namespace Relock

/-- The rounds in which resolution goes over declarations. -/
inductive Round where
  | names
  | types
  | signatures
  | values
  | bodies

namespace Round

/-- The rounds in order. -/
def all : List Round := [names, types, signatures, values, bodies]

theorem mem_all (round : Round) : round ∈ all := by
  cases round <;> simp [all]

end Round

namespace Decl

/-- The marks of a declaration for which a round makes records. -/
def recorded : Decl → Round → List Mark
  | type spec, .names => [spec.name.mark]
  | type spec, .types => spec.body.names.map Ident.mark
  | func decl, .names => if decl.isMethod then [] else [⟨decl.name.id, .function decl⟩]
  | func decl, .signatures => if decl.isMethod then [⟨decl.name.id, .function decl⟩] else []
  | func decl, .bodies => decl.innerMarks
  | var spec, .names => spec.names.map Ident.mark
  | var spec, .values => exprMarks spec.values
  | _, _ => []

/-- The bindings of a declaration for whose variables a round makes records. -/
def bound : Decl → Round → List Binding
  | func decl, .bodies => (func decl).bindings
  | var spec, .names => [.declare spec]
  | var spec, .values => exprBindings spec.values
  | _, _ => []

theorem bound_subset (decl : Decl) (round : Round) : decl.bound round ⊆ decl.bindings := by
  cases decl <;> cases round <;> simp [bound, Decl.bindings]

/-- Each round has marks of its own. -/
theorem recorded_sublist (decl : Decl) : (Round.all.flatMap decl.recorded).Sublist decl.marks := by
  cases decl with
  | func decl =>
      by_cases method : decl.isMethod <;>
        simp [Round.all, recorded, Decl.marks, FuncDecl.marks, method]
  | var spec => simp [Round.all, recorded, Decl.marks]
  | type spec => simp [Round.all, recorded, Decl.marks]

theorem recorded_subset (decl : Decl) (round : Round) : decl.recorded round ⊆ decl.marks :=
  fun _ listed => decl.recorded_sublist.subset
    (List.mem_flatMap.mpr ⟨round, round.mem_all, listed⟩)

end Decl

namespace File

/-- The marks of a file for which a round makes records. -/
def recorded (file : File) (round : Round) : List Mark :=
  file.decls.flatMap fun decl => decl.recorded round

theorem mem_recorded {file : File} {round : Round} {decl : Decl} (declared : decl ∈ file.decls)
    {mark : Mark} (listed : mark ∈ decl.recorded round) : mark ∈ file.recorded round :=
  List.mem_flatMap.mpr ⟨decl, declared, listed⟩

theorem recorded_values (file : File) :
    file.recorded .values = file.vars.flatMap fun spec => exprMarks spec.values := by
  rw [recorded, vars]
  induction file.decls with
  | nil => rfl
  | cons decl decls ih =>
      rw [List.flatMap_cons, ih]
      cases decl <;> rfl

theorem exists_of_recorded {file : File} {round : Round} {mark : Mark}
    (listed : mark ∈ file.recorded round) : ∃ decl ∈ file.decls, mark ∈ decl.marks := by
  obtain ⟨decl, declared, recorded⟩ := List.mem_flatMap.mp listed
  exact ⟨decl, declared, decl.recorded_subset round recorded⟩

end File

namespace Program

/-- The marks of a program for which a round makes records. -/
def recorded (program : Program) (round : Round) : List Mark :=
  program.decls.flatMap fun decl => decl.recorded round

/-- The bindings of a program for whose variables a round makes records. -/
def bound (program : Program) (round : Round) : List Binding :=
  program.decls.flatMap fun decl => decl.bound round

variable {program : Program} (unique : program.UniqueIds)
include unique

theorem UniqueIds.recorded : Mark.Unique (Round.all.flatMap program.recorded) := by
  have turned (rounds : List Round) : List.Perm (rounds.flatMap program.recorded)
      (program.decls.flatMap fun decl => rounds.flatMap decl.recorded) := by
    induction rounds with
    | nil => simp
    | cons round rounds ih =>
        simp only [List.flatMap_cons]
        exact (ih.append_left _).trans (List.flatMap_append_perm _ _ _)
  have sublist : (program.decls.flatMap fun decl => Round.all.flatMap decl.recorded).Sublist
      program.marks := by
    rw [marks_eq]
    exact .flatMap_right _ fun decl _ => decl.recorded_sublist
  exact (((turned Round.all).map Mark.id).nodup_iff).mpr (unique.sublist (sublist.map Mark.id))

theorem UniqueIds.recorded_round (round : Round) : Mark.Unique (program.recorded round) := by
  have part : (program.recorded round).Sublist (Round.all.flatMap program.recorded) :=
    List.sublist_flatten_of_mem (List.mem_map_of_mem round.mem_all)
  exact unique.recorded.sublist (part.map Mark.id)

/-- Different rounds make records for different numbers. -/
theorem UniqueIds.recorded_apart {round other : Round} (different : round ≠ other) :
    Mark.Apart (program.recorded round) (program.recorded other) := by
  intro mark listed another other_listed same
  exact different (unique.recorded.eq_of_id_eq round.mem_all other.mem_all listed other_listed same)

end Program

namespace Tables

variable {marks : List Mark} {bindings : List Binding} {before middle after : Tables}

theorem Binds.of_decls (uses : after.uses = before.uses)
    (decls : ∀ id node, after.declOf? id = some node → before.declOf? id = some node) :
    Binds marks bindings before after :=
  ⟨fun _ _ => by rw [uses], fun id node declared => .inl (decls id node declared)⟩

theorem Binds.addSymbol {tables : Tables} {symbol : Symbol} (undeclared : symbol.decl = none) :
    Binds marks bindings tables (tables.addSymbol symbol).2 := by
  refine .of_decls rfl fun id node declared => ?_
  simp only [declOf?, symbol?, Tables.addSymbol, Array.getElem?_push] at declared
  split at declared
  · simp [undeclared] at declared
  · exact declared

theorem Binds.setType (tables : Tables) (id : SymbolId) (type : TypeRef) :
    Binds marks bindings tables (tables.setType id type) := by
  refine .of_decls rfl fun other node declared => ?_
  simp only [declOf?, symbol?, Tables.setType, Array.getElem?_modify] at declared ⊢
  split at declared
  · cases found : tables.symbols[other]? <;> simp_all
  · exact declared

/-- Where no variables are bound, the names may be the same all along. -/
theorem Binds.of_steps (steps : Relation.ReflTransGen (Binds marks []) before after) :
    Binds marks [] before after := by
  refine kept_of_steps (fun middle after second first => ?_) steps (.refl marks [] before)
  refine ⟨fun node apart => (second.uses node apart).trans (first.uses node apart), ?_⟩
  intro id node declared
  rcases second.bound id node declared with declared | ⟨_, ⟨⟩, _⟩
  rcases first.bound id node declared with declared | ⟨_, ⟨⟩, _⟩
  exact .inl declared

end Tables

namespace Resolution

variable {α : Type} {marks : List Mark} {scope : FileScope}

/-! ## Packages and imports

These rounds take few kinds of steps, so that what each of them keeps is known once for all. -/

section Always

variable {step : Tables → Tables → Prop}

section Packages

variable (addPackage : ∀ (tables : Tables) (info : PackageInfo), info.scope = ∅ →
  step tables (tables.addPackage info).2)
include addPackage

theorem declarePackages_always (known : List ((String × String) × PackageId)) (files : List File) :
    Always step (declarePackages known files) := by
  induction files generalizing known with
  | nil => exact .pure _
  | cons file files ih =>
      rw [declarePackages]
      split
      · exact (ih _).bind fun _ => .pure _
      · exact .bind (.modifyGet fun tables => addPackage tables _ rfl) fun _ =>
          (ih _).bind fun _ => .pure _

theorem importTarget_always (own : PackageId) (path : String) :
    Always step (importTarget own path) := by
  have external : Always step (externalPackage path) := by
    refine .get_bind fun tables => ?_
    split
    · exact .pure _
    · exact .modifyGet fun tables => addPackage tables _ rfl
  unfold importTarget
  split
  · exact .pure _
  · refine .get_bind fun tables => ?_
    split
    · split
      · exact external
      · exact .pure _
    · exact external

variable (addSymbol : ∀ (tables : Tables) (symbol : Symbol), symbol.decl = none →
  step tables (tables.addSymbol symbol).2)
include addSymbol

theorem declareImports_always (own : PackageId) (file : File) :
    Always step (declareImports own file) := by
  refine .bind (.foldlM (fun spec _ imports => ?_) ∅) fun _ => .pure _
  unfold declareImport
  dsimp only
  split
  · exact .pure _
  · exact (importTarget_always addPackage own spec.path).bind fun target =>
      .bind (.modifyGet fun tables => addSymbol tables _ rfl) fun _ => .pure _

theorem declareScopes_always (files : List File) : Always step (declareScopes files) :=
  (declarePackages_always addPackage [] files).bind fun _ =>
    .mapM fun unit _ => declareImports_always addPackage addSymbol unit.1 unit.2

end Packages

/-! ## Types and signatures -/

/-- A type is completed with fields or methods, for whose names uses are recorded. -/
theorem completeType_always {spec : TypeSpec}
    (addSymbol : ∀ (tables : Tables) (symbol : Symbol), symbol.decl = none →
      step tables (tables.addSymbol symbol).2)
    (recordUse : ∀ ident ∈ spec.body.names, ∀ (tables : Tables) (id : SymbolId),
      step tables (tables.recordUse ident.id id))
    (setUnderlying : ∀ (tables : Tables) (underlying : Underlying),
      step tables (tables.setUnderlying ⟨scope.package, spec.name.name⟩ underlying)) :
    Always step (completeType scope spec) := by
  refine .bind ?_ fun underlying => .modify fun tables => setUnderlying tables underlying
  revert recordUse
  cases spec.body with
  | struct fields =>
      intro recordUse
      refine .bind (.mapM fun decl listed => .get_bind fun tables => ?_) fun _ => .pure _
      dsimp only
      split
      · split
        · exact .bind (.bind (.modifyGet fun tables => addSymbol tables _ rfl) fun _ => .pure _)
            fun _ => .pure _
        · exact .pure _
      · refine .mapM fun ident named => .bind
          (.bind (.modifyGet fun tables => addSymbol tables _ rfl) fun _ => .pure _) fun field => ?_
        exact .bind (.modify fun tables =>
          recordUse ident (List.mem_flatMap.mpr ⟨decl, listed, named⟩) tables field.symbol)
            fun _ => .pure _
  | interface names =>
      intro recordUse
      refine .bind (.foldlM (fun ident named methods => ?_) ∅) fun _ => .pure _
      refine .bind (.modifyGet fun tables => addSymbol tables _ rfl) fun symbol => ?_
      exact .bind (.modify fun tables => recordUse ident named tables symbol) fun _ => .pure _
  | other type => exact fun _ => .get_bind fun _ => .pure _

end Always

/-- A round over packages and imports adds no variable that says what declares it. -/
theorem declareScopes_binds (files : List File) (tables : Tables) :
    tables.Binds marks [] ((declareScopes files).run tables).2 :=
  .of_steps (declareScopes_always (fun _ _ _ => .of_decls rfl fun _ _ => id)
    (fun _ _ => .addSymbol) files tables).1

theorem completeType_binds (spec : TypeSpec) (tables : Tables) :
    tables.Binds ((Decl.type spec).recorded .types) []
      ((completeType scope spec).run tables).2 := by
  refine .of_steps (completeType_always (fun _ _ => .addSymbol) (fun ident named tables id => ?_)
    (fun _ _ => .of_decls rfl fun _ _ => id) tables).1
  have marked : ident.mark ∈ (Decl.type spec).recorded .types := List.mem_map_of_mem named
  exact (Tables.Records.recordUse marked [] id).toBinds

theorem declareMethod_always_binds {decl : FuncDecl}
    (marked : ⟨decl.name.id, .function decl⟩ ∈ marks) (receiver type : TypeRef) :
    Always (Tables.Binds marks []) (declareMethod scope decl receiver type) := by
  refine .bind (.modify fun _ => .of_decls rfl fun _ _ => id) fun _ => ?_
  refine .bind (.modifyGet fun _ => .addSymbol rfl) fun symbol => ?_
  refine .bind (.modify fun _ => (Tables.Records.recordUse marked [] symbol).toBinds) fun _ => ?_
  split
  · exact .modify fun _ => .of_decls rfl fun _ _ => id
  · exact .pure _

theorem declareSignature_binds (decl : FuncDecl) (tables : Tables) :
    tables.Binds ((Decl.func decl).recorded .signatures) []
      ((declareSignature scope decl).run tables).2 := by
  have leads : Leads (Tables.Binds ((Decl.func decl).recorded .signatures) []) tables
      (declareSignature scope decl) := by
    refine .get_bind ?_
    dsimp only
    split
    · rename_i receiver receiver_eq
      refine declareMethod_always_binds ?_ _ _ tables
      simp [Decl.recorded, FuncDecl.isMethod, receiver_eq]
    · split
      · exact ⟨.single (.setType tables _ _), trivial⟩
      · exact .pure trivial
  exact .of_steps leads.1

/-! ## Names of variables -/

/-- A computation on a state with tables records uses for marked names, and adds variables that the
bindings name. -/
def Naming {σ : Type} (view : σ → Tables) (marks : List Mark) (bindings : List Binding)
    (computation : StateM σ α) : Prop :=
  ∀ state, (view state).Binds marks bindings (view (computation.run state).2)

namespace Naming

variable {σ β : Type} {view : σ → Tables} {more : List Mark} {bindings further : List Binding}

theorem pure (result : α) : Naming view marks bindings (pure result) :=
  fun state => .refl marks bindings (view state)

theorem bind {computation : StateM σ α} {next : α → StateM σ β}
    (first : Naming view marks bindings computation)
    (second : ∀ result, Naming view more further (next result)) (apart : Mark.Apart marks more) :
    Naming view (marks ++ more) (bindings ++ further) (computation >>= next) :=
  fun state => (first state).trans (second _ _) apart

theorem mono {computation : StateM σ α} (naming : Naming view marks bindings computation)
    (marks_subset : marks ⊆ more) (bindings_subset : bindings ⊆ further) :
    Naming view more further computation :=
  fun state => (naming state).mono marks_subset bindings_subset

theorem forM {items : List α} {action : α → StateM σ PUnit} {marksOf : α → List Mark}
    {bindingsOf : α → List Binding}
    (each : ∀ item ∈ items, Mark.Unique (marksOf item) →
      Naming view (marksOf item) (bindingsOf item) (action item))
    (unique : Mark.Unique (items.flatMap marksOf)) :
    Naming view (items.flatMap marksOf) (items.flatMap bindingsOf) (items.forM action) := by
  induction items with
  | nil => exact .pure PUnit.unit
  | cons item items ih =>
      rw [List.forall_mem_cons] at each
      rw [List.flatMap_cons, Mark.unique_append] at unique
      exact (each.1 unique.1).bind (fun _ => ih each.2 unique.2.1) unique.2.2

end Naming

/-- A name declares a member of a package. -/
theorem declareMember_binds {ident : Ident} {symbol : Symbol} {role : Role}
    {bindings : List Binding} (marked : ⟨ident.id, role⟩ ∈ marks)
    (named : ∀ node ∈ symbol.decl,
      ∃ binding ∈ bindings, binding.id = node ∧ some ident ∈ binding.names) :
    Naming id marks bindings (declareMember ident symbol) := by
  intro tables
  obtain ⟨uses, bound⟩ := (@Tables.Records.addSymbol marks bindings tables symbol ident role marked
    named).toBinds
  -- Of a member the package knows as well, which is of no concern for uses and variables.
  exact ⟨uses, bound⟩

theorem declareNames_binds {package : PackageId} {decl : Decl}
    (unique : Mark.Unique (decl.recorded .names)) :
    Naming id (decl.recorded .names) (decl.bound .names) (declareNames package decl) := by
  cases decl with
  | type spec =>
      unfold declareNames
      dsimp only
      split
      · exact .pure _
      · have first : Naming id [spec.name.mark] [] (declareMember spec.name
            ⟨spec.name.name, .typeName, package, .named ⟨package, spec.name.name⟩, none⟩) :=
          declareMember_binds List.mem_cons_self (by simp)
        have second : Naming id [] [] (modify fun tables =>
            tables.setNamed ⟨package, spec.name.name⟩ { underlying := .other .unknown }) :=
          fun _ => .of_decls rfl fun _ _ => id
        exact first.bind (fun _ => second) (Mark.apart_nil _)
  | func decl =>
      rw [declareNames]
      cases method : decl.isMethod with
      | true => exact .pure _
      | false =>
          refine @declareMember_binds _ _ _ (.function decl) _ ?_ (by simp)
          simp [Decl.recorded, method]
  | var spec =>
      rw [declareNames]
      have each (ident : Ident) (member : ident ∈ spec.names) :
          Naming id [ident.mark] [.declare spec] (unless ident.isBlank do
            declareMember ident ⟨ident.name, .var .package, package, .unknown, some spec.id⟩) := by
        split
        · exact .pure _
        · refine declareMember_binds List.mem_cons_self ?_
          rintro node ⟨⟩
          exact ⟨_, List.mem_cons_self, rfl, List.mem_map_of_mem member⟩
      simp only [Decl.recorded, List.map_eq_flatMap] at unique ⊢
      refine (Naming.forM (fun ident member _ => each ident member) unique).mono
        (List.Subset.refl _) fun binding found => ?_
      obtain ⟨_, -, own⟩ := List.mem_flatMap.mp found
      exact own

/-! ## Values and bodies -/

theorem retype_binds (name : Ident) (type : TypeRef) :
    Naming Resolving.tables [] [] (do
      match (← get).tables.objectOf name with
      | some symbol => modifyTables fun tables => tables.setType symbol type
      | none => return ()) := by
  refine fun state => ?_
  rw [run_get_bind]
  split
  · exact .setType state.tables _ type
  · exact .refl [] [] state.tables

theorem retypes_binds (items : List (Ident × TypeRef)) :
    Naming Resolving.tables [] [] (items.forM fun (name, type) => do
      match (← get).tables.objectOf name with
      | some symbol => modifyTables fun tables => tables.setType symbol type
      | none => return ()) := by
  induction items with
  | nil => exact .pure _
  | cons item items ih =>
      exact (retype_binds item.1 item.2).bind (fun _ => ih) (Mark.apart_nil [])

theorem resolvePackageVars_binds {spec : ValueSpec}
    (unique : Mark.Unique ((Decl.var spec).recorded .values)) :
    Naming Resolving.tables ((Decl.var spec).recorded .values) ((Decl.var spec).bound .values)
      (resolvePackageVars scope spec) := by
  intro state
  have values : Naming Resolving.tables (exprMarks spec.values) (exprBindings spec.values)
      (resolveExprs scope spec.values) :=
    fun state => (resolveExprs_records spec.values unique state).toBinds
  have both := values.bind (fun types => retypes_binds (spec.names.zip
    (specTypes spec.names (spec.type.map (resolveType scope state.tables)) types)))
      (Mark.apart_nil _) state
  rwa [List.append_nil, List.append_nil] at both

theorem resolveBody_binds {decl : FuncDecl}
    (unique : Mark.Unique ((Decl.func decl).recorded .bodies)) :
    Naming Resolving.tables ((Decl.func decl).recorded .bodies) ((Decl.func decl).bound .bodies)
      (resolveBody scope decl) :=
  fun state => (resolveBody_records unique state).toBinds

/-! ## Whole programs -/

/-- A loop over the items that have something to act on. -/
theorem forM_filterMap {σ β : Type} (items : List α) (pick : α → Option β)
    (action : β → StateM σ PUnit) :
    (items.filterMap pick).forM action = items.forM fun item =>
      match pick item with
      | some part => action part
      | none => pure PUnit.unit := by
  induction items with
  | nil => rfl
  | cons item items ih =>
      cases picked : pick item with
      | none => simp_all
      | some part => simp_all

section Rounds

variable {program : Program} {units : List (FileScope × File)}
  (files : units.map Prod.snd = program.files)
include files

/-- A round over all files makes the records of their declarations. -/
theorem round_binds {σ : Type} {view : σ → Tables} {round : Round}
    {action : FileScope × File → StateM σ PUnit}
    (each : ∀ unit, Mark.Unique (unit.2.decls.flatMap fun decl => decl.recorded round) →
      Naming view (unit.2.decls.flatMap fun decl => decl.recorded round)
        (unit.2.decls.flatMap fun decl => decl.bound round) (action unit))
    (unique : Mark.Unique (program.recorded round)) :
    Naming view (program.recorded round) (program.bound round) (units.forM action) := by
  have flat {β : Type} (part : Decl → List β) : program.decls.flatMap part =
      units.flatMap fun unit => unit.2.decls.flatMap part := by
    rw [Program.decls, ← files, List.flatMap_assoc, List.flatMap_map]
  rw [Program.recorded, flat] at unique ⊢
  rw [Program.bound, flat]
  exact .forM (fun unit _ => each unit) unique

theorem names_bind (unique : Mark.Unique (program.recorded .names)) :
    Naming id (program.recorded .names) (program.bound .names)
      (units.forM fun unit => unit.2.decls.forM (declareNames unit.1.package)) :=
  round_binds files (fun _ => .forM fun _ _ => declareNames_binds) unique

theorem types_bind (unique : Mark.Unique (program.recorded .types)) :
    Naming id (program.recorded .types) (program.bound .types)
      (units.forM fun unit => unit.2.types.forM (completeType unit.1)) := by
  refine round_binds files (fun unit unique_file => ?_) unique
  rw [File.types, forM_filterMap]
  refine .forM (fun decl _ _ => ?_) unique_file
  cases decl with
  | type spec => exact completeType_binds spec
  | func | var => exact .pure _

theorem signatures_bind (unique : Mark.Unique (program.recorded .signatures)) :
    Naming id (program.recorded .signatures) (program.bound .signatures)
      (units.forM fun unit => unit.2.functions.forM (declareSignature unit.1)) := by
  refine round_binds files (fun unit unique_file => ?_) unique
  rw [File.functions, forM_filterMap]
  refine .forM (fun decl _ _ => ?_) unique_file
  cases decl with
  | func decl => exact declareSignature_binds decl
  | type | var => exact .pure _

theorem values_bind (unique : Mark.Unique (program.recorded .values)) :
    Naming Resolving.tables (program.recorded .values) (program.bound .values)
      (units.forM fun unit => unit.2.vars.forM (resolvePackageVars unit.1)) := by
  refine round_binds files (fun unit unique_file => ?_) unique
  rw [File.vars, forM_filterMap]
  refine .forM (fun decl _ unique_decl => ?_) unique_file
  cases decl with
  | var spec => exact resolvePackageVars_binds unique_decl
  | type | func => exact .pure _

theorem bodies_bind (unique : Mark.Unique (program.recorded .bodies)) :
    Naming Resolving.tables (program.recorded .bodies) (program.bound .bodies)
      (units.forM fun unit => unit.2.functions.forM (resolveBody unit.1)) := by
  refine round_binds files (fun unit unique_file => ?_) unique
  rw [File.functions, forM_filterMap]
  refine .forM (fun decl _ unique_decl => ?_) unique_file
  cases decl with
  | func decl => exact resolveBody_binds unique_decl
  | type | var => exact .pure _

end Rounds

/-- The files of a program, each with what it sees. -/
theorem map_snd_declareScopes (program : Program) :
    (((declareScopes program.files).run Predeclared.tables).1.zip program.files).map Prod.snd =
      program.files := by
  obtain ⟨-, seen⟩ := @declareScopes_leads [] program.marks _ program.files
    Predeclared.housed.predeclared
  exact List.map_snd_zip (Nat.le_of_eq seen.length_eq.symm)

/-- The records of a program are made by all rounds together. -/
theorem resolve_binds {program : Program} (unique : program.UniqueIds) :
    Predeclared.tables.Binds (Round.all.flatMap program.recorded)
      (Round.all.flatMap program.bound) program.resolve := by
  have unique := unique.recorded
  simp only [Round.all, List.flatMap_cons, List.flatMap_nil, List.append_nil,
    Mark.unique_append] at unique ⊢
  obtain ⟨names, ⟨types, ⟨signatures, ⟨values, bodies, values_apart⟩, signatures_apart⟩,
    types_apart⟩, names_apart⟩ := unique
  have files := map_snd_declareScopes program
  have scopes := @declareScopes_binds [] program.files Predeclared.tables
  have inner (tables : Tables) := (values_bind files values { tables }).trans
    (bodies_bind files bodies _) values_apart
  rw [Program.resolve, declareProgram_eq]
  exact scopes.trans ((names_bind files names _).trans ((types_bind files types _).trans
    ((signatures_bind files signatures _).trans (inner _) signatures_apart) types_apart)
    names_apart) (Mark.nil_apart _)

end Resolution

theorem Predeclared.decl_eq_none_all :
    ∀ symbol ∈ Predeclared.tables.symbols.toList, symbol.decl = none := by
  decide +kernel

theorem Predeclared.declOf?_eq_none (id : SymbolId) : Predeclared.tables.declOf? id = none := by
  cases found : Predeclared.tables.symbol? id with
  | none => simp [Tables.declOf?, found]
  | some symbol =>
      have member := Array.mem_toList_iff.mpr (Array.mem_of_getElem? found)
      simp [Tables.declOf?, found, Predeclared.decl_eq_none_all symbol member]

namespace Program

theorem bound_subset (program : Program) : Round.all.flatMap program.bound ⊆ program.bindings := by
  intro binding listed
  obtain ⟨round, -, listed⟩ := List.mem_flatMap.mp listed
  obtain ⟨decl, decl_mem, listed⟩ := List.mem_flatMap.mp listed
  rw [bindings_eq]
  exact List.mem_flatMap.mpr ⟨decl, decl_mem, decl.bound_subset round listed⟩

/-- What resolution and the list of bindings say of variables agrees: a variable that says what
declares it has a binding of this number, one of whose names is recorded for it. Of the assignments
that stand anywhere in the program, each is listed exactly once. -/
theorem bindings_agree (program : Program) (unique : program.UniqueIds) :
    (∀ id symbol place node, program.resolve.symbol? id = some symbol → symbol.kind = .var place →
      symbol.decl = some node →
      ∃ binding, program.bindingTable[node]? = some binding ∧
        ∃ ident, some ident ∈ binding.names ∧ program.resolve.objectOf ident = some id) ∧
    ∀ assignment, program.Contains (.stmt assignment.stmt) ↔
      ∃! position : Nat, program.assignments[position]? = some assignment := by
  refine ⟨fun id symbol place node found _ declared => ?_,
    fun assignment => unique.existsUnique_assignment_iff.symm⟩
  have declOf : program.resolve.declOf? id = some node := by
    simp [Tables.declOf?, found, declared]
  rcases (Resolution.resolve_binds unique).bound id node declOf with old | names
  · rw [Predeclared.declOf?_eq_none] at old
    cases old
  · obtain ⟨binding, bound, rfl, ident, ident_mem, -, recorded⟩ := names
    exact ⟨binding, unique.bindingTable_eq (program.bound_subset bound), ident, ident_mem, recorded⟩

/-- The assignment `step = nil`. -/
def hiddenAssignment : Assignment :=
  ⟨⟨0, 9⟩, [.ident (Sample.name 10 "step")], [.ident (Sample.name 11 "nil")], false, .zero⟩

/-- A variable that is defined in a closure, and assigned in a closure that a deferred call there
hands over. -/
def hidden : Program :=
  ⟨[⟨0, "p.go", "p", ".", [],
    [.var ⟨⟨0, 0⟩, [Sample.name 1 "run"], none,
      [.literal ⟨0, 2⟩ [] none
        [.assign ⟨0, 3⟩ [.paren (.ident (Sample.name 4 "step")) .zero]
            [.literal ⟨0, 5⟩ [] none [] .zero .zero] true .zero,
          .defer ⟨0, 6⟩ (.ident (Sample.name 7 "step"))
            [.literal ⟨0, 8⟩ [] none [hiddenAssignment.stmt] .zero .zero] .zero .zero]
        .zero .zero], .zero⟩]⟩]⟩

theorem hidden_bindings_agree :
    hidden.UniqueIds ∧
      hidden.resolve.symbol? 66 = some ⟨"step", .var .local, 2, .func, some ⟨0, 3⟩⟩ ∧
      hidden.Contains (.stmt hiddenAssignment.stmt) ∧
      (∃ binding, hidden.bindingTable[NodeId.mk 0 3]? = some binding ∧
        ∃ ident, some ident ∈ binding.names ∧ hidden.resolve.objectOf ident = some 66) ∧
      ∃! position : Nat, hidden.assignments[position]? = some hiddenAssignment := by
  have unique : hidden.UniqueIds := by decide +kernel
  have found : hidden.resolve.symbol? 66 =
      some ⟨"step", .var .local, 2, .func, some ⟨0, 3⟩⟩ := by decide +kernel
  -- From the value of `run` to the deferred call, its argument and the body of that.
  have inside : hidden.Contains (.stmt hiddenAssignment.stmt) :=
    ⟨_, List.mem_cons_self, _, List.mem_cons_self,
      .head (List.mem_cons_of_mem _ List.mem_cons_self)
        (.head (List.mem_cons_of_mem _ List.mem_cons_self)
          (.head List.mem_cons_self .refl))⟩
  obtain ⟨bound, listed⟩ := bindings_agree hidden unique
  exact ⟨unique, found, inside, bound 66 _ _ _ found rfl rfl, (listed _).mp inside⟩

end Program

end Relock
