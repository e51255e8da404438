import Relock.Proofs.Resolution.Declaration

/-!
# The rounds of declaration

Packages and imports come first, then the names of members, then what types are made of, and last
the signatures of functions and methods. Each round makes changes of the known kinds only. Where
numbers are unique a function or method is declared once, since its name is recorded when it is
declared and not before.
-/

namespace Relock

namespace Resolution

variable {declared : List (PackageId × FuncDecl)} {marks : List Mark}
  {tables before after : Tables} {package own : PackageId} {symbol : Symbol} {ref : NamedRef}
  {scope : FileScope} {decl : Decl}

/-! ## Packages and imports -/

theorem newSymbol_leads (kind : symbol.kind.isCallable = false) (untyped : symbol.kind ≠ .typeName)
    (within : symbol.isWithin tables.packages.size = true) (unbound : symbol.decl = none) :
    Leads (Change declared marks) tables (newSymbol symbol) fun id reached =>
      reached.entity? id = some symbol.entity := by
  refine .modifyGet (.part tables symbol kind untyped within unbound) ?_
  rw [Tables.entity?_addSymbol]
  exact if_pos rfl

theorem newPackage_leads {info : PackageInfo} (empty : info.scope = ∅) (tables : Tables) :
    Leads (Change declared marks) tables (newPackage info) fun id reached =>
      tables.packages.size ≤ id ∧ reached.label? id = some (info.path, info.name) := by
  refine .modifyGet (.package tables info empty) ⟨Nat.le_refl _, ?_⟩
  rw [Tables.label?_addPackage]
  exact if_pos rfl

/-- Each file belongs to a package of its directory and its package name. The universe and package
`sync` come before all of them. -/
theorem declarePackages_leads {files : List File} {known : List ((String × String) × PackageId)}
    (predeclared : Predeclared.sync < tables.packages.size)
    (right : ∀ label package, (label, package) ∈ known → tables.Owns package label) :
    Leads (Change declared marks) tables (declarePackages known files) fun packages reached =>
      List.Forall₂ (fun file package => reached.Owns package (file.dir, file.package))
        files packages := by
  induction files generalizing known tables with
  | nil => exact .pure .nil
  | cons file files ih =>
      rw [declarePackages]
      cases found : known.lookup (file.dir, file.package) with
      | some package =>
          obtain ⟨front, back, known_eq, -⟩ := List.lookup_eq_some_iff.mp found
          have owns := right (file.dir, file.package) package (by simp [known_eq])
          refine (ih predeclared right).bind fun packages reached steps all => .pure ?_
          exact .cons (owns.extend (grows_of_changes steps)) all
      | none =>
          refine (newPackage_leads rfl tables).bind fun package reached steps created => ?_
          have owns : reached.Owns package (file.dir, file.package) :=
            ⟨Nat.lt_of_lt_of_le predeclared created.1, created.2⟩
          have more : Predeclared.sync < reached.packages.size :=
            Nat.lt_trans owns.1 (Tables.lt_size_of_label? owns.2)
          refine (ih more ?_).bind fun packages final steps all => .pure ?_
          · intro label other member
            rcases List.mem_cons.mp member with same | member
            · cases same
              exact owns
            · exact (right label other member).extend (grows_of_changes steps)
          · exact .cons (owns.extend (grows_of_changes steps)) all

theorem externalPackage_leads (path : String) (tables : Tables) :
    Leads (Change declared marks) tables (externalPackage path) fun package reached =>
      package < reached.packages.size := by
  refine .get_bind ?_
  cases found : externalPackage? tables path with
  | some package => exact .pure (Array.findIdx?_eq_some_iff_getElem.mp found).1
  | none =>
      refine (newPackage_leads rfl tables).weaken fun package reached _ created => ?_
      exact Tables.lt_size_of_label? created.2

theorem lt_size_of_sourcePackage? {name : String}
    (found : sourcePackage? tables own name = some package) : package < tables.packages.size := by
  obtain ⟨entry, entry_eq, rfl⟩ := Option.map_eq_some_iff.mp found
  have bound := List.snd_lt_of_mem_zipIdx (List.mem_of_find?_eq_some entry_eq)
  rwa [Array.length_toList] at bound

/-- What is imported is an existing package. -/
theorem importTarget_leads (own : PackageId) (path : String)
    (predeclared : Predeclared.sync < tables.packages.size) :
    Leads (Change declared marks) tables (importTarget own path) fun target reached =>
      target < reached.packages.size := by
  unfold importTarget
  split
  · exact .pure predeclared
  · refine .get_bind ?_
    cases found : sourcePackage? tables own (Import.lastSegment path) with
    | none => exact externalPackage_leads path tables
    | some package =>
        dsimp only
        split
        · exact externalPackage_leads path tables
        · exact .pure (lt_size_of_sourcePackage? found)

theorem declareImports_leads (file : File) (predeclared : Predeclared.sync < tables.packages.size)
    (housed : own < tables.packages.size) :
    Leads (Change declared marks) tables (declareImports own file) fun scope reached =>
      scope.package = own ∧ reached.Imports scope.imports := by
  have imports : Leads (Change declared marks) tables (file.imports.foldlM (declareImport own) ∅)
      fun imports reached => reached.Imports imports := by
    refine Leads.foldlM (fun spec _ imports state steps earlier => ?_) (by simp [Tables.Imports])
    have more := (grows_of_changes steps).packages_le
    unfold declareImport
    dsimp only
    split
    · exact .pure earlier
    · refine (importTarget_leads own spec.path (Nat.lt_of_lt_of_le predeclared more)).bind
        fun target middle first exists_target => ?_
      have growth := grows_of_changes first
      have own_exists := Nat.lt_of_lt_of_le housed (Nat.le_trans more growth.packages_le)
      refine (newSymbol_leads rfl (by simp) ?_ rfl).bind fun id reached second known => .pure ?_
      · exact Symbol.isWithin_iff.mpr ⟨own_exists, decide_eq_true exists_target, rfl⟩
      · have growth := growth.trans (grows_of_changes second)
        intro name other found
        rcases found_of_insert found with ⟨-, rfl⟩ | found
        · exact ⟨_, target, known, rfl⟩
        · obtain ⟨entity, target, entity_eq, kind⟩ := earlier name other found
          exact ⟨entity, target, growth.entity _ _ entity_eq, kind⟩
  exact imports.bind fun imports reached _ holds => .pure ⟨rfl, holds⟩

/-- The files of a program with what they see. -/
def declareScopes (files : List File) : Building (List FileScope) := do
  let packages ← declarePackages [] files
  (packages.zip files).mapM fun (own, file) => declareImports own file

theorem declareScopes_leads {files : List File}
    (predeclared : Predeclared.sync < tables.packages.size) :
    Leads (Change declared marks) tables (declareScopes files) fun scopes reached =>
      List.Forall₂ (fun scope file => reached.Sees scope file) scopes files := by
  refine (declarePackages_leads predeclared (by simp)).bind fun packages middle _ owned => ?_
  have stable (unit : PackageId × File) (scope : FileScope) (before after : Tables)
      (change : Change declared marks before after)
      (known : scope.package = unit.1 ∧ before.Imports scope.imports) :
      scope.package = unit.1 ∧ after.Imports scope.imports :=
    ⟨known.1, known.2.extend change.grows⟩
  have each (unit : PackageId × File) (member : unit ∈ packages.zip files) (state : Tables)
      (steps : Relation.ReflTransGen (Change declared marks) middle state) :
      Leads (Change declared marks) state (declareImports unit.1 unit.2) fun scope reached =>
        scope.package = unit.1 ∧ reached.Imports scope.imports := by
    have owned_unit : middle.Owns unit.1 (unit.2.dir, unit.2.package) :=
      (List.forall₂_iff_zip.mp owned.flip).2 member
    have owns := owned_unit.extend (grows_of_changes steps)
    have own := Tables.lt_size_of_label? owns.2
    exact declareImports_leads unit.2 (Nat.lt_trans owns.1 own) own
  refine (Leads.mapM stable each).weaken fun scopes reached steps aligned => ?_
  have growth := grows_of_changes steps
  clear stable each
  induction owned generalizing scopes with
  | nil =>
      cases aligned
      exact .nil
  | cons owns _ ih =>
      cases aligned with
      | cons known aligned =>
          exact .cons ⟨known.1 ▸ owns.extend growth, known.2⟩ (ih _ aligned)

/-! ## Types -/

/-- A field is an entity of its name, and its type mentions existing packages. -/
structure HasField (tables : Tables) (field : FieldInfo) : Prop where
  known : tables.IsField field
  within : field.type.isWithin tables.packages.size = true

theorem HasField.extend (growth : before.Extends after) {field : FieldInfo}
    (has : HasField before field) : HasField after field :=
  ⟨has.known.extend growth, TypeRef.isWithin_mono growth.packages_le has.within⟩

theorem newField_leads (name : String) {type : TypeRef} (embedded : Bool)
    (own : package < tables.packages.size) (within : type.isWithin tables.packages.size = true) :
    Leads (Change declared marks) tables (newField package name type embedded)
      fun field reached => HasField reached field := by
  refine Leads.bind (newSymbol_leads rfl (by simp) ?_ rfl) fun id reached steps known => .pure ?_
  · exact Symbol.isWithin_iff.mpr ⟨own, rfl, within⟩
  · exact ⟨⟨package, known⟩, TypeRef.isWithin_mono (grows_of_changes steps).packages_le within⟩

theorem declareFields_leads (scope : FileScope) {decl : FieldDecl}
    (marked : decl.names.map Ident.mark ⊆ marks) (housed : tables.Housed)
    (own : scope.package < tables.packages.size) :
    Leads (Change declared marks) tables (declareFields scope decl) fun fields reached =>
      ∀ field ∈ fields, HasField reached field := by
  have within := resolveType_isWithin housed.within scope decl.type
  refine .get_bind ?_
  dsimp only
  split
  · split
    · refine (newField_leads _ _ own within).bind fun field reached _ has => .pure ?_
      simpa using has
    · exact .pure (by simp)
  · refine Leads.mapM_all (fun _ _ _ change has => has.extend change.grows)
      fun ident member state steps => ?_
    have more := (grows_of_changes steps).packages_le
    refine (newField_leads _ _ (Nat.lt_of_lt_of_le own more)
      (TypeRef.isWithin_mono more within)).bind fun field reached _ has => ?_
    obtain ⟨package, entity⟩ := has.known
    have ident_marked := marked (List.mem_map_of_mem member)
    refine .modify_bind (.use reached ident field.symbol _ ident_marked entity rfl) ?_
    exact .pure ⟨⟨package, entity⟩, has.within⟩

theorem declareInterface_leads {names : List Ident} (marked : names.map Ident.mark ⊆ marks)
    (own : ref.package < tables.packages.size) :
    Leads (Change declared marks) tables (declareInterface ref names) fun methods reached =>
      reached.MadeOf ref (.interface methods) := by
  refine Leads.foldlM (fun ident member methods state steps made => ?_) (by simp [Tables.MadeOf])
  have own := package_lt_of_changes steps own
  refine Leads.bind (newSymbol_leads rfl (by simp) ?_ rfl) fun id reached steps known => ?_
  · exact Symbol.isWithin_iff.mpr ⟨own, decide_eq_true own, rfl⟩
  · have ident_marked := marked (List.mem_map_of_mem member)
    refine .modify_bind (.use reached ident id _ ident_marked known rfl) (.pure ?_)
    have earlier := made.extend (grows_of_changes steps)
    intro name other found
    rcases found_of_insert found with ⟨rfl, rfl⟩ | found
    · exact ⟨ref.package, known⟩
    · exact earlier name other found

theorem declareUnderlying_leads {body : TypeBody} (marked : body.names.map Ident.mark ⊆ marks)
    (housed : tables.Housed) (own : scope.package < tables.packages.size)
    (ref_own : ref.package < tables.packages.size) :
    Leads (Change declared marks) tables (declareUnderlying scope ref body)
      fun underlying reached => reached.MadeOf ref underlying ∧
        underlying.isWithin reached.packages.size = true := by
  cases body with
  | struct fields =>
      have stable (infos : List FieldInfo) (before after : Tables)
          (change : Change declared marks before after)
          (has : ∀ field ∈ infos, HasField before field) : ∀ field ∈ infos, HasField after field :=
        fun field member => (has field member).extend change.grows
      refine (Leads.mapM_all stable fun decl member state steps => ?_).bind
        fun groups reached _ has => .pure ?_
      · refine declareFields_leads scope (fun mark found => marked ?_)
          (housed_of_changes steps housed) (package_lt_of_changes steps own)
        obtain ⟨ident, ident_mem, rfl⟩ := List.mem_map.mp found
        exact List.mem_map_of_mem (List.mem_flatMap.mpr ⟨decl, member, ident_mem⟩)
      · have all : ∀ field ∈ groups.flatten, HasField reached field := by
          intro field member
          obtain ⟨group, group_mem, field_mem⟩ := List.mem_flatten.mp member
          exact has group group_mem field field_mem
        exact ⟨fun field member => (all field member).known,
          List.all_eq_true.mpr fun field member => (all field member).within⟩
  | interface names =>
      refine (declareInterface_leads marked ref_own).bind fun methods reached _ made => ?_
      exact .pure ⟨made, rfl⟩
  | other type => exact .get_bind (.pure ⟨trivial, resolveType_isWithin housed.within scope type⟩)

theorem completeType_leads {spec : TypeSpec} (marked : spec.body.names.map Ident.mark ⊆ marks)
    (housed : tables.Housed) (own : scope.package < tables.packages.size) :
    Leads (Change declared marks) tables (completeType scope spec) := by
  refine (declareUnderlying_leads marked housed own own).bind fun underlying reached _ made => ?_
  exact .modify (.underlying reached _ underlying made.1 made.2) trivial

/-! ## Names -/

theorem declareMember_leads {step : Tables → Tables → Prop} {ident : Ident}
    (taken : step tables (tables.declareAs ident symbol)) :
    Leads step tables (declareMember ident symbol) :=
  ⟨.single taken, trivial⟩

/-- The function that a declaration adds to a package. -/
def memberFunction (package : PackageId) : Decl → List (PackageId × FuncDecl)
  | .func decl => if decl.isMethod then [] else [(package, decl)]
  | _ => []

theorem eq_of_mem_memberFunction {other : PackageId} {function : FuncDecl}
    (member : (other, function) ∈ memberFunction package decl) : decl = .func function := by
  cases decl with
  | func decl =>
      by_cases method : decl.isMethod <;> simp [memberFunction, method] at member
      rw [member.2]
  | _ => simp [memberFunction] at member

/-- The name of a function that is about to be declared has not been recorded yet. -/
def Unrecorded (decl : Decl) (tables : Tables) : Prop :=
  ∀ function, decl = .func function → tables.objectOf function.name = none

theorem declareNames_leads (marked : decl.marks ⊆ marks) (own : package < tables.packages.size)
    (fresh : (marks.map Mark.id).Nodup → Unrecorded decl tables) :
    Leads (Change (memberFunction package decl) marks) tables (declareNames package decl) := by
  cases decl with
  | type spec =>
      have name_marked : spec.name.mark ∈ marks := marked (by simp [Decl.marks])
      rw [declareNames]
      split
      · exact .pure trivial
      · refine (declareMember_leads (.type tables spec.name package name_marked own)).bind ?_
        intro _ reached steps _
        have own := package_lt_of_changes steps own
        exact .modify (.named reached _ own) trivial
  | func decl =>
      rw [declareNames]
      split
      · exact .pure trivial
      · rename_i plain
        have plain := Bool.eq_false_iff.mpr plain
        refine declareMember_leads (.function tables package decl ?_ plain
          (fun unique => fresh unique decl rfl) own)
        simp [memberFunction, plain]
  | var spec =>
      refine Leads.forM fun ident member state steps => ?_
      have own := package_lt_of_changes steps own
      have ident_marked : ident.mark ∈ marks := by
        apply marked
        simp only [Decl.marks, List.mem_cons, List.mem_append]
        exact .inr (.inl (List.mem_map_of_mem member))
      split
      · exact .pure trivial
      · exact declareMember_leads (.var state ident package spec.id ident_marked own)

/-- Declarations record the names of their own functions only, so other names of functions stay as
they are. -/
theorem objectOf_of_changes {name : Ident}
    (changes : Relation.ReflTransGen (Change declared marks) before after)
    (named : ∀ mark ∈ marks, mark.role = .name → mark.id ≠ name.id)
    (functions : ∀ package decl, (package, decl) ∈ declared → decl.name.id ≠ name.id) :
    after.objectOf name = before.objectOf name := by
  have keeps (middle after : Tables) (change : Change declared marks middle after)
      (kept : middle.objectOf name = before.objectOf name) :
      after.objectOf name = before.objectOf name := (change.uses_eq named functions).trans kept
  exact kept_of_steps keeps changes rfl

/-! ## Signatures -/

theorem run_declareMethod (scope : FileScope) (decl : FuncDecl) (receiver type : TypeRef)
    (tables : Tables) :
    ((declareMethod scope decl receiver type).run tables).2 =
      tables.declareMethod scope.package decl receiver type := by
  unfold declareMethod Tables.declareMethod Tables.addMethodOf
  cases receiver.named? <;> rfl

theorem declareSignature_leads {decl : FuncDecl} (housed : tables.Housed)
    (own : scope.package < tables.packages.size)
    (fresh : (marks.map Mark.id).Nodup → decl.isMethod = true →
      tables.objectOf decl.name = none) :
    Leads (Change [(scope.package, decl)] marks) tables (declareSignature scope decl) := by
  have within := ofResult_isWithin housed.within scope decl.result
  refine .get_bind ?_
  cases found : decl.receiver with
  | some receiver =>
      have method : decl.isMethod = true := by simp [FuncDecl.isMethod, found]
      refine ⟨.single ?_, trivial⟩
      dsimp only
      rw [run_declareMethod]
      exact .method tables scope decl receiver.type _ List.mem_cons_self method
        (fun unique => fresh unique method) own within
  | none =>
      cases recorded : tables.objectOf decl.name with
      | some symbol =>
          have listed : (scope.package, decl) ∈ [(scope.package, decl)] := List.mem_cons_self
          exact ⟨.single (.retype tables _ decl symbol _ listed recorded within), trivial⟩
      | none => exact .pure trivial

/-! ## Whole programs -/

/-- The functions and methods of files, each with its package. -/
def declaredIn (units : List (FileScope × File)) : List (PackageId × FuncDecl) :=
  units.flatMap fun unit => unit.2.functions.map (unit.1.package, ·)

/-- Declare the members of packages. -/
def declareMembers (units : List (FileScope × File)) : Building Unit := do
  units.forM fun (scope, file) => file.decls.forM (declareNames scope.package)
  units.forM fun (scope, file) => file.types.forM (completeType scope)
  units.forM fun (scope, file) => file.functions.forM (declareSignature scope)

theorem declareProgram_eq (files : List File) :
    declareProgram files = (do
      let scopes ← declareScopes files
      declareMembers (scopes.zip files)
      return scopes.zip files) := by
  simp only [declareProgram, declareScopes, declareMembers, bind_assoc]

theorem mem_declaredIn {units : List (FileScope × File)} {decl : FuncDecl} :
    (package, decl) ∈ declaredIn units ↔
      ∃ unit ∈ units, decl ∈ unit.2.functions ∧ unit.1.package = package := by
  simp [declaredIn, List.mem_flatMap]

/-- The functions, without the methods. -/
def plainIn (units : List (FileScope × File)) : List (PackageId × FuncDecl) :=
  (declaredIn units).filter fun entry => !entry.2.isMethod

theorem pairwise_of_imp {α : Type} {condition : Prop} {apart : α → α → Prop} {items : List α}
    (pairwise : condition → items.Pairwise apart) :
    items.Pairwise fun first later => condition → apart first later := by
  by_cases holds : condition
  · exact (pairwise holds).imp fun apart _ => apart
  · exact List.pairwise_of_forall fun _ _ other => absurd other holds

section Units

variable {program : Program} {units : List (FileScope × File)} {tables : Tables}

theorem functions_of_units (files : units.map Prod.snd = program.files) {decl : FuncDecl}
    (member : (package, decl) ∈ declaredIn units) : decl ∈ program.functions := by
  obtain ⟨unit, unit_mem, decl_mem, -⟩ := mem_declaredIn.mp member
  have file_mem : unit.2 ∈ program.files := files ▸ List.mem_map_of_mem unit_mem
  exact List.mem_flatMap.mpr ⟨unit.2, file_mem, decl_mem⟩

theorem memberFunction_subset {unit : FileScope × File} (unit_mem : unit ∈ units)
    (decl_mem : decl ∈ unit.2.decls) : memberFunction unit.1.package decl ⊆ plainIn units := by
  cases decl with
  | func function =>
      by_cases method : function.isMethod
      · simp [memberFunction, method]
      · have listed : function ∈ unit.2.functions :=
          List.mem_filterMap.mpr ⟨.func function, decl_mem, rfl⟩
        have member : (unit.1.package, function) ∈ declaredIn units :=
          mem_declaredIn.mpr ⟨unit, unit_mem, listed, rfl⟩
        simpa [memberFunction, method, plainIn] using member
  | _ => simp [memberFunction]

theorem declareNames_all_leads (files : units.map Prod.snd = program.files)
    (owned : ∀ unit ∈ units, unit.1.package < tables.packages.size)
    (fresh : program.UniqueIds → ∀ decl ∈ program.functions, tables.objectOf decl.name = none) :
    Leads (Change (plainIn units) program.marks) tables
      (units.forM fun (scope, file) => file.decls.forM (declareNames scope.package)) := by
  let items : List (PackageId × Decl) :=
    units.flatMap fun unit => unit.2.decls.map (unit.1.package, ·)
  have decls : items.map Prod.snd = program.decls := by
    rw [List.map_flatMap, Program.decls, ← files, List.flatMap_map]
    simp [Function.comp_def]
  have flat : (units.forM fun (scope, file) => file.decls.forM (declareNames scope.package)) =
      items.forM fun item => declareNames item.1 item.2 := by
    rw [forM_flatMap]
    simp
  have marked {item : PackageId × Decl} (member : item ∈ items) :
      item.2.marks ⊆ program.marks := by
    rw [Program.marks_eq, ← decls]
    exact fun mark found => List.mem_flatMap.mpr ⟨item.2, List.mem_map_of_mem member, found⟩
  rw [flat]
  refine Leads.forM_of_ready (fun item state => item.1 < state.packages.size ∧
    (program.UniqueIds → Unrecorded item.2 state)) ?_ ?_ ?_
  · -- What one declaration records is its own name, so the names after it stay unrecorded.
    have apart : items.Pairwise fun first later => program.UniqueIds →
        ∀ earlier, first.2 = .func earlier → ∀ function, later.2 = .func function →
          earlier.name.id ≠ function.name.id := by
      refine pairwise_of_imp fun unique => ?_
      have apart := unique.pairwise_functions
      rw [Program.functions_eq, List.pairwise_filterMap, ← decls, List.pairwise_map] at apart
      refine apart.imp fun {first later} apart earlier earlier_eq function function_eq => ?_
      exact apart earlier (by rw [earlier_eq]) function (by rw [function_eq])
    refine apart.imp_of_mem fun {first later} first_mem later_mem apart state ready waits => ?_
    have round := declareNames_leads (marked first_mem) ready.1 ready.2
    refine ⟨package_lt_of_changes round.1 waits.1, ?_⟩
    intro unique function function_eq
    have listed : function ∈ program.functions := by
      rw [Program.mem_functions, ← function_eq, ← decls]
      exact List.mem_map_of_mem later_mem
    have others : ∀ package earlier, (package, earlier) ∈ memberFunction first.1 first.2 →
        earlier.name.id ≠ function.name.id := fun package earlier member =>
      apart unique earlier (eq_of_mem_memberFunction member) function function_eq
    exact (objectOf_of_changes round.1 (unique.name_apart listed) others).trans
      (waits.2 unique function function_eq)
  · intro item member state ready
    obtain ⟨unit, unit_mem, inside⟩ := List.mem_flatMap.mp member
    obtain ⟨decl, decl_mem, rfl⟩ := List.mem_map.mp inside
    exact (declareNames_leads (marked member) ready.1 ready.2).mono fun _ _ change =>
      change.mono (memberFunction_subset unit_mem decl_mem)
  · intro item member
    constructor
    · obtain ⟨unit, unit_mem, inside⟩ := List.mem_flatMap.mp member
      obtain ⟨decl, -, rfl⟩ := List.mem_map.mp inside
      exact owned unit unit_mem
    · intro unique function function_eq
      apply fresh unique
      rw [Program.mem_functions, ← function_eq, ← decls]
      exact List.mem_map_of_mem member

theorem completeType_all_leads (files : units.map Prod.snd = program.files)
    (housed : tables.Housed) (owned : ∀ unit ∈ units, unit.1.package < tables.packages.size) :
    Leads (Change declared program.marks) tables
      (units.forM fun (scope, file) => file.types.forM (completeType scope)) := by
  refine Leads.forM fun unit unit_mem state first => ?_
  refine Leads.forM fun spec spec_mem state second => ?_
  have steps := first.trans second
  refine completeType_leads ?_ (housed_of_changes steps housed)
    (package_lt_of_changes steps (owned unit unit_mem))
  have file_mem : unit.2 ∈ program.files := files ▸ List.mem_map_of_mem unit_mem
  have decl_mem := File.mem_types.mp spec_mem
  intro mark found
  exact program.marks_of_decl file_mem decl_mem (List.mem_cons_of_mem _ found)

theorem declareSignature_all_leads (files : units.map Prod.snd = program.files)
    (housed : tables.Housed) (owned : ∀ unit ∈ units, unit.1.package < tables.packages.size)
    (fresh : program.UniqueIds → ∀ decl ∈ program.functions, decl.isMethod = true →
      tables.objectOf decl.name = none) :
    Leads (Change (declaredIn units) program.marks) tables
      (units.forM fun (scope, file) => file.functions.forM (declareSignature scope)) := by
  let items : List (FileScope × FuncDecl) :=
    units.flatMap fun unit => unit.2.functions.map (unit.1, ·)
  have functions : items.map Prod.snd = program.functions := by
    rw [List.map_flatMap, Program.functions, ← files, List.flatMap_map]
    simp [Function.comp_def]
  have flat : (units.forM fun (scope, file) => file.functions.forM (declareSignature scope)) =
      items.forM fun item => declareSignature item.1 item.2 := by
    rw [forM_flatMap]
    simp
  have listed {item : FileScope × FuncDecl} (member : item ∈ items) : item.2 ∈ program.functions :=
    functions ▸ List.mem_map_of_mem member
  rw [flat]
  refine Leads.forM_of_ready (fun item reached => reached.Housed ∧
    item.1.package < reached.packages.size ∧ (program.UniqueIds → item.2.isMethod = true →
      reached.objectOf item.2.name = none)) ?_ ?_ ?_
  · have apart : items.Pairwise fun first later => program.UniqueIds →
        first.2.name.id ≠ later.2.name.id := by
      refine pairwise_of_imp fun unique => ?_
      have apart := unique.pairwise_functions
      rwa [← functions, List.pairwise_map] at apart
    refine apart.imp_of_mem fun {first later} _ later_mem apart state ready waits => ?_
    obtain ⟨housed, own, ready⟩ := ready
    have round : Leads (Change _ program.marks) state (declareSignature first.1 first.2) :=
      declareSignature_leads housed own ready
    refine ⟨housed_of_changes round.1 housed,
      package_lt_of_changes round.1 waits.2.1, fun unique method => ?_⟩
    refine (objectOf_of_changes round.1 (unique.name_apart (listed later_mem)) ?_).trans
      (waits.2.2 unique method)
    intro package earlier member
    cases List.mem_singleton.mp member
    exact apart unique
  · rintro item member state ⟨housed, own, ready⟩
    refine (declareSignature_leads housed own ready).mono fun _ _ change => change.mono ?_
    obtain ⟨unit, unit_mem, inside⟩ := List.mem_flatMap.mp member
    obtain ⟨decl, decl_mem, rfl⟩ := List.mem_map.mp inside
    simpa using mem_declaredIn.mpr ⟨unit, unit_mem, decl_mem, rfl⟩
  · intro item member
    obtain ⟨unit, unit_mem, inside⟩ := List.mem_flatMap.mp member
    obtain ⟨decl, -, rfl⟩ := List.mem_map.mp inside
    exact ⟨housed, owned unit unit_mem, fun unique => fresh unique decl (listed member)⟩

/-- Changes for functions record no names of methods. -/
theorem objectOf_of_plain_changes (files : units.map Prod.snd = program.files)
    (unique : program.UniqueIds)
    (changes : Relation.ReflTransGen (Change (plainIn units) program.marks) before after)
    {decl : FuncDecl} (member : decl ∈ program.functions) (method : decl.isMethod = true) :
    after.objectOf decl.name = before.objectOf decl.name := by
  refine objectOf_of_changes changes (unique.name_apart member) ?_
  intro package other other_mem same
  have plain := List.mem_filter.mp other_mem
  cases unique.function_eq (functions_of_units files plain.1) member same
  simp [method] at plain

/-- All declarations of a program make changes for its functions, methods and marked names only. -/
theorem declareMembers_leads (files : units.map Prod.snd = program.files) (housed : tables.Housed)
    (owned : ∀ unit ∈ units, unit.1.package < tables.packages.size)
    (fresh : program.UniqueIds → ∀ decl ∈ program.functions, tables.objectOf decl.name = none) :
    Leads (Change (declaredIn units) program.marks) tables (declareMembers units) := by
  have wide (before after : Tables) (change : Change (plainIn units) program.marks before after) :
      Change (declaredIn units) program.marks before after :=
    change.mono (List.filter_subset_self _)
  have later {reached : Tables}
      (steps : Relation.ReflTransGen (Change (plainIn units) program.marks) tables reached) :
      reached.Housed ∧ ∀ unit ∈ units, unit.1.package < reached.packages.size :=
    ⟨housed_of_changes steps housed, fun unit member =>
      package_lt_of_changes steps (owned unit member)⟩
  -- The first two rounds declare no methods, whose names are therefore fresh in the third.
  have names := (declareNames_all_leads files owned fresh).withSteps
  refine (names.mono wide).bind fun _ named _ first => ?_
  obtain ⟨housed_named, owned_named⟩ := later first
  have types := @completeType_all_leads (plainIn units) program units named files housed_named
    owned_named |>.withSteps
  refine (types.mono wide).bind fun _ completed _ second => ?_
  obtain ⟨housed_completed, owned_completed⟩ := later (first.trans second)
  refine declareSignature_all_leads files housed_completed owned_completed ?_
  exact fun unique decl member method =>
    (objectOf_of_plain_changes files unique (first.trans second) member method).trans
      (fresh unique decl member)

end Units

end Resolution

end Relock
