import Relock.Program.Binding
import Relock.Proofs.Resolution.Body
import Relock.Proofs.Sample

/-!
# Scopes are closed in order

Resolution opens a scope for each block, each compound statement and each closure literal, and
closes it at its end. So resolving an expression leaves the open scopes as they are. Resolving a
statement changes the innermost one alone, and there only the names that the statement itself
declares, which get new meanings.
-/

namespace Relock

namespace Ident

/-- The names that identifiers declare. A blank one declares nothing. -/
def declared (idents : List Ident) : List String :=
  (idents.filter fun ident => !ident.isBlank).map Ident.name

theorem mem_declared {idents : List Ident} {name : String} :
    name ∈ declared idents ↔ ∃ ident ∈ idents, ident.isBlank = false ∧ ident.name = name := by
  simp [declared, and_assoc]

end Ident

theorem ScopeStack.lookupLocal_declare {α : Type} (stack : ScopeStack α) (declared name : String)
    (value : α) :
    (stack.declare declared value).lookupLocal name =
      if declared = name then some value else stack.lookupLocal name := by
  cases scopes : stack.scopes with
  | nil | cons scope outer => simp [declare, lookupLocal, top?, scopes, Std.TreeMap.getElem?_insert]

namespace Stmt

/-- The names to which a statement gives new meanings in the innermost scope. A definition leaves
alone the names that this scope declares already. -/
def introduces (scopes : ScopeStack SymbolId) : Stmt → List String
  | .assign _ targets _ define _ =>
      if define then
        (Ident.declared (targets.filterMap Binding.targetName?)).filter fun name =>
          (scopes.lookupLocal name).isNone
      else
        []
  | .var _ names _ _ _ => Ident.declared names
  | _ => []

end Stmt

namespace Resolution

/-! ## Changes to scopes -/

/-- Open scopes are as they were. Entities may have been added. -/
structure Keeps (before after : Resolving) : Prop where
  scopes : after.scopes = before.scopes
  grows : before.tables.symbols.size ≤ after.tables.symbols.size

/-- Of the open scopes only the innermost has changed. There the names have got meanings that are
new entities, and no other name has changed. -/
structure Declares (names : String → Prop) (before after : Resolving) : Prop where
  grows : before.tables.symbols.size ≤ after.tables.symbols.size
  scopes : ∀ inner outer, before.scopes.scopes = inner :: outer →
    ∃ changed : Scope SymbolId, after.scopes.scopes = changed :: outer ∧
      (∀ name, ¬names name → changed[name]? = inner[name]?) ∧
      ∀ name, names name → ∃ symbol, changed[name]? = some symbol ∧
        before.tables.symbols.size ≤ symbol ∧ symbol < after.tables.symbols.size

variable {α β : Type} {before middle after : Resolving} {names more : String → Prop}
  {computation : Resolve α} {next : α → Resolve β} {state : Resolving} {define : Bool}
  {scopes : ScopeStack SymbolId} {name : String}

theorem Keeps.refl (state : Resolving) : Keeps state state := ⟨rfl, Nat.le_refl _⟩

theorem Keeps.trans (first : Keeps before middle) (second : Keeps middle after) :
    Keeps before after :=
  ⟨second.scopes.trans first.scopes, Nat.le_trans first.grows second.grows⟩

theorem Keeps.declares (keeps : Keeps before after) : Declares (fun _ => False) before after where
  grows := keeps.grows
  scopes inner outer open_eq := by
    refine ⟨inner, ?_, fun _ _ => rfl, nofun⟩
    rw [keeps.scopes, open_eq]

theorem Declares.trans (first : Declares names before middle)
    (second : Declares more middle after) :
    Declares (fun name => names name ∨ more name) before after where
  grows := Nat.le_trans first.grows second.grows
  scopes inner outer open_eq := by
    obtain ⟨changed, changed_eq, kept, introduced⟩ := first.scopes inner outer open_eq
    obtain ⟨final, final_eq, kept_later, introduced_later⟩ := second.scopes changed outer changed_eq
    refine ⟨final, final_eq, fun name other => ?_, fun name own => ?_⟩
    · rw [not_or] at other
      rw [kept_later name other.2, kept name other.1]
    · by_cases later : more name
      · obtain ⟨symbol, found, lower, upper⟩ := introduced_later name later
        exact ⟨symbol, found, Nat.le_trans first.grows lower, upper⟩
      · obtain ⟨symbol, found, lower, upper⟩ := introduced name (own.resolve_right later)
        refine ⟨symbol, ?_, lower, Nat.lt_of_lt_of_le upper second.grows⟩
        rw [kept_later name later, found]

theorem Declares.congr (declares : Declares names before after)
    (same : ∀ name, names name ↔ more name) : Declares more before after := by
  rwa [← funext fun name => propext (same name)]

/-- A computation leaves open scopes as they are. -/
def Keeping (computation : Resolve α) : Prop :=
  ∀ state, Keeps state (computation.run state).2

namespace Keeping

theorem pure (result : α) : Keeping (pure result) := fun state => .refl state

theorem get_bind {next : Resolving → Resolve α} (keeping : ∀ state, Keeping (next state)) :
    Keeping (get >>= next) :=
  fun state => keeping state state

theorem bind (first : Keeping computation) (second : ∀ result, Keeping (next result)) :
    Keeping (computation >>= next) :=
  fun state => (first state).trans (second _ _)

theorem discard (keeping : Keeping computation) : Keeping (discard computation) :=
  keeping

theorem modifyTables {change : Tables → Tables}
    (grows : ∀ tables, tables.symbols.size ≤ (change tables).symbols.size) :
    Keeping (modifyTables change) :=
  fun state => ⟨rfl, grows state.tables⟩

theorem forM {items : List α} {action : α → Resolve PUnit}
    (each : ∀ item ∈ items, Keeping (action item)) : Keeping (items.forM action) := by
  induction items with
  | nil => exact .pure PUnit.unit
  | cons item items ih =>
      rw [List.forall_mem_cons] at each
      exact each.1.bind fun _ => ih each.2

end Keeping

theorem run_get_bind (next : Resolving → Resolve α) (state : Resolving) :
    (get >>= next).run state = (next state).run state := rfl

/-- What a computation declares, and then what follows declares. -/
theorem Declares.bind (first : Declares names state (computation.run state).2)
    (second : ∀ result, Declares more (computation.run state).2
      ((next result).run (computation.run state).2).2) :
    Declares (fun name => names name ∨ more name) state ((computation >>= next).run state).2 :=
  first.trans (second _)

/-- What follows a computation that leaves open scopes as they are sees the same scopes. -/
theorem Keeping.declares_bind (keeping : Keeping computation)
    (later : ∀ result reached, reached.scopes = state.scopes →
      Declares names reached ((next result).run reached).2) :
    Declares names state ((computation >>= next).run state).2 := by
  have first := keeping state
  exact (first.declares.bind fun result => later result _ first.scopes).congr (by simp)

theorem Keeping.declares_nil (keeping : Keeping computation) (state : Resolving) :
    Declares (· ∈ []) state (computation.run state).2 :=
  (keeping state).declares.congr (by simp)

/-- A computation may change the innermost of the open scopes, and no other. -/
def Declaring (computation : Resolve α) : Prop :=
  ∀ state, ∃ names, Declares names state (computation.run state).2

/-- Started after a scope has been opened, a computation closes it again. -/
def Closing (computation : Resolve α) : Prop :=
  ∀ before state names, Declares names { before with scopes := before.scopes.push } state →
    Keeps before (computation.run state).2

theorem Keeping.scoped {next : Unit → Resolve α} (closing : Closing (next ())) :
    Keeping (pushScope >>= next) :=
  fun state => closing state _ _ (Keeps.refl _).declares

theorem Declaring.closing (declaring : Declaring computation)
    (closing : ∀ result, Closing (next result)) : Closing (computation >>= next) := by
  intro before state names declared
  obtain ⟨more, later⟩ := declaring state
  exact closing _ before _ _ (declared.trans later)

theorem closing_popScope : Closing popScope := by
  intro before state names declared
  refine ⟨?_, declared.grows⟩
  obtain ⟨changed, changed_eq, -, -⟩ := declared.scopes ∅ before.scopes.scopes rfl
  show state.scopes.pop = before.scopes
  simp [ScopeStack.pop, changed_eq]

theorem Closing.bind (closing : Closing computation) (keeping : ∀ result, Keeping (next result)) :
    Closing (computation >>= next) :=
  fun before state names declared => (closing before state names declared).trans (keeping _ _)

/-- A loop declares what its rounds declare. -/
theorem forM_declares {items : List α} {action : α → Resolve PUnit} {names : α → String → Prop}
    (each : ∀ item ∈ items, ∀ state, Declares (names item) state ((action item).run state).2)
    (state : Resolving) :
    Declares (fun name => ∃ item ∈ items, names item name) state
      ((items.forM action).run state).2 := by
  induction items generalizing state with
  | nil => exact (Keeps.refl state).declares.congr (by simp)
  | cons item items ih =>
      rw [List.forall_mem_cons] at each
      exact ((each.1 state).trans (ih each.2 _)).congr (by simp)

/-! ## Names and selectors -/

variable {scope : FileScope}

theorem declares_declare (state : Resolving) (ident : Ident) (symbol : Symbol) :
    Declares (ident.name = ·) state (state.declare ident symbol) := by
  have added : (state.declare ident symbol).tables.symbols.size =
      state.tables.symbols.size + 1 := by
    simp [Resolving.declare, Tables.recordUse, Tables.addSymbol]
  refine ⟨by omega, fun inner outer open_eq => ?_⟩
  refine ⟨inner.insert ident.name state.tables.symbols.size, ?_, fun name other => ?_, ?_⟩
  · simp [Resolving.declare, ScopeStack.declare, open_eq]
  · simp [Std.TreeMap.getElem?_insert, other]
  · rintro name rfl
    refine ⟨state.tables.symbols.size, by simp, Nat.le_refl _, ?_⟩
    rw [added]
    exact Nat.lt_succ_self _

theorem declareLocal_declares (place : VarScope) (type : TypeRef) (decl : Option NodeId)
    (ident : Ident) (state : Resolving) :
    Declares (fun name => ident.isBlank = false ∧ ident.name = name) state
      ((declareLocal scope place type decl ident).run state).2 := by
  unfold declareLocal
  split
  · rename_i blank
    exact (Keeps.refl state).declares.congr (by simp [blank])
  · rename_i named
    exact (declares_declare state ident _).congr (by simp [named])

theorem declareParams_declaring (params : List Param) :
    Declaring (declareParams scope params) := by
  intro state
  refine ⟨_, forM_declares (fun param _ state => (?_ : Declares (fun name =>
    ∃ ident ∈ param.names, ident.isBlank = false ∧ ident.name = name) state _)) state⟩
  rw [run_get_bind]
  exact forM_declares (fun ident _ => declareLocal_declares _ _ _ ident) state

theorem recordUse_keeping (node : NodeId) (symbol : SymbolId) :
    Keeping (modifyTables fun tables => tables.recordUse node symbol) :=
  .modifyTables fun _ => Nat.le_refl _

theorem resolveIdent_keeping (ident : Ident) : Keeping (resolveIdent scope ident) := by
  refine .get_bind fun state => ?_
  split
  · exact (recordUse_keeping _ _).bind fun _ => .pure _
  · exact .pure _

theorem select_keeping (id : NodeId) (member : Ident) (chosen : Option SymbolId) :
    Keeping (select id member chosen) := by
  cases chosen with
  | none => exact .pure _
  | some symbol =>
      refine (Keeping.modifyTables fun tables => ?_).bind fun _ => .get_bind fun _ => .pure _
      exact Nat.le_refl _

/-! ## Expressions and statements -/

theorem length_specTypes (names : List Ident) (declared : Option TypeRef) (values : List TypeRef) :
    (specTypes names declared values).length = names.length := by
  unfold specTypes
  split
  · exact List.length_map _
  · split
    · assumption
    · exact List.length_map _

theorem exists_mem_zip {keys : List α} {values : List β} (same : values.length = keys.length)
    (holds : α → Prop) : (∃ item ∈ keys.zip values, holds item.1) ↔ ∃ key ∈ keys, holds key := by
  constructor
  · rintro ⟨item, member, item_holds⟩
    exact ⟨item.1, (List.of_mem_zip member).1, item_holds⟩
  · rintro ⟨key, member, key_holds⟩
    rw [← List.map_fst_zip (Nat.le_of_eq same.symm)] at member
    obtain ⟨item, item_mem, rfl⟩ := List.mem_map.mp member
    exact ⟨item, item_mem, key_holds⟩

/-- A definition declares those of its targets that are names and new in the innermost scope. -/
def Defines (define : Bool) (targets : List Expr) (scopes : ScopeStack SymbolId) (name : String) :
    Prop :=
  define = true ∧ name ∈ Ident.declared (targets.filterMap Binding.targetName?) ∧
    scopes.lookupLocal name = none

theorem defines_cons {target : Expr} {targets : List Expr} :
    Defines define (target :: targets) scopes name ↔
      (∃ ident ∈ Binding.targetName? target, define = true ∧ ident.isBlank = false ∧
        ident.name = name ∧ scopes.lookupLocal name = none) ∨
      Defines define targets scopes name := by
  unfold Defines
  rw [List.filterMap_cons]
  cases Binding.targetName? target with
  | none => simp
  | some ident =>
      simp only [Ident.mem_declared, List.mem_cons, Option.mem_some]
      grind

theorem mem_introduces_assign {id : NodeId} {targets values : List Expr} {span : Span} :
    name ∈ (Stmt.assign id targets values define span).introduces scopes ↔
      Defines define targets scopes name := by
  cases define <;> simp [Stmt.introduces, Defines]

mutual

/-- Resolving an expression leaves the open scopes as they are. -/
theorem resolveExpr_keeping : ∀ expr : Expr, Keeping (resolveExpr scope expr)
  | .ident ident => by
      rw [resolveExpr]
      exact resolveIdent_keeping ident
  | .selector id base member _ => by
      rw [resolveExpr]
      refine .get_bind fun state => ?_
      split
      · refine (recordUse_keeping _ _).bind fun _ => .get_bind fun _ => ?_
        exact select_keeping id member _
      · refine (resolveExpr_keeping base).bind fun type => .get_bind fun _ => ?_
        exact select_keeping id member _
  | .call _ callee args _ => by
      rw [resolveExpr]
      refine (resolveExpr_keeping callee).bind fun type => ?_
      refine (resolveExprs_keeping args).discard.bind fun _ => ?_
      exact .get_bind fun _ => .pure _
  | .literal _ params result body _ _ => by
      rw [resolveExpr]
      refine .scoped ((declareParams_declaring params).closing fun _ => ?_)
      refine (resolveStmts_declaring body).closing fun _ => closing_popScope.bind fun _ => ?_
      exact .get_bind fun _ => .pure _
  | .paren inner _ => by
      rw [resolveExpr]
      exact resolveExpr_keeping inner
  | .unary _ operand _ => by
      rw [resolveExpr]
      exact (resolveExpr_keeping operand).bind fun _ => .pure _
  | .composite _ elements _ => by
      rw [resolveExpr]
      refine (resolveExprs_keeping elements).discard.bind fun _ => ?_
      exact .get_bind fun _ => .pure _
  | .other _ parts _ => by
      rw [resolveExpr]
      refine (resolveExprs_keeping parts).discard.bind fun _ => ?_
      exact .get_bind fun _ => .pure _

theorem resolveExprs_keeping : ∀ exprs : List Expr, Keeping (resolveExprs scope exprs)
  | [] => by
      rw [resolveExprs]
      exact .pure _
  | expr :: exprs => by
      rw [resolveExprs]
      refine (resolveExpr_keeping expr).bind fun _ => ?_
      exact (resolveExprs_keeping exprs).bind fun _ => .pure _

theorem resolveTargets_declares (id : NodeId) (define : Bool) :
    ∀ (targets : List Expr) (types : List TypeRef) (state : Resolving),
      Declares (Defines define targets state.scopes) state
        ((resolveTargets scope id define targets types).run state).2
  | [], _, state => by
      rw [resolveTargets]
      exact (Keeps.refl state).declares.congr (by simp [Defines, Ident.declared])
  | target :: targets, types, state => by
      rw [resolveTargets]
      have rest := resolveTargets_declares id define targets types.tail
      have plain := (resolveExpr_keeping target).discard
      -- A target that is no new name adds nothing to what the other ones declare.
      have skipped {computation : Resolve Unit} (keeping : Keeping computation)
          (nothing : ∀ ident ∈ Binding.targetName? target, define = true → ident.isBlank = false →
            state.scopes.lookupLocal ident.name ≠ none) :
          Declares (Defines define (target :: targets) state.scopes) state
            ((computation >>= fun _ => resolveTargets scope id define targets types.tail).run
              state).2 := by
        refine keeping.declares_bind fun _ reached same => ?_
        have later := rest reached
        rw [same] at later
        refine later.congr fun name => ?_
        rw [defines_cons]
        refine ⟨.inr, ?_⟩
        rintro (⟨ident, found, defined, named, rfl, new⟩ | later)
        · exact absurd new (nothing ident found defined named)
        · exact later
      split
      · rename_i ident unparen_eq
        have target_eq : Binding.targetName? target = some ident := by
          rw [Binding.targetName?, unparen_eq]
        split
        · rename_i defining
          rw [Bool.and_eq_true, Bool.not_eq_true'] at defining
          rw [run_get_bind]
          cases found : state.scopes.lookupLocal ident.name with
          | some symbol =>
              refine skipped (recordUse_keeping ident.id symbol) fun other other_eq _ _ => ?_
              rw [target_eq, Option.mem_some] at other_eq
              rw [← other_eq, found]
              exact Option.some_ne_none symbol
          | none =>
              have declared := @declareLocal_declares scope .local (types.headD .unknown) (some id)
                ident state
              have scopes_eq : ((declareLocal scope .local (types.headD .unknown) (some id)
                  ident).run state).2.scopes =
                    state.scopes.declare ident.name state.tables.symbols.size := by
                rw [declareLocal, defining.2]
                rfl
              refine (declared.bind fun _ => rest _).congr fun name => ?_
              rw [defines_cons, scopes_eq, target_eq, Defines, Defines,
                ScopeStack.lookupLocal_declare]
              by_cases same : ident.name = name
              · subst same
                simp [defining, found]
              · simp [same]
        · rename_i plain_use
          refine skipped plain fun other found defined named => ?_
          rw [target_eq, Option.mem_some] at found
          subst found
          simp [defined, named] at plain_use
      · rename_i no_name
        refine skipped plain fun other found => ?_
        unfold Binding.targetName? at found
        split at found
        · exact absurd ‹_› (no_name _)
        · cases found

/-- Resolving a statement changes the innermost scope alone, and there the names that the statement
introduces. -/
theorem resolveStmt_declares : ∀ (stmt : Stmt) (state : Resolving),
    Declares (· ∈ stmt.introduces state.scopes) state ((resolveStmt scope stmt).run state).2
  | .expr expr, state => by
      rw [resolveStmt]
      exact (resolveExpr_keeping expr).discard.declares_nil state
  | .defer _ callee args _ _, state | .go _ callee args _ _, state => by
      rw [resolveStmt]
      have keeping := (resolveExpr_keeping callee).discard.bind fun _ =>
        (resolveExprs_keeping args).discard
      exact keeping.declares_nil state
  | .return results _, state => by
      rw [resolveStmt]
      exact (resolveExprs_keeping results).discard.declares_nil state
  | .assign id targets values define _, state => by
      rw [resolveStmt]
      refine (resolveExprs_keeping values).declares_bind fun types reached same => ?_
      refine (resolveTargets_declares id define targets _ reached).congr fun name => ?_
      rw [mem_introduces_assign, same]
  | .var id names type values _, state => by
      rw [resolveStmt, run_get_bind]
      refine (resolveExprs_keeping values).declares_bind fun types reached _ => ?_
      refine (forM_declares (fun item _ state => (?_ : Declares
        (fun name => item.1.isBlank = false ∧ item.1.name = name) state _)) _).congr fun name => ?_
      · exact declareLocal_declares .local item.2 (some id) item.1 state
      · rw [Stmt.introduces, Ident.mem_declared]
        exact exists_mem_zip (length_specTypes _ _ _) fun ident =>
          ident.isBlank = false ∧ ident.name = name
  | .block body _, state => by
      rw [resolveStmt]
      have closing := (resolveStmts_declaring body).closing fun _ => closing_popScope
      exact (Keeping.scoped closing).declares_nil state
  | .compound _ parts _, state => by
      rw [resolveStmt]
      have closing := (resolveStmts_declaring parts).closing fun _ => closing_popScope
      exact (Keeping.scoped closing).declares_nil state

theorem resolveStmts_declaring : ∀ stmts : List Stmt, Declaring (resolveStmts scope stmts)
  | [] => by
      rw [resolveStmts]
      exact fun state => ⟨_, (Keeps.refl state).declares⟩
  | stmt :: stmts => by
      rw [resolveStmts]
      intro state
      obtain ⟨_, later⟩ := resolveStmts_declaring stmts ((resolveStmt scope stmt).run state).2
      exact ⟨_, (resolveStmt_declares stmt state).bind fun _ => later⟩

end

theorem resolvePackageVars_keeping (spec : ValueSpec) :
    Keeping (resolvePackageVars scope spec) := by
  refine .get_bind fun _ => (resolveExprs_keeping spec.values).bind fun types => ?_
  refine .forM fun item _ => .get_bind fun _ => ?_
  split
  · exact .modifyTables fun tables => by simp [Tables.setType]
  · exact .pure _

theorem resolveBody_keeping (decl : FuncDecl) : Keeping (resolveBody scope decl) := by
  unfold resolveBody
  cases decl.body with
  | none => exact .pure _
  | some block =>
      refine .scoped ?_
      have rest : Closing (declareParams scope decl.params >>= fun _ =>
          resolveStmts scope block.body >>= fun _ => popScope) := by
        refine (declareParams_declaring decl.params).closing fun _ => ?_
        exact (resolveStmts_declaring block.body).closing fun _ => closing_popScope
      cases decl.receiver.bind Receiver.name with
      | none => exact rest
      | some name =>
          have declaring : Declaring (get >>= fun state : Resolving =>
              declareLocal scope .receiver ((state.tables.receiverType? decl).getD .unknown) none
                name) := fun state => ⟨_, declareLocal_declares _ _ _ name state⟩
          exact declaring.closing fun _ => rest

/-- Resolving an expression, expressions, variables of a package or the body of a function leaves
the open scopes as they are. Resolving a statement changes the innermost scope alone: there the
names that the statement introduces become new entities, and no other name changes. -/
theorem resolution_closes_scopes (scope : FileScope) :
    (∀ expr state, ((resolveExpr scope expr).run state).2.scopes = state.scopes) ∧
    (∀ exprs state, ((resolveExprs scope exprs).run state).2.scopes = state.scopes) ∧
    (∀ spec state, ((resolvePackageVars scope spec).run state).2.scopes = state.scopes) ∧
    (∀ decl state, ((resolveBody scope decl).run state).2.scopes = state.scopes) ∧
    ∀ (stmt : Stmt) (state : Resolving) (inner : Scope SymbolId) (outer : List (Scope SymbolId)),
      state.scopes.scopes = inner :: outer →
      ∃ changed : Scope SymbolId,
        ((resolveStmt scope stmt).run state).2.scopes.scopes = changed :: outer ∧
        (∀ name, name ∉ stmt.introduces state.scopes → changed[name]? = inner[name]?) ∧
        ∀ name ∈ stmt.introduces state.scopes, ∃ symbol, changed[name]? = some symbol ∧
          state.tables.symbols.size ≤ symbol ∧
          symbol < ((resolveStmt scope stmt).run state).2.tables.symbols.size := by
  refine ⟨?_, ?_, ?_, ?_, ?_⟩
  · exact fun expr state => (resolveExpr_keeping expr state).scopes
  · exact fun exprs state => (resolveExprs_keeping exprs state).scopes
  · exact fun spec state => (resolvePackageVars_keeping spec state).scopes
  · exact fun decl state => (resolveBody_keeping decl state).scopes
  · exact fun stmt state => (resolveStmt_declares stmt state).scopes

/-- The definition `x, y := func() { y, z := x, x }, x`. -/
def shadowing : Stmt :=
  .assign ⟨0, 0⟩ [.ident (Sample.name 1 "x"), .ident (Sample.name 2 "y")]
    [.literal ⟨0, 3⟩ [] none
      [.assign ⟨0, 4⟩ [.ident (Sample.name 5 "y"), .ident (Sample.name 6 "z")]
        [.ident (Sample.name 7 "x"), .ident (Sample.name 8 "x")] true .zero] .zero .zero,
      .ident (Sample.name 9 "x")] true .zero

/-- Where `x` is declared already, the definition declares its own `y`, and not the `y` and `z` of
the closure literal in it. -/
theorem shadowing_closes_scopes : ∃ changed : Scope SymbolId,
    ((resolveStmt { package := 0 } shadowing).run
      { tables := {}, scopes := ⟨[Std.TreeMap.ofList [("x", 7)]]⟩ }).2.scopes.scopes = [changed] ∧
    changed["x"]? = some 7 ∧ changed["z"]? = none ∧ changed["y"]?.isSome := by
  obtain ⟨-, -, -, -, statement⟩ := resolution_closes_scopes { package := 0 }
  obtain ⟨changed, changed_eq, kept, introduced⟩ := statement shadowing
    { tables := {}, scopes := ⟨[Std.TreeMap.ofList [("x", 7)]]⟩ } _ [] rfl
  obtain ⟨symbol, found, -⟩ := introduced "y" (by decide +kernel)
  refine ⟨changed, changed_eq, ?_, ?_, by simp [found]⟩
  · rw [kept "x" (by decide +kernel)]
    decide +kernel
  · rw [kept "z" (by decide +kernel)]
    decide +kernel

end Resolution

end Relock
