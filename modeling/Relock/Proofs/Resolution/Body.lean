import Relock.Proofs.Program.Marks
import Relock.Proofs.Resolution.Housing
import Relock.Proofs.Resolution.Leads

/-!
# The steps of resolution in bodies

Inside bodies and values resolution opens and closes scopes, declares variables, and records what
names refer to and what selectors select. It records each under the number of the construct it is
about, and records nothing else. The types it finds mention existing packages.
-/

namespace Relock

namespace Resolving

/-- The state after a name has declared a variable in the innermost scope. -/
def declare (state : Resolving) (ident : Ident) (symbol : Symbol) : Resolving where
  tables := (state.tables.addSymbol symbol).2.recordUse ident.id state.tables.symbols.size
  scopes := state.scopes.declare ident.name state.tables.symbols.size

end Resolving

namespace Resolution

/-- A name may select an entity: it is a member of a package or of a named type. -/
def Selectable (tables : Tables) (name : String) (symbol : SymbolId) : Prop :=
  (∃ package, tables.lookup package name = some symbol) ∨
    ∃ type, tables.member? type name = some symbol

/-- One step of resolution in the bodies of a file, for constructs with the given marks. -/
inductive Step (scope : FileScope) (marks : List Mark) : Resolving → Resolving → Prop where
  | push (state : Resolving) : Step scope marks state { state with scopes := state.scopes.push }
  | pop (state : Resolving) : Step scope marks state { state with scopes := state.scopes.pop }
  /-- A name declares a variable. Parameters and receivers are declared by no statement. -/
  | declare (state : Resolving) (place : VarScope) (type : TypeRef) (decl : Option NodeId)
      (ident : Ident) (marked : ident.mark ∈ marks)
      (own : scope.package < state.tables.packages.size)
      (within : type.isWithin state.tables.packages.size = true)
      (bound : decl.isSome = true → place = .local) :
      Step scope marks state
        (state.declare ident ⟨ident.name, .var place, scope.package, type, decl⟩)
  /-- A name refers to an entity in scope. -/
  | refer (state : Resolving) (ident : Ident) (symbol : SymbolId) (marked : ident.mark ∈ marks)
      (found : lookup scope state ident.name = some symbol) :
      Step scope marks state { state with tables := state.tables.recordUse ident.id symbol }
  /-- A selector selects a member. -/
  | select (state : Resolving) (id : NodeId) (member : Ident) (symbol : SymbolId)
      (selector_marked : ⟨id, .selector member.id⟩ ∈ marks)
      (member_marked : ⟨member.id, .member id⟩ ∈ marks)
      (found : Selectable state.tables member.name symbol) :
      Step scope marks state
        { state with tables := state.tables.recordSelection id member.id symbol }
  /-- The type of a variable becomes known. -/
  | retype (state : Resolving) (symbol : SymbolId) (type : TypeRef)
      (within : type.isWithin state.tables.packages.size = true) :
      Step scope marks state { state with tables := state.tables.setType symbol type }

variable {scope : FileScope} {marks : List Mark} {count : Nat} {before state : Resolving}
  {type : TypeRef} {ident : Ident}

/-- What bodies add mentions existing packages. -/
theorem Step.housed {after : Resolving} (step : Step scope marks before after)
    (housed : before.tables.Housed) : after.tables.Housed := by
  have within := housed.within
  cases step with
  | push | pop => exact housed
  | refer | select => exact housed.of_within rfl (within.of_eq rfl rfl rfl)
  | declare place type decl ident marked own typed =>
      have added := within.addSymbol (Symbol.isWithin_iff.mpr ⟨own, rfl, typed⟩ :
        (Symbol.mk ident.name (.var place) scope.package type decl).isWithin _ = true)
      exact housed.of_within rfl (added.of_eq rfl rfl rfl)
  | retype symbol type typed => exact housed.of_within rfl (within.setType symbol typed)

theorem Step.packages_eq {after : Resolving} (step : Step scope marks before after) :
    after.tables.packages = before.tables.packages := by
  cases step <;> rfl

/-- There are `count` packages, that of the file among them, and no others are mentioned. -/
structure Ready (scope : FileScope) (count : Nat) (state : Resolving) : Prop where
  size : state.tables.packages.size = count
  own : scope.package < count
  housed : state.tables.Housed

theorem Ready.within (ready : Ready scope count state) : state.tables.Within count :=
  ready.size ▸ ready.housed.within

/-- The bodies of one file leave the others ready. -/
theorem Step.ready {other : FileScope} {after : Resolving} (step : Step other marks before after)
    (ready : Ready scope count before) :
    Ready scope count after where
  size := step.packages_eq ▸ ready.size
  own := ready.own
  housed := step.housed ready.housed

theorem Ready.after {after : Resolving} (ready : Ready scope count before)
    (steps : Relation.ReflTransGen (Step scope marks) before after) : Ready scope count after :=
  kept_of_steps (fun _ _ step => step.ready) steps ready

/-- From any state with `count` packages a computation takes steps only. -/
def Takes {α : Type} (scope : FileScope) (marks : List Mark) (count : Nat)
    (computation : Resolve α) (post : α → Prop := fun _ => True) : Prop :=
  ∀ state, Ready scope count state →
    Leads (Step scope marks) state computation fun result _ => post result

namespace Takes

variable {α β : Type} {post : α → Prop}

theorem pure {result : α} (holds : post result) : Takes scope marks count (pure result) post :=
  fun _ _ => .pure holds

theorem get_bind {next : Resolving → Resolve α}
    (takes : ∀ state, Ready scope count state →
      Leads (Step scope marks) state (next state) fun result _ => post result) :
    Takes scope marks count (get >>= next) post :=
  fun state ready => .get_bind (takes state ready)

theorem bind {computation : Resolve α} {next : α → Resolve β} {goal : β → Prop}
    (first : Takes scope marks count computation post)
    (continues : ∀ result, post result → Takes scope marks count (next result) goal) :
    Takes scope marks count (computation >>= next) goal :=
  fun state ready => (first state ready).bind fun result reached steps holds =>
    continues result holds reached (ready.after steps)

theorem discard {computation : Resolve α} (takes : Takes scope marks count computation post) :
    Takes scope marks count (discard computation) :=
  fun state ready => (takes state ready).discard

theorem forM {items : List α} {action : α → Resolve PUnit}
    (each : ∀ item ∈ items, Takes scope marks count (action item)) :
    Takes scope marks count (items.forM action) :=
  fun _ ready => .forM fun item member reached steps => each item member reached (ready.after steps)

theorem pushScope : Takes scope marks count pushScope :=
  fun state _ => .modify (.push state) trivial

theorem popScope : Takes scope marks count popScope :=
  fun state _ => .modify (.pop state) trivial

end Takes

/-! ## Types -/

section Types

variable {state : Resolving} (within : state.tables.Within count)
include within

theorem typeOperand_isWithin {expr : Expr} (found : typeOperand scope state expr = some type) :
    type.isWithin count = true := by
  fun_induction typeOperand scope state expr generalizing type with
  | case1 ident =>
      obtain ⟨id, -, named⟩ := Option.bind_eq_some_iff.mp found
      exact within.typeNamed? named
  | case2 id =>
      obtain ⟨symbol, -, named⟩ := Option.bind_eq_some_iff.mp found
      exact within.typeNamed? named
  | case3 inner _ ih => exact ih found
  | case4 operand _ ih | case5 target _ _ ih =>
      obtain ⟨target, target_eq, rfl⟩ := Option.map_eq_some_iff.mp found
      have inner := ih target_eq
      exact inner
  | case6 => cases found

theorem callType_isWithin (callee : Expr) (args : List Expr) {calleeType : TypeRef}
    (known : calleeType.isWithin count = true) :
    (callType scope state callee args calleeType).isWithin count = true := by
  unfold callType
  split
  · exact typeOperand_isWithin within ‹_›
  · split
    · split
      · rename_i found
        obtain ⟨arg, -, operand_eq⟩ := Option.bind_eq_some_iff.mp found
        have inner := typeOperand_isWithin within operand_eq
        exact inner
      · rfl
    · split
      · exact known
      · rfl

theorem otherType_isWithin (kind : String) (parts : List Expr) :
    (otherType scope state kind parts).isWithin count = true := by
  unfold otherType
  split
  · cases found : parts.getLast?.bind (typeOperand scope state) with
    | none => rfl
    | some type =>
        obtain ⟨last, -, operand_eq⟩ := Option.bind_eq_some_iff.mp found
        exact typeOperand_isWithin within operand_eq
  · rfl

end Types

theorem unaryType_isWithin (operator : String) (known : type.isWithin count = true) :
    (unaryType operator type).isWithin count = true := by
  unfold unaryType
  split
  · split
    · rfl
    · exact known
  · split
    · exact known
    · rfl
  · rfl
  · exact known

/-- The types that a declaration gives to its names are the declared one, or those of the values. -/
theorem specTypes_isWithin (names : List Ident) {declared : Option TypeRef} {values : List TypeRef}
    (declared_within : ∀ type ∈ declared, type.isWithin count = true)
    (values_within : ∀ type ∈ values, type.isWithin count = true) :
    ∀ type ∈ specTypes names declared values, type.isWithin count = true := by
  unfold specTypes
  split
  · rename_i type
    intro other member
    obtain ⟨-, -, rfl⟩ := List.mem_map.mp member
    exact declared_within _ rfl
  · split
    · exact values_within
    · intro other member
      obtain ⟨-, -, rfl⟩ := List.mem_map.mp member
      rfl

/-! ## Names and selectors -/

theorem lookup_of_lookupLocal {state : Resolving} {name : String} {symbol : SymbolId}
    (found : state.scopes.lookupLocal name = some symbol) :
    lookup scope state name = some symbol := by
  have inner : state.scopes.lookup name = some symbol := by
    unfold ScopeStack.lookupLocal ScopeStack.top? at found
    unfold ScopeStack.lookup
    cases scopes : state.scopes.scopes with
    | nil => simp [scopes] at found
    | cons scope outer => simp_all
  simp [lookup, inner]

theorem declareLocal_takes {place : VarScope} {decl : Option NodeId} (marked : ident.mark ∈ marks)
    (within : type.isWithin count = true) (bound : decl.isSome = true → place = .local) :
    Takes scope marks count (declareLocal scope place type decl ident) := by
  unfold declareLocal
  split
  · exact .pure trivial
  · rintro state ⟨rfl, own, -⟩
    exact .modify (.declare state place type decl ident marked own within bound) trivial

theorem declareParams_takes {params : List Param} (marked : Param.marks params ⊆ marks) :
    Takes scope marks count (declareParams scope params) := by
  refine .forM fun param param_mem => .get_bind fun state ready => ?_
  refine Takes.forM (fun ident ident_mem => declareLocal_takes (marked ?_) ?_ (by simp)) state ready
  · exact List.mem_flatMap.mpr ⟨param, param_mem, List.mem_map_of_mem ident_mem⟩
  · split
    · rfl
    · exact resolveType_isWithin ready.within scope param.type

theorem resolveIdent_takes (marked : ident.mark ∈ marks) :
    Takes scope marks count (resolveIdent scope ident) fun type => type.isWithin count = true := by
  refine .get_bind fun state ready => ?_
  cases found : lookup scope state ident.name with
  | none => exact .pure rfl
  | some symbol =>
      refine .modify_bind (.refer state ident symbol marked found) (.pure ?_)
      exact ready.within.typeOf symbol

theorem select_leads {id : NodeId} {member : Ident} {chosen : Option SymbolId}
    (ready : Ready scope count state) (selector_marked : ⟨id, .selector member.id⟩ ∈ marks)
    (member_marked : ⟨member.id, .member id⟩ ∈ marks)
    (found : ∀ symbol, chosen = some symbol → Selectable state.tables member.name symbol) :
    Leads (Step scope marks) state (select id member chosen) fun type _ =>
      type.isWithin count = true := by
  cases chosen with
  | none => exact .pure rfl
  | some symbol =>
      have step := @Step.select scope marks state id member symbol selector_marked
        member_marked (found symbol rfl)
      exact .modify_bind step (.get_bind (.pure ((step.ready ready).within.typeOf symbol)))

/-- The name of an imported package is the base that it stands for, and is in scope. -/
theorem packageBase?_eq_some {base : Expr} {symbol : SymbolId} {package : PackageId}
    (found : packageBase? scope state base = some (ident, symbol, package)) :
    base.unparen = .ident ident ∧ lookup scope state ident.name = some symbol := by
  unfold packageBase? at found
  split at found
  · rename_i other unparen_eq
    simp only [Option.bind_eq_bind, Option.bind_eq_some_iff, Option.pure_def,
      Option.some.injEq, Prod.mk.injEq] at found
    obtain ⟨_, looked, _, _, rfl, rfl, rfl⟩ := found
    exact ⟨unparen_eq, looked⟩
  · cases found

/-! ## Expressions and statements -/

mutual

theorem resolveExpr_takes : ∀ expr : Expr, expr.marks ⊆ marks →
    Takes scope marks count (resolveExpr scope expr) fun type => type.isWithin count = true
  | .ident ident, marked => by
      rw [resolveExpr]
      exact resolveIdent_takes (marked (by simp [Expr.marks]))
  | .selector id base member span, marked => by
      have base_marked : base.marks ⊆ marks :=
        fun mark found => marked (by simp [Expr.marks, found])
      have selector_marked := @marked ⟨id, .selector member.id⟩ (by simp [Expr.marks])
      have member_marked := @marked ⟨member.id, .member id⟩ (by simp [Expr.marks])
      rw [resolveExpr]
      refine .get_bind fun state ready => ?_
      cases package : packageBase? scope state base with
      | some found =>
          obtain ⟨ident, symbol, package⟩ := found
          obtain ⟨unparen_eq, looked⟩ := packageBase?_eq_some package
          have ident_marked : ident.mark ∈ marks := base_marked (by
            rw [← base.marks_unparen, unparen_eq]
            simp [Expr.marks])
          have step := Step.refer state ident symbol ident_marked looked
          refine .modify_bind step (.get_bind ?_)
          refine select_leads (step.ready ready) selector_marked member_marked ?_
          exact fun chosen selected => .inl ⟨_, selected⟩
      | none =>
          refine (resolveExpr_takes base base_marked state ready).bind fun _ reached steps _ => ?_
          refine .get_bind (select_leads (ready.after steps) selector_marked member_marked ?_)
          exact fun chosen selected => .inr ⟨_, selected⟩
  | .call id callee args span, marked => by
      rw [resolveExpr]
      refine (resolveExpr_takes callee fun mark found =>
        marked (by simp [Expr.marks, found])).bind fun type known => ?_
      refine (resolveExprs_takes args fun mark found =>
        marked (by simp [Expr.marks, found])).discard.bind fun _ _ => ?_
      exact .get_bind fun state ready => .pure (callType_isWithin ready.within callee args known)
  | .literal id params result body bodySpan span, marked => by
      rw [resolveExpr]
      refine Takes.pushScope.bind fun _ _ => ?_
      refine (declareParams_takes fun mark found =>
        marked (by simp [Expr.marks, found])).bind fun _ _ => ?_
      refine (resolveStmts_takes body fun mark found =>
        marked (by simp [Expr.marks, found])).bind fun _ _ => ?_
      refine Takes.popScope.bind fun _ _ => ?_
      exact .get_bind fun state ready => .pure (ofResult_isWithin ready.within scope result)
  | .paren inner span, marked => by
      rw [resolveExpr]
      exact resolveExpr_takes inner (by simpa [Expr.marks] using marked)
  | .unary operator operand span, marked => by
      rw [resolveExpr]
      refine (resolveExpr_takes operand (by simpa [Expr.marks] using marked)).bind ?_
      exact fun type known => .pure (unaryType_isWithin operator known)
  | .composite type elements span, marked => by
      rw [resolveExpr]
      have inner : exprMarks elements ⊆ marks := by simpa [Expr.marks] using marked
      refine (resolveExprs_takes elements inner).discard.bind fun _ _ => ?_
      exact .get_bind fun state ready => .pure (resolveType_isWithin ready.within scope type)
  | .other kind parts span, marked => by
      rw [resolveExpr]
      have inner : exprMarks parts ⊆ marks := by simpa [Expr.marks] using marked
      refine (resolveExprs_takes parts inner).discard.bind fun _ _ => ?_
      exact .get_bind fun state ready => .pure (otherType_isWithin ready.within kind parts)

theorem resolveExprs_takes : ∀ exprs : List Expr, exprMarks exprs ⊆ marks →
    Takes scope marks count (resolveExprs scope exprs) fun types =>
      ∀ type ∈ types, type.isWithin count = true
  | [], _ => by
      rw [resolveExprs]
      exact .pure (by simp)
  | expr :: exprs, marked => by
      rw [exprMarks, List.append_subset] at marked
      rw [resolveExprs]
      refine (resolveExpr_takes expr marked.1).bind fun type known => ?_
      refine (resolveExprs_takes exprs marked.2).bind fun types all => .pure ?_
      exact List.forall_mem_cons.mpr ⟨known, all⟩

theorem resolveTargets_takes (id : NodeId) (define : Bool) : ∀ targets : List Expr,
    exprMarks targets ⊆ marks → ∀ types : List TypeRef,
    (∀ type ∈ types, type.isWithin count = true) →
    Takes scope marks count (resolveTargets scope id define targets types)
  | [], _, types, _ => by
      rw [resolveTargets]
      exact .pure trivial
  | target :: targets, marked, types, known => by
      rw [exprMarks, List.append_subset] at marked
      rw [resolveTargets]
      have whole := (resolveExpr_takes target marked.1).discard
      have others := resolveTargets_takes id define targets marked.2 types.tail
        fun type member => known type (List.mem_of_mem_tail member)
      split
      · rename_i ident unparen_eq
        have ident_marked : ident.mark ∈ marks := marked.1 (by
          rw [← target.marks_unparen, unparen_eq]
          simp [Expr.marks])
        split
        · refine .get_bind fun state ready => ?_
          cases found : state.scopes.lookupLocal ident.name with
          | some symbol =>
              have looked := @lookup_of_lookupLocal scope _ _ _ found
              have step := Step.refer state ident symbol ident_marked looked
              exact .modify_bind step (others _ (step.ready ready))
          | none =>
              refine Takes.bind (declareLocal_takes ident_marked ?_ fun _ => rfl)
                (fun _ _ => others) state ready
              cases types with
              | nil => rfl
              | cons type types => exact known type List.mem_cons_self
        · exact whole.bind fun _ _ => others
      · exact whole.bind fun _ _ => others

theorem resolveStmt_takes : ∀ stmt : Stmt, stmt.marks ⊆ marks →
    Takes scope marks count (resolveStmt scope stmt)
  | .expr expr, marked => by
      rw [resolveStmt]
      exact (resolveExpr_takes expr marked).discard
  | .defer id callee args callSpan span, marked | .go id callee args callSpan span, marked => by
      rw [resolveStmt]
      refine (resolveExpr_takes callee fun mark found =>
        marked (by simp [Stmt.marks, found])).discard.bind fun _ _ => ?_
      exact (resolveExprs_takes args fun mark found =>
        marked (by simp [Stmt.marks, found])).discard
  | .return results span, marked => by
      rw [resolveStmt]
      exact (resolveExprs_takes results marked).discard
  | .assign id targets values define span, marked => by
      rw [resolveStmt]
      refine (resolveExprs_takes values fun mark found =>
        marked (by simp [Stmt.marks, found])).bind fun types known => ?_
      refine resolveTargets_takes id define targets
        (fun mark found => marked (by simp [Stmt.marks, found])) _ ?_
      split
      · exact known
      · simp
  | .var id names type values span, marked => by
      rw [resolveStmt]
      refine .get_bind fun state ready => ?_
      refine Takes.bind (resolveExprs_takes values fun mark found =>
        marked (by simp [Stmt.marks, found])) (fun types known => ?_) state ready
      refine .forM fun item item_mem => ?_
      obtain ⟨name_mem, type_mem⟩ := List.of_mem_zip item_mem
      refine declareLocal_takes (marked ?_) (specTypes_isWithin names ?_ known item.2 type_mem)
        fun _ => rfl
      · simp only [Stmt.marks, List.mem_cons, List.mem_append]
        exact .inr (.inl (List.mem_map_of_mem name_mem))
      · exact declared_isWithin ready.within scope type
  | .block body span, marked => by
      rw [resolveStmt]
      refine Takes.pushScope.bind fun _ _ => ?_
      exact (resolveStmts_takes body marked).bind fun _ _ => .popScope
  | .compound kind parts span, marked => by
      rw [resolveStmt]
      refine Takes.pushScope.bind fun _ _ => ?_
      exact (resolveStmts_takes parts marked).bind fun _ _ => .popScope

theorem resolveStmts_takes : ∀ stmts : List Stmt, stmtMarks stmts ⊆ marks →
    Takes scope marks count (resolveStmts scope stmts)
  | [], _ => by
      rw [resolveStmts]
      exact .pure trivial
  | stmt :: stmts, marked => by
      rw [stmtMarks, List.append_subset] at marked
      rw [resolveStmts]
      refine (resolveStmt_takes stmt marked.1).bind fun _ _ => ?_
      exact resolveStmts_takes stmts marked.2

end

/-! ## Declarations -/

theorem resolvePackageVars_takes {spec : ValueSpec} (marked : exprMarks spec.values ⊆ marks) :
    Takes scope marks count (resolvePackageVars scope spec) := by
  refine .get_bind fun state ready => ?_
  refine Takes.bind (resolveExprs_takes spec.values marked) (fun types known => ?_) state ready
  refine .forM fun item item_mem => .get_bind fun state reached => ?_
  have within := specTypes_isWithin spec.names (declared_isWithin ready.within scope spec.type)
    known item.2 (List.of_mem_zip item_mem).2
  cases state.tables.objectOf item.1 with
  | some symbol => exact .modify (.retype state symbol item.2 (reached.size ▸ within)) trivial
  | none => exact .pure trivial

theorem resolveBody_takes {decl : FuncDecl} (marked : decl.innerMarks ⊆ marks) :
    Takes scope marks count (resolveBody scope decl) := by
  unfold resolveBody
  cases body : decl.body with
  | none => exact .pure trivial
  | some block =>
      simp only [FuncDecl.innerMarks, body, List.append_subset] at marked
      obtain ⟨receiver_marked, params_marked, body_marked⟩ := marked
      refine Takes.pushScope.bind fun _ _ => ?_
      have rest : Takes scope marks count (declareParams scope decl.params >>= fun _ =>
          resolveStmts scope block.body >>= fun _ => popScope) := by
        refine (declareParams_takes params_marked).bind fun _ _ => ?_
        exact (resolveStmts_takes block.body body_marked).bind fun _ _ => .popScope
      cases receiver : decl.receiver.bind Receiver.name with
      | none => exact rest
      | some name =>
          have name_marked : name.mark ∈ marks := receiver_marked (by simp [receiver])
          refine .get_bind fun state ready => ?_
          refine (declareLocal_takes name_marked ?_ (by simp)).bind (fun _ _ => rest) state ready
          exact ready.within.receiverType decl

end Resolution

end Relock
