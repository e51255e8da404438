import Relock.Program.Binding
import Relock.Proofs.Program.Marks
import Relock.Proofs.Resolution.Body
import Relock.Resolution.Program

/-!
# What resolution records in bodies

Resolving an expression or a statement records something under the numbers of its own constructs
and nowhere else. It adds variables and leaves those alone that exist. Where numbers are unique,
each new variable that says which statement declares it is recorded for a name of this statement.
-/

namespace Relock

namespace Mark

/-- No number occurs among both marks. -/
def Apart (left right : List Mark) : Prop := ∀ mark ∈ left, ∀ other ∈ right, mark.id ≠ other.id

/-- No number occurs twice. -/
def Unique (marks : List Mark) : Prop := (marks.map Mark.id).Nodup

theorem unique_append {left right : List Mark} :
    Unique (left ++ right) ↔ Unique left ∧ Unique right ∧ Apart left right := by
  simp only [Unique, Apart, List.map_append, List.nodup_append, List.forall_mem_map]

theorem Unique.tail {mark : Mark} {marks : List Mark} (unique : Unique (mark :: marks)) :
    Unique marks :=
  (List.nodup_cons.mp unique).2

/-- Where no number occurs twice, a number tells which part it is from. -/
theorem Unique.eq_of_id_eq {α : Type} {items : List α} {marksOf : α → List Mark}
    (unique : Unique (items.flatMap marksOf)) {item other : α} (listed : item ∈ items)
    (other_listed : other ∈ items) {mark another : Mark} (marked : mark ∈ marksOf item)
    (other_marked : another ∈ marksOf other) (same : mark.id = another.id) : item = other := by
  let pairs := items.flatMap fun item => (marksOf item).map (Prod.mk item)
  have unique_pairs : (pairs.map fun pair => pair.2.id).Nodup := by
    rw [Unique, List.map_flatMap] at unique
    simpa [pairs, List.map_flatMap, Function.comp_def] using unique
  have in_pairs {item : α} (listed : item ∈ items) {mark : Mark} (marked : mark ∈ marksOf item) :
      (item, mark) ∈ pairs :=
    List.mem_flatMap.mpr ⟨item, listed, List.mem_map_of_mem marked⟩
  exact congrArg Prod.fst (List.inj_on_of_nodup_map unique_pairs (in_pairs listed marked)
    (in_pairs other_listed other_marked) same)

theorem apart_nil (marks : List Mark) : Apart marks [] := by simp [Apart]

theorem nil_apart (marks : List Mark) : Apart [] marks := by simp [Apart]

theorem Apart.symm {left right : List Mark} (apart : Apart left right) : Apart right left :=
  fun mark mark_mem other other_mem => (apart other other_mem mark mark_mem).symm

end Mark

namespace Tables

/-- The statement that declares a variable. -/
def declOf? (tables : Tables) (id : SymbolId) : Option NodeId :=
  (tables.symbol? id).bind Symbol.decl

/-- A name of one of the bindings, the one with the given number, is recorded for a variable. -/
def Names (tables : Tables) (marks : List Mark) (bindings : List Binding) (node : NodeId)
    (id : SymbolId) : Prop :=
  ∃ binding ∈ bindings, binding.id = node ∧
    ∃ ident, some ident ∈ binding.names ∧ (∃ mark ∈ marks, mark.id = ident.id) ∧
      tables.objectOf ident = some id

/-- Uses have been recorded for marked names alone, and the bindings name all new variables that say
what declares them. -/
structure Binds (marks : List Mark) (bindings : List Binding) (before after : Tables) : Prop where
  uses : ∀ node, (∀ mark ∈ marks, mark.id ≠ node) → after.uses[node]? = before.uses[node]?
  bound : ∀ id node, after.declOf? id = some node →
    before.declOf? id = some node ∨ after.Names marks bindings node id

/-- Beyond that, variables have been added and selections recorded, and nothing else. -/
structure Records (marks : List Mark) (bindings : List Binding) (before after : Tables) : Prop
    extends Binds marks bindings before after where
  packages : after.packages = before.packages
  named : after.named = before.named
  receivers : after.receivers = before.receivers
  selections : ∀ node, (∀ mark ∈ marks, mark.id ≠ node) →
    after.selections[node]? = before.selections[node]?
  symbols : ∀ id, id < before.symbols.size → after.symbols[id]? = before.symbols[id]?

variable {marks more : List Mark} {bindings further : List Binding} {before middle after : Tables}

theorem Names.mono {node : NodeId} {id : SymbolId} (names : after.Names marks bindings node id)
    (marks_subset : marks ⊆ more) (bindings_subset : bindings ⊆ further) :
    after.Names more further node id := by
  obtain ⟨binding, binding_mem, number, ident, ident_mem, ⟨mark, marked, own⟩, recorded⟩ := names
  exact ⟨binding, bindings_subset binding_mem, number, ident, ident_mem,
    ⟨mark, marks_subset marked, own⟩, recorded⟩

theorem Binds.refl (marks : List Mark) (bindings : List Binding) (tables : Tables) :
    Binds marks bindings tables tables :=
  ⟨fun _ _ => rfl, fun _ _ => .inl⟩

theorem Binds.mono (binds : Binds marks bindings before after) (marks_subset : marks ⊆ more)
    (bindings_subset : bindings ⊆ further) : Binds more further before after where
  uses node apart := binds.uses node fun mark marked => apart mark (marks_subset marked)
  bound id node declared :=
    (binds.bound id node declared).imp_right (·.mono marks_subset bindings_subset)

/-- What is recorded later, for other names, leaves the earlier names alone. -/
theorem Binds.trans (first : Binds marks bindings before middle)
    (second : Binds more further middle after) (apart : Mark.Apart marks more) :
    Binds (marks ++ more) (bindings ++ further) before after where
  uses node unmarked := by
    rw [second.uses node fun mark marked => unmarked mark (List.mem_append_right _ marked),
      first.uses node fun mark marked => unmarked mark (List.mem_append_left _ marked)]
  bound id node declared := by
    rcases second.bound id node declared with declared | names
    · refine (first.bound id node declared).imp_right fun names => ?_
      obtain ⟨binding, binding_mem, number, ident, ident_mem, ⟨mark, marked, own⟩, recorded⟩ :=
        names
      refine ⟨binding, List.mem_append_left _ binding_mem, number, ident, ident_mem,
        ⟨mark, List.mem_append_left _ marked, own⟩, ?_⟩
      rw [← recorded]
      exact second.uses ident.id fun other other_mem =>
        own ▸ (apart mark marked other other_mem).symm
    · exact .inr (names.mono (List.subset_append_right _ _) (List.subset_append_right _ _))

theorem Records.refl (marks : List Mark) (bindings : List Binding) (tables : Tables) :
    Records marks bindings tables tables :=
  { Binds.refl marks bindings tables with
    packages := rfl
    named := rfl
    receivers := rfl
    selections := fun _ _ => rfl
    symbols := fun _ _ => rfl }

theorem Records.mono (records : Records marks bindings before after) (marks_subset : marks ⊆ more)
    (bindings_subset : bindings ⊆ further) : Records more further before after :=
  { records.toBinds.mono marks_subset bindings_subset, records with
    selections := fun node apart =>
      records.selections node fun mark marked => apart mark (marks_subset marked) }

theorem Records.size_le (records : Records marks bindings before after) :
    before.symbols.size ≤ after.symbols.size := by
  by_contra shrinks
  have last := records.symbols (before.symbols.size - 1) (by omega)
  rw [Array.getElem?_eq_none (by omega), eq_comm, Array.getElem?_eq_none_iff] at last
  omega

theorem Records.trans (first : Records marks bindings before middle)
    (second : Records more further middle after) (apart : Mark.Apart marks more) :
    Records (marks ++ more) (bindings ++ further) before after :=
  { first.toBinds.trans second.toBinds apart with
    packages := second.packages.trans first.packages
    named := second.named.trans first.named
    receivers := second.receivers.trans first.receivers
    selections := fun node unmarked => by
      rw [second.selections node fun mark marked => unmarked mark (List.mem_append_right _ marked),
        first.selections node fun mark marked => unmarked mark (List.mem_append_left _ marked)]
    symbols := fun id old => by
      rw [second.symbols id (Nat.lt_of_lt_of_le old first.size_le), first.symbols id old] }

/-! ## Single changes -/

theorem Records.recordUse {tables : Tables} {node : NodeId} {role : Role}
    (marked : ⟨node, role⟩ ∈ marks) (bindings : List Binding) (symbol : SymbolId) :
    Records marks bindings tables (tables.recordUse node symbol) where
  uses other unmarked := by
    have different := unmarked _ marked
    simp [Tables.recordUse, Std.TreeMap.getElem?_insert, different]
  bound _ _ := .inl
  packages := rfl
  named := rfl
  receivers := rfl
  selections _ _ := rfl
  symbols _ _ := rfl

theorem Records.recordSelection {tables : Tables} {selector member : NodeId} {left right : Role}
    (selector_marked : ⟨selector, left⟩ ∈ marks) (member_marked : ⟨member, right⟩ ∈ marks)
    (bindings : List Binding) (symbol : SymbolId) :
    Records marks bindings tables (tables.recordSelection selector member symbol) where
  uses other unmarked := by
    have different := unmarked _ member_marked
    simp [Tables.recordSelection, Std.TreeMap.getElem?_insert, different]
  bound _ _ := .inl
  packages := rfl
  named := rfl
  receivers := rfl
  selections other unmarked := by
    have different := unmarked _ selector_marked
    simp [Tables.recordSelection, Std.TreeMap.getElem?_insert, different]
  symbols _ _ := rfl

/-- A name declares a variable. If the variable says what declares it, this binding has the
name. -/
theorem Records.addSymbol {tables : Tables} {symbol : Symbol} {ident : Ident} {role : Role}
    (marked : ⟨ident.id, role⟩ ∈ marks)
    (named : ∀ node ∈ symbol.decl,
      ∃ binding ∈ bindings, binding.id = node ∧ some ident ∈ binding.names) :
    Records marks bindings tables
      ((tables.addSymbol symbol).2.recordUse ident.id tables.symbols.size) where
  uses other unmarked := by
    have different := unmarked _ marked
    have apart : ident.id ≠ other := different
    simp [Tables.recordUse, Tables.addSymbol, Std.TreeMap.getElem?_insert, apart]
  bound id node declared := by
    simp only [declOf?, symbol?, Tables.recordUse, Tables.addSymbol, Array.getElem?_push]
      at declared
    split at declared
    · rename_i own
      obtain ⟨binding, binding_mem, number, ident_mem⟩ := named node declared
      refine .inr ⟨binding, binding_mem, number, ident, ident_mem, ⟨_, marked, rfl⟩, ?_⟩
      simp [objectOf, Tables.recordUse, own]
    · exact .inl declared
  packages := rfl
  named := rfl
  receivers := rfl
  selections _ _ := rfl
  symbols id old := by
    simp [Tables.recordUse, Tables.addSymbol, Array.getElem?_push, Nat.ne_of_lt old]

end Tables

namespace Resolution

/-- A computation makes records for marked constructs, and for the variables of bindings. -/
def Recording {α : Type} (marks : List Mark) (bindings : List Binding) (computation : Resolve α) :
    Prop :=
  ∀ state : Resolving, state.tables.Records marks bindings (computation.run state).2.tables

variable {α β : Type} {scope : FileScope} {marks more : List Mark}
  {bindings further : List Binding}

namespace Recording

variable {computation : Resolve α} {next : α → Resolve β}

theorem pure (result : α) : Recording marks bindings (pure result) :=
  fun state => .refl marks bindings state.tables

theorem get_bind {next : Resolving → Resolve α}
    (recording : ∀ state, Recording marks bindings (next state)) :
    Recording marks bindings (get >>= next) :=
  fun state => recording state state

theorem bind (first : Recording marks bindings computation)
    (second : ∀ result, Recording more further (next result)) (apart : Mark.Apart marks more) :
    Recording (marks ++ more) (bindings ++ further) (computation >>= next) :=
  fun state => (first state).trans (second _ _) apart

/-- What follows makes no records of its own. -/
theorem bind_pure (first : Recording marks bindings computation)
    (second : ∀ result, Recording [] [] (next result)) :
    Recording marks bindings (computation >>= next) := by
  have both := first.bind second (Mark.apart_nil marks)
  rwa [List.append_nil, List.append_nil] at both

theorem pure_bind (first : Recording [] [] computation)
    (second : ∀ result, Recording marks bindings (next result)) :
    Recording marks bindings (computation >>= next) :=
  first.bind second (Mark.nil_apart marks)

theorem discard (recording : Recording marks bindings computation) :
    Recording marks bindings (discard computation) :=
  recording

theorem mono (recording : Recording marks bindings computation) (marks_subset : marks ⊆ more)
    (bindings_subset : bindings ⊆ further) : Recording more further computation :=
  fun state => (recording state).mono marks_subset bindings_subset

theorem modifyTables {change : Tables → Tables}
    (records : ∀ tables : Tables, tables.Records marks bindings (change tables)) :
    Recording marks bindings (modifyTables change) :=
  fun state => records state.tables

theorem pushScope : Recording [] [] pushScope := fun state => .refl [] [] state.tables

theorem popScope : Recording [] [] popScope := fun state => .refl [] [] state.tables

/-- The rounds of a loop make records for different constructs. -/
theorem forM {items : List α} {action : α → Resolve PUnit} {marksOf : α → List Mark}
    (each : ∀ item ∈ items, Mark.Unique (marksOf item) →
      Recording (marksOf item) bindings (action item))
    (unique : Mark.Unique (items.flatMap marksOf)) :
    Recording (items.flatMap marksOf) bindings (items.forM action) := by
  induction items with
  | nil => exact .pure PUnit.unit
  | cons item items ih =>
      rw [List.forall_mem_cons] at each
      rw [List.flatMap_cons, Mark.unique_append] at unique
      have both := (each.1 unique.1).bind (fun _ => ih each.2 unique.2.1) unique.2.2
      exact both.mono (List.Subset.refl _) (by simp)

end Recording

theorem declareLocal_records {place : VarScope} {type : TypeRef} {decl : Option NodeId}
    {ident : Ident} (named : ∀ node ∈ decl,
      ∃ binding ∈ bindings, binding.id = node ∧ some ident ∈ binding.names) :
    Recording [ident.mark] bindings (declareLocal scope place type decl ident) := by
  unfold declareLocal
  split
  · exact .pure ()
  · exact fun state => .addSymbol List.mem_cons_self named

/-- Names that a binding declares one after the other, as far as there are types for them. -/
theorem declareZip_records {place : VarScope} {binding : Binding} {names : List Ident}
    {types : List TypeRef} (named : ∀ ident ∈ names, some ident ∈ binding.names)
    (unique : Mark.Unique (names.map Ident.mark)) :
    Recording (names.map Ident.mark) [binding] ((names.zip types).forM fun item =>
      declareLocal scope place item.2 (some binding.id) item.1) := by
  induction names generalizing types with
  | nil => exact .pure _
  | cons ident names ih =>
      cases types with
      | nil => exact .pure _
      | cons type types =>
          rw [List.forall_mem_cons] at named
          obtain ⟨-, unique_rest, apart⟩ := Mark.unique_append.mp
            (show Mark.Unique ([ident.mark] ++ names.map Ident.mark) from unique)
          have first := @declareLocal_records scope [binding] place type (some binding.id) ident
            (by simp [named.1])
          exact (first.bind (fun _ => ih named.2 unique_rest) apart).mono (List.Subset.refl _)
            (by simp)

theorem declareParams_records {params : List Param} (unique : Mark.Unique (Param.marks params)) :
    Recording (Param.marks params) [] (declareParams scope params) := by
  refine .forM (fun param _ unique_names => .get_bind fun state => ?_) unique
  rw [List.map_eq_flatMap] at unique_names ⊢
  exact .forM (fun ident _ _ => declareLocal_records nofun) unique_names

theorem resolveIdent_records (ident : Ident) :
    Recording [ident.mark] [] (resolveIdent scope ident) := by
  refine .get_bind fun state => ?_
  split
  · refine .bind_pure (.modifyTables fun tables => ?_) fun _ => .pure _
    exact .recordUse List.mem_cons_self _ _
  · exact .pure _

theorem select_records (id : NodeId) (member : Ident) (chosen : Option SymbolId) :
    Recording [⟨id, .selector member.id⟩, ⟨member.id, .member id⟩] []
      (select id member chosen) := by
  cases chosen with
  | none => exact .pure _
  | some symbol =>
      refine .bind_pure (.modifyTables fun tables => ?_) fun _ => .get_bind fun _ => .pure _
      exact .recordSelection List.mem_cons_self (List.mem_cons_of_mem _ List.mem_cons_self) _ _

mutual

theorem resolveExpr_records : ∀ expr : Expr, Mark.Unique expr.marks →
    Recording expr.marks expr.bindings (resolveExpr scope expr)
  | .ident ident, _ => by
      rw [resolveExpr]
      exact resolveIdent_records ident
  | .selector id base member span, unique => by
      have apart : Mark.Apart base.marks [⟨id, .selector member.id⟩, ⟨member.id, .member id⟩] :=
        (Mark.unique_append.mp unique).2.2.symm
      -- Whatever is done about the base, the member is selected afterwards.
      have then_select {α : Type} {first : Resolve α}
          (recording : Recording base.marks base.bindings first)
          (chosen : α → Tables → Option SymbolId) :
          Recording (Expr.selector id base member span).marks
            (Expr.selector id base member span).bindings (first >>= fun result => do
            select id member (chosen result (← get).tables)) := by
        have selecting (result : α) : Recording
            [⟨id, .selector member.id⟩, ⟨member.id, .member id⟩] [] (do
              select id member (chosen result (← get).tables)) :=
          .get_bind fun state => select_records id member _
        exact (recording.bind selecting apart).mono (by simp [Expr.marks]) (by simp [Expr.bindings])
      rw [resolveExpr]
      refine .get_bind fun state => ?_
      split
      · rename_i ident symbol package found
        obtain ⟨unparen_eq, -⟩ := packageBase?_eq_some found
        have ident_marks : [ident.mark] ⊆ base.marks := by
          rw [← base.marks_unparen, unparen_eq]
          simp [Expr.marks]
        have first : Recording base.marks base.bindings
            (modifyTables fun tables => tables.recordUse ident.id symbol) :=
          .modifyTables fun tables => .recordUse (ident_marks List.mem_cons_self) _ _
        exact then_select first fun _ tables => tables.lookup package member.name
      · exact then_select (resolveExpr_records base unique.tail.tail)
          fun type tables => tables.member? type member.name
  | .call id callee args span, unique => by
      obtain ⟨unique_callee, unique_args, apart⟩ := Mark.unique_append.mp unique.tail
      rw [resolveExpr]
      refine Recording.mono (.bind (resolveExpr_records callee unique_callee) (fun type =>
        .bind_pure (resolveExprs_records args unique_args).discard fun _ =>
          .get_bind fun state => .pure _) apart) ?_ (by simp [Expr.bindings])
      exact List.subset_cons_self _ _
  | .literal id params result body bodySpan span, unique => by
      obtain ⟨unique_params, unique_body, apart⟩ := Mark.unique_append.mp unique.tail
      rw [resolveExpr]
      refine .pure_bind .pushScope fun _ => ?_
      refine Recording.mono (.bind (declareParams_records unique_params) (fun _ =>
        .bind_pure (resolveStmts_records body unique_body) fun _ =>
          .pure_bind .popScope fun _ => .get_bind fun state => .pure _) apart) ?_
        (by simp [Expr.bindings])
      exact List.subset_cons_self _ _
  | .paren inner span, unique => by
      rw [resolveExpr]
      exact resolveExpr_records inner unique
  | .unary operator operand span, unique => by
      rw [resolveExpr]
      exact .bind_pure (resolveExpr_records operand unique) fun _ => .pure _
  | .composite type elements span, unique => by
      rw [resolveExpr]
      exact .bind_pure (resolveExprs_records elements unique).discard
        fun _ => .get_bind fun state => .pure _
  | .other kind parts span, unique => by
      rw [resolveExpr]
      exact .bind_pure (resolveExprs_records parts unique).discard
        fun _ => .get_bind fun state => .pure _

theorem resolveExprs_records : ∀ exprs : List Expr, Mark.Unique (exprMarks exprs) →
    Recording (exprMarks exprs) (exprBindings exprs) (resolveExprs scope exprs)
  | [], _ => by
      rw [resolveExprs]
      exact .pure _
  | expr :: exprs, unique => by
      rw [exprMarks, Mark.unique_append] at unique
      rw [resolveExprs, exprMarks, exprBindings]
      exact .bind (resolveExpr_records expr unique.1) (fun type =>
        .bind_pure (resolveExprs_records exprs unique.2.1) fun _ => .pure _) unique.2.2

theorem resolveTargets_records {id : NodeId} {define : Bool} {binding : Binding}
    (number : binding.id = id) : ∀ targets : List Expr, Mark.Unique (exprMarks targets) →
    (∀ target ∈ targets, ∀ ident ∈ Binding.targetName? target, some ident ∈ binding.names) →
    ∀ types : List TypeRef, Recording (exprMarks targets) (binding :: exprBindings targets)
      (resolveTargets scope id define targets types)
  | [], _, _, types => by
      rw [resolveTargets]
      exact .pure _
  | target :: targets, unique, named, types => by
      rw [exprMarks, Mark.unique_append] at unique
      rw [List.forall_mem_cons] at named
      rw [resolveTargets, exprMarks, exprBindings]
      have others := @resolveTargets_records id define _ number targets unique.2.1 named.2
        types.tail
      -- Whatever is done about the first target, the others follow.
      have before_others {first : Resolve PUnit}
          (recording : Recording target.marks (binding :: target.bindings) first) :
          Recording (target.marks ++ exprMarks targets)
            (binding :: (target.bindings ++ exprBindings targets))
            (first >>= fun _ => resolveTargets scope id define targets types.tail) :=
        (recording.bind (fun _ => others) unique.2.2).mono (List.Subset.refl _) (by simp)
      have whole := before_others ((resolveExpr_records target unique.1).discard.mono
        (List.Subset.refl _) (List.subset_cons_self _ _))
      split
      · rename_i ident unparen_eq
        have ident_marks : [ident.mark] ⊆ target.marks := by
          rw [← target.marks_unparen, unparen_eq]
          simp [Expr.marks]
        split
        · refine .get_bind fun state => ?_
          split
          · refine before_others (Recording.mono (.modifyTables fun tables => ?_) ident_marks
              (List.nil_subset _))
            exact .recordUse List.mem_cons_self _ _
          · refine before_others (Recording.mono (declareLocal_records ?_) ident_marks
              (List.cons_subset_cons _ (List.nil_subset _)))
            rintro node ⟨⟩
            refine ⟨binding, List.mem_cons_self, number, named.1 ident ?_⟩
            simp [Binding.targetName?, unparen_eq]
        · exact whole
      · exact whole

theorem resolveStmt_records : ∀ stmt : Stmt, Mark.Unique stmt.marks →
    Recording stmt.marks stmt.bindings (resolveStmt scope stmt)
  | .expr expr, unique => by
      rw [resolveStmt]
      exact (resolveExpr_records expr unique).discard
  | .defer id callee args callSpan span, unique | .go id callee args callSpan span, unique => by
      obtain ⟨unique_callee, unique_args, apart⟩ := Mark.unique_append.mp unique.tail
      rw [resolveStmt]
      refine Recording.mono (.bind (resolveExpr_records callee unique_callee).discard (fun _ =>
        (resolveExprs_records args unique_args).discard) apart) ?_ (by simp [Stmt.bindings])
      exact List.subset_cons_self _ _
  | .return results span, unique => by
      rw [resolveStmt]
      exact (resolveExprs_records results unique).discard
  | .assign id targets values define span, unique => by
      obtain ⟨unique_targets, unique_values, apart⟩ := Mark.unique_append.mp unique.tail
      rw [resolveStmt]
      refine Recording.mono (.bind (resolveExprs_records values unique_values) (fun types =>
        @resolveTargets_records id define (.assign ⟨id, targets, values, define, span⟩) rfl targets
          unique_targets ?_ _) apart.symm) ?_ ?_
      · exact fun target member ident named => List.mem_map.mpr ⟨target, member, named⟩
      · simp [Stmt.marks]
      · simp [Stmt.bindings]
  | .var id names type values span, unique => by
      obtain ⟨unique_names, unique_values, apart⟩ := Mark.unique_append.mp unique.tail
      rw [resolveStmt]
      refine .get_bind fun state => ?_
      let binding : Binding := .declare ⟨id, names, type, values, span⟩
      have named (ident : Ident) (member : ident ∈ names) : some ident ∈ binding.names :=
        List.mem_map_of_mem member
      have declaring (types : List TypeRef) : Recording (names.map Ident.mark) [binding]
          ((names.zip types).forM fun item => declareLocal scope .local item.2 (some id) item.1) :=
        declareZip_records named unique_names
      have both := (@resolveExprs_records values unique_values).bind
        (fun types => declaring (specTypes names (type.map (resolveType scope state.tables)) types))
        apart.symm
      exact both.mono (by simp [Stmt.marks]) (by simp [Stmt.bindings, binding])
  | .block body span, unique | .compound kind body span, unique => by
      rw [resolveStmt]
      exact .pure_bind .pushScope fun _ =>
        .bind_pure (resolveStmts_records body unique) fun _ => .popScope

theorem resolveStmts_records : ∀ stmts : List Stmt, Mark.Unique (stmtMarks stmts) →
    Recording (stmtMarks stmts) (stmtBindings stmts) (resolveStmts scope stmts)
  | [], _ => by
      rw [resolveStmts]
      exact .pure _
  | stmt :: stmts, unique => by
      rw [stmtMarks, Mark.unique_append] at unique
      rw [resolveStmts, stmtMarks, stmtBindings]
      exact .bind (resolveStmt_records stmt unique.1)
        (fun _ => resolveStmts_records stmts unique.2.1) unique.2.2

end

/-- The receiver, the parameters and the body of a declaration. -/
theorem resolveBody_records {decl : FuncDecl} (unique : Mark.Unique decl.innerMarks) :
    Recording decl.innerMarks (Decl.func decl).bindings (resolveBody scope decl) := by
  unfold resolveBody
  cases body : decl.body with
  | none => exact .pure _
  | some block =>
      simp only [FuncDecl.innerMarks, Decl.bindings, body] at unique ⊢
      obtain ⟨-, unique_rest, receiver_apart⟩ := Mark.unique_append.mp unique
      obtain ⟨unique_params, unique_body, apart⟩ := Mark.unique_append.mp unique_rest
      have rest : Recording (Param.marks decl.params ++ stmtMarks block.body)
          (stmtBindings block.body) (declareParams scope decl.params >>= fun _ =>
            resolveStmts scope block.body >>= fun _ => popScope) :=
        (declareParams_records unique_params).bind (fun _ =>
          .bind_pure (resolveStmts_records block.body unique_body) fun _ => .popScope) apart
      refine .pure_bind .pushScope fun _ => ?_
      cases receiver : decl.receiver.bind Receiver.name with
      | none => exact rest
      | some name =>
          rw [receiver] at receiver_apart
          refine .get_bind fun state => ?_
          have first := @declareLocal_records scope [] .receiver
            ((state.tables.receiverType? decl).getD .unknown) none name (by simp)
          exact first.bind (fun _ => rest) receiver_apart

end Resolution

end Relock
