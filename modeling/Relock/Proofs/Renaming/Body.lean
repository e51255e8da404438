import Relock.Proofs.Renaming.Lockstep
import Relock.Proofs.Resolution.Bindings
import Relock.Proofs.Resolution.Coherence

/-!
# Bodies in lockstep

In matching states, resolution of the same expressions and statements finds the same types and
records the same entities, up to the numbers. The states need not agree on the types of all entities,
as long as those of which the types differ are recorded nowhere.
-/

namespace Relock

variable {moved : Renaming} {view : View}

/-- The states say the same, with new numbers. -/
structure Resolving.Matches (moved : Renaming) (view : View) (left right : Resolving) : Prop where
  tables : left.tables.Matches moved view right.tables
  scopes : left.scopes.Renamed moved right.scopes

/-- The types of all corresponding entities that are recorded for the marks are compared. -/
def Resolving.Clear (moved : Renaming) (view : View) (marks : List Mark) (left right : Resolving) :
    Prop :=
  ∀ mark ∈ marks, ∀ id, left.tables.uses[mark.id]? = some id →
    right.tables.uses[mark.id.renumber moved.file]? = some (moved.symbol id) → view.typed id

namespace Mark

variable {file : Nat → Nat} (injective : Function.Injective file)
include injective

theorem Unique.renumber {marks : List Mark} (unique : Unique marks) :
    Unique (marks.map (Mark.renumber file)) := by
  have ids : (marks.map (Mark.renumber file)).map Mark.id =
      (marks.map Mark.id).map (NodeId.renumber file) := by
    rw [List.map_map, List.map_map]
    rfl
  rw [Unique, ids]
  exact unique.map (NodeId.renumber_injective injective)

theorem Apart.renumber {marks more : List Mark} (apart : Apart marks more) :
    Apart (marks.map (Mark.renumber file)) (more.map (Mark.renumber file)) := by
  simp only [Apart, List.forall_mem_map]
  exact fun mark marked other other_marked same =>
    apart mark marked other other_marked (NodeId.renumber_injective injective same)

end Mark

namespace Resolution

/-! ## Two computations in bodies -/

/-- Started in states that match, two computations end in such states, with results that correspond,
if the types are compared of all that both have recorded for the marks. -/
def InStep (moved : Renaming) (view : View) (marks : List Mark) {α β : Type} (left : Resolve α)
    (right : Resolve β) (post : α → β → Prop := fun _ _ => True) : Prop :=
  ∀ before other, before.Matches moved view other →
    Resolving.Clear moved view marks (left.run before).2 (right.run other).2 →
    (left.run before).2.Matches moved view (right.run other).2 ∧
      post (left.run before).1 (right.run other).1

/-- A computation leaves alone what is recorded for the marks. -/
def Leaves {α : Type} (marks : List Mark) (computation : Resolve α) : Prop :=
  ∀ state, ∀ mark ∈ marks,
    (computation.run state).2.tables.uses[mark.id]? = state.tables.uses[mark.id]?

theorem Naming.leaves {α : Type} {marks more : List Mark} {bindings : List Binding}
    {computation : Resolve α} (naming : Naming Resolving.tables more bindings computation)
    (apart : Mark.Apart marks more) : Leaves marks computation :=
  fun state mark marked => (naming state).uses mark.id fun other other_marked =>
    (apart mark marked other other_marked).symm

/-- Two computations leave alone what is recorded for corresponding marks. -/
structure BothLeave (file : Nat → Nat) {α β : Type} (marks : List Mark) (left : Resolve α)
    (right : Resolve β) : Prop where
  left : Leaves marks left
  right : Leaves (marks.map (Mark.renumber file)) right

namespace BothLeave

variable {file : Nat → Nat} {α β γ δ : Type} {marks more : List Mark} {left : Resolve α}
  {right : Resolve β}

theorem pure (result : α) (other : β) : BothLeave file marks (pure result) (pure other) :=
  ⟨fun _ _ _ => rfl, fun _ _ _ => rfl⟩

theorem popScope : BothLeave file marks popScope popScope := ⟨fun _ _ _ => rfl, fun _ _ _ => rfl⟩

theorem get_bind {next : Resolving → Resolve α} {nextRight : Resolving → Resolve β}
    (both : ∀ state other, BothLeave file marks (next state) (nextRight other)) :
    BothLeave file marks (get >>= next) (get >>= nextRight) :=
  ⟨fun state => (both state state).left state, fun state => (both state state).right state⟩

theorem bind {next : α → Resolve γ} {nextRight : β → Resolve δ} (first : BothLeave file marks left right)
    (second : ∀ result other, BothLeave file marks (next result) (nextRight other)) :
    BothLeave file marks (left >>= next) (right >>= nextRight) where
  left state mark marked :=
    ((second _ (right.run state).1).left _ mark marked).trans (first.left state mark marked)
  right state mark marked :=
    ((second (left.run state).1 _).right _ mark marked).trans (first.right state mark marked)

theorem discard (both : BothLeave file marks left right) :
    BothLeave file marks (discard left) (discard right) :=
  ⟨both.left, both.right⟩

theorem forM_map {items : List γ} {toOther : γ → δ} {left : γ → Resolve PUnit}
    {right : δ → Resolve PUnit}
    (each : ∀ item ∈ items, BothLeave file marks (left item) (right (toOther item))) :
    BothLeave file marks (items.forM left) ((items.map toOther).forM right) := by
  induction items with
  | nil => exact .pure _ _
  | cons item items ih =>
      rw [List.forall_mem_cons] at each
      exact each.1.bind fun _ _ => ih each.2

theorem of_naming {bindings others : List Binding}
    (naming : Naming Resolving.tables more bindings left)
    (other : Naming Resolving.tables (more.map (Mark.renumber file)) others right)
    (injective : Function.Injective file) (apart : Mark.Apart marks more) :
    BothLeave file marks left right :=
  ⟨naming.leaves apart, other.leaves (apart.renumber injective)⟩

theorem of_recording {bindings others : List Binding} (recording : Recording more bindings left)
    (other : Recording (more.map (Mark.renumber file)) others right)
    (injective : Function.Injective file) (apart : Mark.Apart marks more) :
    BothLeave file marks left right :=
  of_naming (fun state => (recording state).toBinds) (fun state => (other state).toBinds) injective
    apart

end BothLeave

namespace InStep

variable {α β γ δ : Type} {marks more : List Mark} {left : Resolve α} {right : Resolve β}
  {post : α → β → Prop} {next : α → Resolve γ} {nextRight : β → Resolve δ} {goal : γ → δ → Prop}

/-- Where nothing need be known of the records, the marks do not matter. -/
theorem of_alongside (along : Alongside (Resolving.Matches moved view) left right post) :
    InStep moved view marks left right post :=
  fun before other same _ => along before other same

/-- Where the types of all entities are compared, the records do not matter. -/
theorem alongside (typed : ∀ id, view.typed id) (inStep : InStep moved view marks left right post) :
    Alongside (Resolving.Matches moved view) left right post :=
  fun before other same => inStep before other same fun _ _ id _ _ => typed id

theorem pure {result : α} {other : β} (holds : post result other) :
    InStep moved view marks (pure result) (pure other) post :=
  of_alongside (.pure holds)

theorem get_bind {next : Resolving → Resolve α} {nextRight : Resolving → Resolve β}
    (continues : ∀ before other, before.Matches moved view other →
      InStep moved view marks (next before) (nextRight other) post) :
    InStep moved view marks (get >>= next) (get >>= nextRight) post :=
  fun before other same => continues before other same before other same

theorem mono (inStep : InStep moved view marks left right post) (subset : marks ⊆ more) :
    InStep moved view more left right post :=
  fun before other same clear => inStep before other same fun mark marked => clear mark (subset marked)

theorem discard (inStep : InStep moved view marks left right post) :
    InStep moved view marks (discard left) (discard right) :=
  fun before other same clear => ⟨(inStep before other same clear).1, trivial⟩

/-- What follows leaves the earlier records alone. -/
theorem bind (first : InStep moved view marks left right post)
    (continues : ∀ result other, post result other →
      InStep moved view more (next result) (nextRight other) goal)
    (leave : ∀ result other, BothLeave moved.file marks (next result) (nextRight other)) :
    InStep moved view (marks ++ more) (left >>= next) (right >>= nextRight) goal := by
  intro before other same clear
  have later := leave (left.run before).1 (right.run other).1
  have earlier : Resolving.Clear moved view marks (left.run before).2 (right.run other).2 := by
    intro mark marked id found other_found
    refine clear mark (List.mem_append_left _ marked) id ?_ ?_
    · exact (later.left _ mark marked).trans found
    · exact (later.right _ _ (List.mem_map_of_mem marked)).trans other_found
  obtain ⟨reached, holds⟩ := first before other same earlier
  exact continues _ _ holds _ _ reached fun mark marked =>
    clear mark (List.mem_append_right _ marked)

theorem alongside_bind (first : Alongside (Resolving.Matches moved view) left right post)
    (continues : ∀ result other, post result other →
      InStep moved view more (next result) (nextRight other) goal) :
    InStep moved view more (left >>= next) (right >>= nextRight) goal :=
  (of_alongside first : InStep moved view [] left right post).bind continues
    fun _ _ => ⟨nofun, nofun⟩

/-- Nothing need be known of what follows records. -/
theorem bind_alongside (first : InStep moved view marks left right post)
    (continues : ∀ result other, post result other →
      Alongside (Resolving.Matches moved view) (next result) (nextRight other) goal)
    (leave : ∀ result other, BothLeave moved.file marks (next result) (nextRight other)) :
    InStep moved view marks (left >>= next) (right >>= nextRight) goal := by
  have both := first.bind (fun result other holds =>
    (of_alongside (continues result other holds) : InStep moved view [] _ _ goal)) leave
  rwa [List.append_nil] at both

/-- A loop over items and a loop over what they are mapped to. The later rounds leave the records of
earlier ones alone. -/
theorem forM_map {items : List γ} {toOther : γ → δ} {marksOf : γ → List Mark}
    {left : γ → Resolve PUnit} {right : δ → Resolve PUnit}
    (each : ∀ item ∈ items, InStep moved view (marksOf item) (left item) (right (toOther item)))
    (leave : items.Pairwise fun first later =>
      BothLeave moved.file (marksOf first) (left later) (right (toOther later))) :
    InStep moved view (items.flatMap marksOf) (items.forM left)
      ((items.map toOther).forM right) := by
  induction items with
  | nil => exact .pure trivial
  | cons item items ih =>
      rw [List.forall_mem_cons] at each
      rw [List.pairwise_cons] at leave
      exact each.1.bind (fun _ _ _ => ih each.2 leave.2) fun _ _ => .forM_map leave.1

end InStep

/-! ## Changes of the state -/

theorem pushScope_alongside : Alongside (Resolving.Matches moved view) pushScope pushScope :=
  .modify fun _ _ same => ⟨same.tables, same.scopes.push⟩

theorem popScope_alongside : Alongside (Resolving.Matches moved view) popScope popScope :=
  .modify fun _ _ same => ⟨same.tables, same.scopes.pop⟩

theorem modifyTables_alongside {change other : Tables → Tables}
    (keeps : ∀ left right, left.Matches moved view right →
      (change left).Matches moved view (other right)) :
    Alongside (Resolving.Matches moved view) (modifyTables change) (modifyTables other) :=
  .modify fun _ _ same => ⟨keeps _ _ same.tables, same.scopes⟩

theorem useRecorded_alongside (node : NodeId) (id : SymbolId) :
    Alongside (Resolving.Matches moved view)
      (modifyTables fun tables => tables.recordUse node id)
      (modifyTables fun tables => tables.recordUse (node.renumber moved.file) (moved.symbol id)) :=
  modifyTables_alongside fun _ _ same => same.recordUse node id

section Scope

variable {scope other : FileScope} (scopes : scope.Matches moved other)
include scopes

theorem declareLocal_alongside (place : VarScope) (type : TypeRef) (decl : Option NodeId)
    (ident : Ident) :
    Alongside (Resolving.Matches moved view) (declareLocal scope place type decl ident)
      (declareLocal other place (type.rename moved) (decl.map (NodeId.renumber moved.file))
        (ident.renumber moved.file)) := by
  unfold declareLocal
  rw [Ident.isBlank_renumber]
  cases ident.isBlank with
  | true => exact .pure trivial
  | false =>
      refine .modify fun before after same => ?_
      let symbol : Symbol := ⟨ident.name, .var place, scope.package, type, decl⟩
      have added := (same.tables.addSymbol symbol).recordUse ident.id before.tables.symbols.size
      have declared := same.scopes.declare ident.name before.tables.symbols.size
      have package : other.package = moved.package scope.package := scopes.package
      rw [same.tables.symbol_size] at added declared
      have record : symbol.rename moved = ⟨ident.name, .var place, other.package, type.rename moved,
          decl.map (NodeId.renumber moved.file)⟩ := by
        rw [package]
        rfl
      rw [record] at added
      exact ⟨added, declared⟩

variable (full : view.Full)
include full

theorem declareParams_alongside (params : List Param) :
    Alongside (Resolving.Matches moved view) (declareParams scope params)
      (declareParams other (params.map (Param.renumber moved.file))) := by
  refine .forM_map fun param _ => .get_bind fun before after same => ?_
  obtain ⟨names, written, variadic⟩ := param
  cases variadic with
  | true => exact .forM_map fun ident _ => declareLocal_alongside scopes .param .unknown none ident
  | false =>
      have type := resolveType_rename same.tables full.member scopes written
      have along : Alongside (Resolving.Matches moved view)
          (names.forM (declareLocal scope .param (resolveType scope before.tables written) none))
          ((names.map (Ident.renumber moved.file)).forM
            (declareLocal other .param (resolveType other after.tables written) none)) := by
        rw [type]
        exact .forM_map fun ident _ => declareLocal_alongside scopes .param _ none ident
      exact along

/-! ## What is found in the state -/

section State

variable {left right : Resolving} (same : left.Matches moved view right)
include same

theorem lookup_rename (name : String) :
    lookup other right name = (lookup scope left name).map moved.symbol := by
  have universal := same.tables.lookup Predeclared.universal name (full.member _ _)
  rw [moved.universal] at universal
  rw [lookup, lookup, same.scopes.lookup, scopes.package,
    same.tables.lookup scope.package name (full.member _ _), scopes.imports name, universal,
    Option.map_or, Option.map_or, Option.map_or]

theorem typeOperand_rename (expr : Expr) (seen : ∀ mark ∈ expr.marks, view.node mark.id) :
    typeOperand other right (expr.renumber moved.file) =
      (typeOperand scope left expr).map (TypeRef.rename moved) := by
  have named (found : Option SymbolId) :
      (found.map moved.symbol).bind right.tables.typeNamed? =
        (found.bind left.tables.typeNamed?).map (TypeRef.rename moved) := by
    cases found with
    | none => rfl
    | some id => exact same.tables.typeNamed?_eq id
  have pointers (found : Option TypeRef) :
      (found.map (TypeRef.rename moved)).map TypeRef.pointer =
        (found.map TypeRef.pointer).map (TypeRef.rename moved) := by
    cases found <;> rfl
  fun_induction typeOperand scope left expr with
  | case1 ident =>
      rw [Expr.renumber, typeOperand, Ident.name_renumber, lookup_rename scopes full same]
      exact named _
  | case2 id base member span =>
      have selection := same.tables.selections id (seen _ List.mem_cons_self)
      rw [Expr.renumber, typeOperand, Tables.selection, selection]
      exact named _
  | case3 inner span ih =>
      rw [Expr.renumber, typeOperand]
      exact ih seen
  | case4 operand span ih =>
      rw [Expr.renumber, typeOperand, ih seen]
      exact pointers _
  | case5 target rest span ih =>
      rw [Expr.renumber, renumberExprs, typeOperand,
        ih fun mark marked => seen mark (List.mem_append_left _ marked)]
      exact pointers _
  | case6 expr noIdent noSelector noParen noStar noPointer =>
      cases expr with
      | ident ident => exact absurd rfl (noIdent ident)
      | selector id base member span => exact absurd rfl (noSelector id base member span)
      | paren inner span => exact absurd rfl (noParen inner span)
      | unary operator operand span =>
          have other_operator : operator ≠ "*" := fun star => noStar operand span (star ▸ rfl)
          simp [Expr.renumber, typeOperand, other_operator]
      | other kind parts span =>
          cases parts with
          | nil => simp [Expr.renumber, renumberExprs, typeOperand]
          | cons target rest =>
              have other_kind : kind ≠ "pointer_type" :=
                fun pointer => noPointer target rest span (pointer ▸ rfl)
              simp [Expr.renumber, renumberExprs, typeOperand, other_kind]
      | call | literal | composite => simp [Expr.renumber, typeOperand]

theorem packageBase?_rename (base : Expr) :
    packageBase? other right (base.renumber moved.file) =
      (packageBase? scope left base).map fun (ident, symbol, package) =>
        (ident.renumber moved.file, moved.symbol symbol, moved.package package) := by
  unfold packageBase?
  rw [Expr.unparen_renumber]
  cases base.unparen with
  | ident ident =>
      simp only [Expr.renumber, Ident.name_renumber, lookup_rename scopes full same]
      cases lookup scope left ident.name with
      | none => rfl
      | some symbol =>
          simp only [Option.map_some, Option.bind_eq_bind, Option.bind_some,
            same.tables.importedPackage?_eq]
          cases left.tables.importedPackage? symbol <;> rfl
  | _ => simp [Expr.renumber]

omit scopes full in
theorem isAllocation_rename (callee : Expr) (seen : ∀ mark ∈ callee.marks, view.node mark.id) :
    isAllocation right.tables (callee.renumber moved.file) = isAllocation left.tables callee := by
  rw [← callee.marks_unparen] at seen
  unfold isAllocation
  rw [Expr.unparen_renumber]
  revert seen
  cases callee.unparen with
  | ident ident =>
      intro seen
      simp only [Expr.renumber]
      rw [same.tables.objectOf_eq (seen ident.mark List.mem_cons_self)]
      cases left.tables.objectOf ident with
      | none => rfl
      | some id =>
          simp only [Option.map_some, Option.bind_some]
          cases found : left.tables.symbol? id with
          | none => rw [same.tables.symbol?_eq_none found]
          | some symbol =>
              obtain ⟨another, another_found, untyped⟩ := same.tables.exists_symbol? found
              have name : another.name = symbol.name := (congrArg Symbol.name untyped :)
              have kind : another.kind = symbol.kind.rename moved := congrArg Symbol.kind untyped
              rw [another_found]
              simp only [name, kind]
              cases symbol.kind <;> rfl
  | _ => simp [Expr.renumber]

theorem callType_rename (callee : Expr) (args : List Expr) (calleeType : TypeRef)
    (callee_seen : ∀ mark ∈ callee.marks, view.node mark.id)
    (args_seen : ∀ mark ∈ exprMarks args, view.node mark.id) :
    callType other right (callee.renumber moved.file) (renumberExprs moved.file args)
      (calleeType.rename moved) = (callType scope left callee args calleeType).rename moved := by
  have first : (renumberExprs moved.file args).head?.bind (typeOperand other right) =
      (args.head?.bind (typeOperand scope left)).map (TypeRef.rename moved) := by
    cases args with
    | nil => rfl
    | cons arg rest =>
        exact typeOperand_rename scopes full same arg fun mark marked =>
          args_seen mark (List.mem_append_left _ marked)
  unfold callType
  rw [typeOperand_rename scopes full same callee callee_seen, isAllocation_rename same callee
    callee_seen, first]
  cases typeOperand scope left callee with
  | some type => rfl
  | none =>
      simp only [Option.map_none]
      split
      · cases args.head?.bind (typeOperand scope left) <;> rfl
      · cases calleeType <;> rfl

theorem otherType_rename (kind : String) (parts : List Expr)
    (seen : ∀ mark ∈ exprMarks parts, view.node mark.id) :
    otherType other right kind (renumberExprs moved.file parts) =
      (otherType scope left kind parts).rename moved := by
  unfold otherType
  split
  · rw [renumberExprs_eq_map, List.getLast?_map]
    cases last : parts.getLast? with
    | none => rfl
    | some part =>
        have marks : part.marks ⊆ exprMarks parts :=
          marks_subset_exprMarks (List.mem_of_getLast? last)
        simp only [Option.map_some, Option.bind_some]
        rw [typeOperand_rename scopes full same part fun mark marked => seen mark (marks marked)]
        cases typeOperand scope left part <;> rfl
  · rfl

theorem resolvedTypes_rename (type : Option TypeExpr) :
    type.map (resolveType other right.tables) =
      (type.map (resolveType scope left.tables)).map (TypeRef.rename moved) := by
  rw [Option.map_map]
  congr 1
  funext written
  exact resolveType_rename same.tables full.member scopes written

end State

omit scopes full in
theorem unaryType_rename (operator : String) (type : TypeRef) :
    unaryType operator (type.rename moved) = (unaryType operator type).rename moved := by
  unfold unaryType
  split
  · rw [TypeRef.isUnknown_rename]
    split <;> rfl
  · cases type <;> rfl
  · rfl
  · rfl

omit scopes full in
theorem specTypes_rename (names : List Ident) (declared : Option TypeRef) (values : List TypeRef) :
    specTypes (names.map (Ident.renumber moved.file)) (declared.map (TypeRef.rename moved))
      (values.map (TypeRef.rename moved)) =
        (specTypes names declared values).map (TypeRef.rename moved) := by
  unfold specTypes
  cases declared with
  | some type => simp [Function.comp_def]
  | none =>
      simp only [Option.map_none, List.length_map]
      split <;> simp [Function.comp_def]

/-! ## Expressions and statements -/

/-- Results that correspond. -/
abbrev TypesAlike (moved : Renaming) (type other : TypeRef) : Prop := other = type.rename moved

theorem resolveIdent_inStep (ident : Ident) :
    InStep moved view [ident.mark] (resolveIdent scope ident)
      (resolveIdent other (ident.renumber moved.file)) (TypesAlike moved) := by
  refine .get_bind fun before after same => ?_
  rw [Ident.name_renumber, lookup_rename scopes full same]
  cases lookup scope before ident.name with
  | none => exact .pure rfl
  | some symbol =>
      intro left right current clear
      have typed : view.typed symbol :=
        clear ident.mark List.mem_cons_self symbol Std.TreeMap.getElem?_insert_self
          Std.TreeMap.getElem?_insert_self
      exact (useRecorded_alongside ident.id symbol).bind
        (fun _ _ _ => .pure (same.tables.typeOf symbol typed)) left right current

omit scopes full in
theorem select_inStep (id : NodeId) (member : Ident) (chosen : Option SymbolId) :
    InStep moved view [⟨id, .selector member.id⟩, ⟨member.id, .member id⟩] (select id member chosen)
      (select (id.renumber moved.file) (member.renumber moved.file) (chosen.map moved.symbol))
        (TypesAlike moved) := by
  cases chosen with
  | none => exact .pure rfl
  | some symbol =>
      intro left right current clear
      have typed : view.typed symbol :=
        clear ⟨member.id, .member id⟩ (List.mem_cons_of_mem _ List.mem_cons_self) symbol
          Std.TreeMap.getElem?_insert_self Std.TreeMap.getElem?_insert_self
      have recorded : Alongside (Resolving.Matches moved view)
          (modifyTables fun tables => tables.recordSelection id member.id symbol)
          (modifyTables fun tables => tables.recordSelection (id.renumber moved.file)
            (member.id.renumber moved.file) (moved.symbol symbol)) :=
        modifyTables_alongside fun _ _ same => same.recordSelection id member.id symbol
      exact recorded.bind (fun _ _ _ => .get_bind fun before after same =>
        .pure (same.tables.typeOf symbol typed)) left right current

end Scope

variable {scope other : FileScope}

/-! ### What is left alone -/

section Leave

variable {file : Nat → Nat} (injective : Function.Injective file) {marks : List Mark} {id : NodeId}
  {types others : List TypeRef}
include injective

theorem resolveExprs_leave {exprs : List Expr} (unique : Mark.Unique (exprMarks exprs))
    (apart : Mark.Apart marks (exprMarks exprs)) :
    BothLeave file marks (resolveExprs scope exprs) (resolveExprs other (renumberExprs file exprs)) := by
  have renumbered := @resolveExprs_records other (renumberExprs file exprs)
    (exprMarks_renumber file exprs ▸ unique.renumber injective)
  rw [exprMarks_renumber] at renumbered
  exact .of_recording (resolveExprs_records exprs unique) renumbered injective apart

theorem resolveStmts_leave {stmts : List Stmt} (unique : Mark.Unique (stmtMarks stmts))
    (apart : Mark.Apart marks (stmtMarks stmts)) :
    BothLeave file marks (resolveStmts scope stmts) (resolveStmts other (renumberStmts file stmts)) := by
  have renumbered := @resolveStmts_records other (renumberStmts file stmts)
    (stmtMarks_renumber file stmts ▸ unique.renumber injective)
  rw [stmtMarks_renumber] at renumbered
  exact .of_recording (resolveStmts_records stmts unique) renumbered injective apart

theorem resolveTargets_leave {define : Bool} {targets : List Expr}
    (unique : Mark.Unique (exprMarks targets)) (apart : Mark.Apart marks (exprMarks targets)) :
    BothLeave file marks (resolveTargets scope id define targets types)
      (resolveTargets other (id.renumber file) define (renumberExprs file targets) others) := by
  have recording (scope : FileScope) (id : NodeId) (targets : List Expr) (types : List TypeRef)
      (unique : Mark.Unique (exprMarks targets)) :=
    @resolveTargets_records scope id define (.assign ⟨id, targets, [], define, default⟩) rfl targets
      unique (fun target member ident named => List.mem_map.mpr ⟨target, member, named⟩) types
  have renumbered := recording other (id.renumber file) (renumberExprs file targets) others
    (exprMarks_renumber file targets ▸ unique.renumber injective)
  rw [exprMarks_renumber] at renumbered
  exact .of_recording (recording scope id targets types unique) renumbered injective apart

theorem declareZip_leave {place : VarScope} {names : List Ident}
    (unique : Mark.Unique (names.map Ident.mark))
    (apart : Mark.Apart marks (names.map Ident.mark)) :
    BothLeave file marks
      ((names.zip types).forM fun item => declareLocal scope place item.2 (some id) item.1)
      (((names.map (Ident.renumber file)).zip others).forM fun item =>
        declareLocal other place item.2 (some (id.renumber file)) item.1) := by
  have recording (scope : FileScope) (id : NodeId) (names : List Ident) (types : List TypeRef)
      (unique : Mark.Unique (names.map Ident.mark)) :=
    @declareZip_records scope place (.declare ⟨id, names, none, [], default⟩) names types
      (fun ident member => List.mem_map_of_mem member) unique
  have renumbered := recording other (id.renumber file) (names.map (Ident.renumber file)) others
    (Ident.marks_renumber file names ▸ unique.renumber injective)
  rw [Ident.marks_renumber] at renumbered
  exact .of_recording (recording scope id names types unique) renumbered injective apart

end Leave

mutual

theorem resolveExpr_inStep (scopes : scope.Matches moved other) (full : view.Full) :
    ∀ expr : Expr, (∀ mark ∈ expr.marks, view.node mark.id) → Mark.Unique expr.marks →
    InStep moved view expr.marks (resolveExpr scope expr)
      (resolveExpr other (expr.renumber moved.file)) (TypesAlike moved)
  | .ident ident, _, _ => by
      rw [Expr.renumber, resolveExpr, resolveExpr]
      exact resolveIdent_inStep scopes full ident
  | .selector id base member span, seen, unique => by
      have apart : Mark.Apart base.marks [⟨id, .selector member.id⟩, ⟨member.id, .member id⟩] :=
        (Mark.unique_append.mp unique).2.2.symm
      rw [Expr.renumber, resolveExpr, resolveExpr]
      refine .get_bind fun before after same => ?_
      rw [packageBase?_rename scopes full same]
      cases packageBase? scope before base with
      | some found =>
          obtain ⟨ident, symbol, package⟩ := found
          refine .alongside_bind (useRecorded_alongside ident.id symbol) fun _ _ _ => ?_
          refine .get_bind fun left right same => ?_
          rw [Ident.name_renumber, same.tables.lookup package _ (full.member _ _)]
          exact (select_inStep id member _).mono (by simp [Expr.marks])
      | none =>
          have selecting (type another : TypeRef) (alike : TypesAlike moved type another) :
              InStep moved view [⟨id, .selector member.id⟩, ⟨member.id, .member id⟩]
                (do
                  select id member ((← get).tables.member? type member.name))
                (do
                  select (id.renumber moved.file) (member.renumber moved.file)
                    ((← get).tables.member? another (member.renumber moved.file).name))
                (TypesAlike moved) := by
            refine .get_bind fun left right same => ?_
            rw [alike, Ident.name_renumber, same.tables.member?_eq full]
            exact select_inStep id member _
          have both := (resolveExpr_inStep scopes full base
            (fun mark marked => seen mark (by simp [Expr.marks, marked])) unique.tail.tail).bind
              selecting fun type another => .of_recording (.get_bind fun _ => select_records id member _)
                (.get_bind fun _ => select_records _ (member.renumber moved.file) _)
                  moved.file_injective apart
          exact both.mono (by simp [Expr.marks])
  | .call id callee args span, seen, unique => by
      obtain ⟨unique_callee, unique_args, apart⟩ := Mark.unique_append.mp unique.tail
      have callee_seen (mark : Mark) (marked : mark ∈ callee.marks) : view.node mark.id :=
        seen mark (by simp [Expr.marks, marked])
      have args_seen (mark : Mark) (marked : mark ∈ exprMarks args) : view.node mark.id :=
        seen mark (by simp [Expr.marks, marked])
      rw [Expr.renumber, resolveExpr, resolveExpr]
      refine InStep.mono (.bind (resolveExpr_inStep scopes full callee callee_seen unique_callee)
        (fun type another alike => .bind_alongside
          (resolveExprs_inStep scopes full args args_seen unique_args).discard
          (fun _ _ _ => .get_bind fun before after same => .pure ?_)
          fun _ _ => .get_bind fun _ _ => .pure _ _)
        fun type another => (resolveExprs_leave moved.file_injective unique_args apart).discard.bind
          fun _ _ => .get_bind fun _ _ => .pure _ _) (List.subset_cons_self _ _)
      rw [alike]
      exact callType_rename scopes full same callee args type callee_seen args_seen
  | .literal id params result body bodySpan span, seen, unique => by
      obtain ⟨-, unique_body, -⟩ := Mark.unique_append.mp unique.tail
      have body_seen (mark : Mark) (marked : mark ∈ stmtMarks body) : view.node mark.id :=
        seen mark (by simp [Expr.marks, marked])
      rw [Expr.renumber, resolveExpr, resolveExpr]
      refine .alongside_bind pushScope_alongside fun _ _ _ => ?_
      refine .alongside_bind (declareParams_alongside scopes full params) fun _ _ _ => ?_
      refine InStep.mono (.bind_alongside (resolveStmts_inStep scopes full body body_seen unique_body)
        (fun _ _ _ => popScope_alongside.bind fun _ _ _ =>
          .get_bind fun before after same => .pure ?_)
        fun _ _ => .bind .popScope fun _ _ => .get_bind fun _ _ => .pure _ _) (by simp [Expr.marks])
      have types (type : TypeExpr) := resolveType_rename same.tables full.member scopes type
      rw [TypesAlike, ← TypeRef.ofResult_map, Option.map_map]
      congr 2
      funext type
      exact types type
  | .paren inner span, seen, unique => by
      rw [Expr.renumber, resolveExpr, resolveExpr]
      exact resolveExpr_inStep scopes full inner seen unique
  | .unary operator operand span, seen, unique => by
      rw [Expr.renumber, resolveExpr, resolveExpr]
      refine .bind_alongside (resolveExpr_inStep scopes full operand seen unique)
        (fun type another alike => .pure ?_) fun _ _ => .pure _ _
      rw [alike, TypesAlike, unaryType_rename]
  | .composite type elements span, seen, unique => by
      rw [Expr.renumber, resolveExpr, resolveExpr]
      refine .bind_alongside (resolveExprs_inStep scopes full elements seen unique).discard
        (fun _ _ _ => .get_bind fun before after same => .pure ?_)
        fun _ _ => .get_bind fun _ _ => .pure _ _
      exact resolveType_rename same.tables full.member scopes type
  | .other kind parts span, seen, unique => by
      rw [Expr.renumber, resolveExpr, resolveExpr]
      refine .bind_alongside (resolveExprs_inStep scopes full parts seen unique).discard
        (fun _ _ _ => .get_bind fun before after same => .pure ?_)
        fun _ _ => .get_bind fun _ _ => .pure _ _
      exact otherType_rename scopes full same kind parts seen

theorem resolveExprs_inStep (scopes : scope.Matches moved other) (full : view.Full) :
    ∀ exprs : List Expr, (∀ mark ∈ exprMarks exprs, view.node mark.id) →
    Mark.Unique (exprMarks exprs) → InStep moved view (exprMarks exprs) (resolveExprs scope exprs)
      (resolveExprs other (renumberExprs moved.file exprs))
      fun types others => others = types.map (TypeRef.rename moved)
  | [], _, _ => by
      rw [renumberExprs, resolveExprs, resolveExprs]
      exact .pure rfl
  | expr :: exprs, seen, unique => by
      rw [exprMarks, Mark.unique_append] at unique
      rw [exprMarks, List.forall_mem_append] at seen
      rw [renumberExprs, resolveExprs, resolveExprs, exprMarks]
      refine .bind (resolveExpr_inStep scopes full expr seen.1 unique.1)
        (fun type another alike => .bind_alongside
          (resolveExprs_inStep scopes full exprs seen.2 unique.2.1)
          (fun types others all => .pure ?_) fun _ _ => .pure _ _)
        fun _ _ => (resolveExprs_leave moved.file_injective unique.2.1 unique.2.2).bind
          fun _ _ => .pure _ _
      rw [alike, all, List.map_cons]

theorem resolveTargets_inStep (scopes : scope.Matches moved other) (full : view.Full)
    (id : NodeId) (define : Bool) : ∀ targets : List Expr,
    (∀ mark ∈ exprMarks targets, view.node mark.id) → Mark.Unique (exprMarks targets) →
    ∀ types : List TypeRef,
      InStep moved view (exprMarks targets) (resolveTargets scope id define targets types)
        (resolveTargets other (id.renumber moved.file) define (renumberExprs moved.file targets)
          (types.map (TypeRef.rename moved)))
  | [], _, _, types => by
      rw [renumberExprs, resolveTargets, resolveTargets]
      exact .pure trivial
  | target :: targets, seen, unique, types => by
      rw [exprMarks, Mark.unique_append] at unique
      rw [exprMarks, List.forall_mem_append] at seen
      have rest := resolveTargets_inStep scopes full id define targets seen.2 unique.2.1 types.tail
      rw [List.map_tail] at rest
      have later := rest.mono (List.subset_append_right target.marks (exprMarks targets))
      have whole := (resolveExpr_inStep scopes full target seen.1 unique.1).discard.bind
        (fun _ _ _ => rest)
        fun _ _ => resolveTargets_leave moved.file_injective unique.2.1 unique.2.2
      have head : (types.map (TypeRef.rename moved)).headD .unknown =
          (types.headD .unknown).rename moved := by
        cases types <;> rfl
      rw [renumberExprs, resolveTargets, resolveTargets, Expr.unparen_renumber, exprMarks]
      cases unparen_eq : target.unparen with
      | ident ident =>
          simp only [Expr.renumber]
          by_cases declares : (define && !ident.isBlank) = true
          · have also : (define && !(ident.renumber moved.file).isBlank) = true := declares
            rw [if_pos declares, if_pos also]
            refine .get_bind fun before after same => ?_
            rw [Ident.name_renumber, same.scopes.lookupLocal]
            cases before.scopes.lookupLocal ident.name with
            | some symbol =>
                exact .alongside_bind (useRecorded_alongside ident.id symbol) fun _ _ _ => later
            | none =>
                simp only [Option.map_none]
                rw [head]
                exact .alongside_bind (declareLocal_alongside scopes .local _ (some id) ident)
                  fun _ _ _ => later
          · have neither : ¬(define && !(ident.renumber moved.file).isBlank) = true := declares
            rw [if_neg declares, if_neg neither]
            exact whole
      | _ => exact whole

theorem resolveStmt_inStep (scopes : scope.Matches moved other) (full : view.Full) :
    ∀ stmt : Stmt, (∀ mark ∈ stmt.marks, view.node mark.id) → Mark.Unique stmt.marks →
    InStep moved view stmt.marks (resolveStmt scope stmt)
      (resolveStmt other (stmt.renumber moved.file))
  | .expr expr, seen, unique => by
      rw [Stmt.renumber, resolveStmt, resolveStmt]
      exact (resolveExpr_inStep scopes full expr seen unique).discard
  | .defer id callee args callSpan span, seen, unique
  | .go id callee args callSpan span, seen, unique => by
      obtain ⟨unique_callee, unique_args, apart⟩ := Mark.unique_append.mp unique.tail
      rw [Stmt.renumber, resolveStmt, resolveStmt]
      refine InStep.mono (.bind (resolveExpr_inStep scopes full callee
        (fun mark marked => seen mark (by simp [Stmt.marks, marked])) unique_callee).discard
        (fun _ _ _ => (resolveExprs_inStep scopes full args
          (fun mark marked => seen mark (by simp [Stmt.marks, marked])) unique_args).discard)
        fun _ _ => (resolveExprs_leave moved.file_injective unique_args apart).discard)
        (List.subset_cons_self _ _)
  | .return results span, seen, unique => by
      rw [Stmt.renumber, resolveStmt, resolveStmt]
      exact (resolveExprs_inStep scopes full results seen unique).discard
  | .assign id targets values define span, seen, unique => by
      obtain ⟨unique_targets, unique_values, apart⟩ := Mark.unique_append.mp unique.tail
      have targets_seen (mark : Mark) (marked : mark ∈ exprMarks targets) : view.node mark.id :=
        seen mark (by simp [Stmt.marks, marked])
      have values_seen (mark : Mark) (marked : mark ∈ exprMarks values) : view.node mark.id :=
        seen mark (by simp [Stmt.marks, marked])
      rw [Stmt.renumber, resolveStmt, resolveStmt]
      have marks : exprMarks values ++ exprMarks targets ⊆
          (Stmt.assign id targets values define span).marks := by
        simp [Stmt.marks]
      refine InStep.mono (.bind (resolveExprs_inStep scopes full values values_seen unique_values)
        (fun types others alike => ?_)
        fun _ _ => resolveTargets_leave moved.file_injective unique_targets apart.symm) marks
      have along := resolveTargets_inStep scopes full id define targets targets_seen unique_targets
        (if targets.length = values.length then types else [])
      have same_types : (if targets.length = values.length then types else []).map
          (TypeRef.rename moved) = if targets.length = values.length then others else [] := by
        split
        · exact alike.symm
        · rfl
      rw [same_types] at along
      simpa only [renumberExprs_eq_map, List.length_map] using along
  | .var id names type values span, seen, unique => by
      obtain ⟨unique_names, unique_values, apart⟩ := Mark.unique_append.mp unique.tail
      have values_seen (mark : Mark) (marked : mark ∈ exprMarks values) : view.node mark.id :=
        seen mark (by simp [Stmt.marks, marked])
      have leave (types others : List TypeRef) : BothLeave moved.file (exprMarks values)
          ((names.zip types).forM fun item => declareLocal scope .local item.2 (some id) item.1)
          (((names.map (Ident.renumber moved.file)).zip others).forM fun item =>
            declareLocal other .local item.2 (some (id.renumber moved.file)) item.1) :=
        declareZip_leave moved.file_injective unique_names apart.symm
      rw [Stmt.renumber, resolveStmt, resolveStmt]
      refine .get_bind fun before after same => ?_
      have declared := resolvedTypes_rename scopes full same type
      have marks : exprMarks values ⊆ (Stmt.var id names type values span).marks := by
        simp [Stmt.marks]
      refine InStep.mono (.bind_alongside
        (resolveExprs_inStep scopes full values values_seen unique_values)
        (fun types others alike => ?_) fun _ _ => leave _ _) marks
      have along (types : List TypeRef) : Alongside (Resolving.Matches moved view)
          ((names.zip types).forM fun item => declareLocal scope .local item.2 (some id) item.1)
          (((names.map (Ident.renumber moved.file)).zip (types.map (TypeRef.rename moved))).forM
            fun item =>
              declareLocal other .local item.2 (some (id.renumber moved.file)) item.1) := by
        rw [List.zip_map]
        exact .forM_map fun item _ => declareLocal_alongside scopes .local item.2 (some id) item.1
      rw [alike, declared, specTypes_rename]
      exact along _
  | .block body span, seen, unique | .compound kind body span, seen, unique => by
      rw [Stmt.renumber, resolveStmt, resolveStmt]
      refine .alongside_bind pushScope_alongside fun _ _ _ => ?_
      exact .bind_alongside (resolveStmts_inStep scopes full body seen unique)
        (fun _ _ _ => popScope_alongside) fun _ _ => .popScope

theorem resolveStmts_inStep (scopes : scope.Matches moved other) (full : view.Full) :
    ∀ stmts : List Stmt, (∀ mark ∈ stmtMarks stmts, view.node mark.id) →
    Mark.Unique (stmtMarks stmts) → InStep moved view (stmtMarks stmts) (resolveStmts scope stmts)
      (resolveStmts other (renumberStmts moved.file stmts))
  | [], _, _ => by
      rw [renumberStmts, resolveStmts, resolveStmts]
      exact .pure trivial
  | stmt :: stmts, seen, unique => by
      rw [stmtMarks, Mark.unique_append] at unique
      rw [stmtMarks, List.forall_mem_append] at seen
      rw [renumberStmts, resolveStmts, resolveStmts, stmtMarks]
      exact .bind (resolveStmt_inStep scopes full stmt seen.1 unique.1)
        (fun _ _ _ => resolveStmts_inStep scopes full stmts seen.2 unique.2.1)
        fun _ _ => resolveStmts_leave moved.file_injective unique.2.1 unique.2.2

end

/-! ## Declarations -/

/-- The types of package variables, one after the other. -/
theorem setTypes_alongside {names : List Ident} (seen : ∀ name ∈ names, view.node name.id)
    (types : List TypeRef) : Alongside (Resolving.Matches moved view)
      ((names.zip types).forM fun item => do
        match (← get).tables.objectOf item.1 with
        | some symbol => modifyTables fun tables => tables.setType symbol item.2
        | none => return ())
      (((names.map (Ident.renumber moved.file)).zip (types.map (TypeRef.rename moved))).forM
        fun item => do
          match (← get).tables.objectOf item.1 with
          | some symbol => modifyTables fun tables => tables.setType symbol item.2
          | none => return ()) := by
  rw [List.zip_map]
  refine .forM_map fun item member => .get_bind fun before after same => ?_
  simp only [Prod.map_fst, Prod.map_snd]
  rw [same.tables.objectOf_eq (seen item.1 (List.of_mem_zip member).1)]
  cases before.tables.objectOf item.1 with
  | none => exact .pure trivial
  | some symbol => exact modifyTables_alongside fun _ _ same => same.setType symbol item.2

theorem resolvePackageVars_inStep (scopes : scope.Matches moved other) (full : view.Full)
    (spec : ValueSpec) (seen : ∀ mark ∈ (Decl.var spec).marks, view.node mark.id)
    (unique : Mark.Unique (exprMarks spec.values)) :
    InStep moved view (exprMarks spec.values) (resolvePackageVars scope spec)
      (resolvePackageVars other (spec.renumber moved.file)) := by
  have values_seen (mark : Mark) (marked : mark ∈ exprMarks spec.values) : view.node mark.id :=
    seen mark (by simp [Decl.marks, marked])
  have names_seen (name : Ident) (member : name ∈ spec.names) : view.node name.id :=
    seen name.mark (by simp [Decl.marks, List.mem_map_of_mem member])
  refine .get_bind fun before after same => ?_
  have declared := resolvedTypes_rename scopes full same spec.type
  refine .bind_alongside (resolveExprs_inStep scopes full spec.values values_seen unique)
    (fun types others alike => ?_) fun _ _ => .of_naming (retypes_binds _) (retypes_binds _)
      moved.file_injective (Mark.apart_nil _)
  simp only [ValueSpec.renumber]
  rw [alike, declared, specTypes_rename]
  exact setTypes_alongside names_seen _

theorem resolvePackageVars_leave (file : Nat → Nat) (injective : Function.Injective file)
    (scope other : FileScope) {spec : ValueSpec} (unique : Mark.Unique (exprMarks spec.values))
    {marks : List Mark} (apart : Mark.Apart marks (exprMarks spec.values)) :
    BothLeave file marks (resolvePackageVars scope spec)
      (resolvePackageVars other (spec.renumber file)) := by
  have renumbered : (Decl.var (spec.renumber file)).recorded .values =
      (exprMarks spec.values).map (Mark.renumber file) := exprMarks_renumber file spec.values
  have naming := @resolvePackageVars_binds other (spec.renumber file)
    (renumbered ▸ unique.renumber injective)
  exact .of_naming (resolvePackageVars_binds unique) (renumbered ▸ naming) injective apart

theorem resolveBody_inStep (scopes : scope.Matches moved other) (full : view.Full)
    (decl : FuncDecl) (seen : ∀ mark ∈ decl.marks, view.node mark.id)
    (unique : Mark.Unique decl.innerMarks) :
    InStep moved view decl.innerMarks (resolveBody scope decl)
      (resolveBody other (decl.renumber moved.file)) := by
  unfold resolveBody
  cases body : decl.body with
  | none =>
      simp only [FuncDecl.renumber, body, Option.map_none]
      exact .pure trivial
  | some block =>
      have body_seen (mark : Mark) (marked : mark ∈ stmtMarks block.body) : view.node mark.id :=
        seen mark (by simp [FuncDecl.marks, FuncDecl.innerMarks, body, marked])
      have marks : stmtMarks block.body ⊆ decl.innerMarks := by
        simp [FuncDecl.innerMarks, body]
      have unique_body : Mark.Unique (stmtMarks block.body) := by
        simp only [FuncDecl.innerMarks, body] at unique
        exact (Mark.unique_append.mp (Mark.unique_append.mp unique).2.1).2.1
      have statements := (resolveStmts_inStep scopes full block.body body_seen unique_body).mono
        marks
      have rest := InStep.alongside_bind (declareParams_alongside scopes full decl.params)
        fun _ _ _ => statements.bind_alongside (fun _ _ _ => popScope_alongside)
          fun _ _ => .popScope
      have body_eq : (decl.renumber moved.file).body = some (block.renumber moved.file) := by
        simp [FuncDecl.renumber, body]
      simp only [body_eq]
      refine .alongside_bind pushScope_alongside fun _ _ _ => ?_
      rw [decl.receiver_renumber]
      cases decl.receiver.bind Receiver.name with
      | none => exact rest
      | some name =>
          refine .get_bind fun before after same => ?_
          have type : (after.tables.receiverType? (decl.renumber moved.file)).getD .unknown =
              ((before.tables.receiverType? decl).getD .unknown).rename moved := by
            have receivers := same.tables.receivers decl.id (seen _ List.mem_cons_self)
            rw [Tables.receiverType?, Tables.receiverType?]
            simp only [FuncDecl.renumber, receivers]
            cases before.tables.receivers[decl.id]? <;> rfl
          rw [type]
          exact .alongside_bind (declareLocal_alongside scopes .receiver _ none name)
            fun _ _ _ => rest

end Resolution

end Relock
