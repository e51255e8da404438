import Relock.Resolution.Declaration

/-!
# Expressions and statements

Names in bodies refer to the innermost declaration in scope. Types are followed as far as names,
selectors, calls with one result, addresses, literals, conversions and type assertions go; the type
of anything else is unknown, and so are the members selected from it.
-/

namespace Relock

/-- The state of resolution inside bodies. -/
structure Resolving where
  tables : Tables
  scopes : ScopeStack SymbolId := .empty
deriving Inhabited

namespace Resolution

/-- A computation that resolves a part of a body. -/
abbrev Resolve := StateM Resolving

/-- Change the tables. -/
def modifyTables (change : Tables → Tables) : Resolve Unit :=
  modify fun state => { state with tables := change state.tables }

/-- Open a scope. -/
def pushScope : Resolve Unit :=
  modify fun state => { state with scopes := state.scopes.push }

/-- Close the innermost scope. -/
def popScope : Resolve Unit :=
  modify fun state => { state with scopes := state.scopes.pop }

/-- The entity a name refers to: in the open scopes, the package, the imports of the file, or the
universe. -/
def lookup (scope : FileScope) (state : Resolving) (name : String) : Option SymbolId :=
  (((state.scopes.lookup name).or (state.tables.lookup scope.package name)).or
    scope.imports[name]?).or (state.tables.lookup Predeclared.universal name)

/-- The type that an expression denotes in the place of a type. -/
def typeOperand (scope : FileScope) (state : Resolving) : Expr → Option TypeRef
  | .ident ident => (lookup scope state ident.name).bind state.tables.typeNamed?
  | .selector id _ _ _ => (state.tables.selection id).bind state.tables.typeNamed?
  | .paren inner _ => typeOperand scope state inner
  | .unary "*" operand _ => (typeOperand scope state operand).map .pointer
  | .other "pointer_type" (target :: _) _ => (typeOperand scope state target).map .pointer
  | _ => none

/-- Declare a variable in the innermost scope. -/
def declareLocal (scope : FileScope) (place : VarScope) (type : TypeRef) (decl : Option NodeId)
    (ident : Ident) : Resolve Unit :=
  unless ident.isBlank do
    modify fun state =>
      let (symbol, tables) := state.tables.addSymbol
        { name := ident.name, kind := .var place, package := scope.package, type, decl }
      { tables := tables.recordUse ident.id symbol
        scopes := state.scopes.declare ident.name symbol }

/-- Declare parameters. The type of a variadic one is unknown. -/
def declareParams (scope : FileScope) (params : List Param) : Resolve Unit :=
  params.forM fun param => do
    let tables := (← get).tables
    let type := if param.variadic then .unknown else resolveType scope tables param.type
    param.names.forM (declareLocal scope .param type none)

/-- Resolve a name. -/
def resolveIdent (scope : FileScope) (ident : Ident) : Resolve TypeRef := do
  let state ← get
  match lookup scope state ident.name with
  | some symbol =>
      modifyTables fun tables => tables.recordUse ident.id symbol
      return state.tables.typeOf symbol
  | none => return .unknown

/-- Record the member a selector selects, and give its type. -/
def select (id : NodeId) (member : Ident) : Option SymbolId → Resolve TypeRef
  | some symbol => do
      modifyTables fun tables => tables.recordSelection id member.id symbol
      return (← get).tables.typeOf symbol
  | none => return .unknown

/-- The base of a selector as the name of an imported package. -/
def packageBase? (scope : FileScope) (state : Resolving) (base : Expr) :
    Option (Ident × SymbolId × PackageId) :=
  match base.unparen with
  | .ident ident => do
      let symbol ← lookup scope state ident.name
      let package ← state.tables.importedPackage? symbol
      return (ident, symbol, package)
  | _ => none

/-- The type of an operator applied to an operand of a type. -/
def unaryType (operator : String) (type : TypeRef) : TypeRef :=
  match operator with
  | "&" => if type.isUnknown then .unknown else .pointer type
  | "*" =>
      match type with
      | .pointer target => target
      | _ => .unknown
  | "<-" => .unknown
  | _ => type

/-- The callee is the predeclared function that allocates. -/
def isAllocation (tables : Tables) (callee : Expr) : Bool :=
  match callee.unparen with
  | .ident ident =>
      match (tables.objectOf ident).bind tables.symbol? with
      | some symbol => symbol.kind == .builtin && symbol.name == "new"
      | none => false
  | _ => false

/-- The type of a call whose parts have been resolved: a conversion has the type it converts to, an
allocation has a pointer to the type it allocates, and any other call has the callee's sole
result. -/
def callType (scope : FileScope) (state : Resolving) (callee : Expr) (args : List Expr)
    (calleeType : TypeRef) : TypeRef :=
  match typeOperand scope state callee with
  | some type => type
  | none =>
      if isAllocation state.tables callee then
        match args.head?.bind (typeOperand scope state) with
        | some type => .pointer type
        | none => .unknown
      else
        match calleeType with
        | .funcOf result => result
        | _ => .unknown

/-- The type of an expression of a kind without a form of its own. -/
def otherType (scope : FileScope) (state : Resolving) (kind : String) (parts : List Expr) :
    TypeRef :=
  if kind = "type_assertion_expression" then
    (parts.getLast?.bind (typeOperand scope state)).getD .unknown
  else
    .unknown

/-- The types that a declaration gives to its names: the declared type, else the types of the values
when there is one for each name. -/
def specTypes (names : List Ident) (declared : Option TypeRef) (values : List TypeRef) :
    List TypeRef :=
  match declared with
  | some type => names.map fun _ => type
  | none => if values.length = names.length then values else names.map fun _ => .unknown

mutual

/-- Resolve an expression and give its type. -/
def resolveExpr (scope : FileScope) : Expr → Resolve TypeRef
  | .ident ident => resolveIdent scope ident
  | .selector id base member _ => do
      match packageBase? scope (← get) base with
      | some (ident, symbol, package) =>
          modifyTables fun tables => tables.recordUse ident.id symbol
          select id member ((← get).tables.lookup package member.name)
      | none =>
          let type ← resolveExpr scope base
          select id member ((← get).tables.member? type member.name)
  | .call _ callee args _ => do
      let type ← resolveExpr scope callee
      discard (resolveExprs scope args)
      return callType scope (← get) callee args type
  | .literal _ params result body _ _ => do
      pushScope
      declareParams scope params
      resolveStmts scope body
      popScope
      return .ofResult (result.map (resolveType scope (← get).tables))
  | .paren inner _ => resolveExpr scope inner
  | .unary operator operand _ => return unaryType operator (← resolveExpr scope operand)
  | .composite type elements _ => do
      discard (resolveExprs scope elements)
      return resolveType scope (← get).tables type
  | .other kind parts _ => do
      discard (resolveExprs scope parts)
      return otherType scope (← get) kind parts

/-- Resolve expressions in order and give their types. -/
def resolveExprs (scope : FileScope) : List Expr → Resolve (List TypeRef)
  | [] => return []
  | expr :: exprs => do
      let type ← resolveExpr scope expr
      return type :: (← resolveExprs scope exprs)

/-- Resolve the targets of an assignment. Of a definition, the names that are new in the innermost
scope are declared with the given types, one for each target. -/
def resolveTargets (scope : FileScope) (id : NodeId) (define : Bool) :
    List Expr → List TypeRef → Resolve Unit
  | [], _ => return ()
  | target :: targets, types => do
      match target.unparen with
      | .ident ident =>
          if define && !ident.isBlank then
            match (← get).scopes.lookupLocal ident.name with
            | some symbol => modifyTables fun tables => tables.recordUse ident.id symbol
            | none => declareLocal scope .local (types.headD .unknown) (some id) ident
          else
            discard (resolveExpr scope target)
      | _ => discard (resolveExpr scope target)
      resolveTargets scope id define targets types.tail

/-- Resolve a statement. -/
def resolveStmt (scope : FileScope) : Stmt → Resolve Unit
  | .expr expr => discard (resolveExpr scope expr)
  | .defer _ callee args _ _ => do
      discard (resolveExpr scope callee)
      discard (resolveExprs scope args)
  | .go _ callee args _ _ => do
      discard (resolveExpr scope callee)
      discard (resolveExprs scope args)
  | .return results _ => discard (resolveExprs scope results)
  | .assign id targets values define _ => do
      let types ← resolveExprs scope values
      resolveTargets scope id define targets
        (if targets.length = values.length then types else [])
  | .var id names type values _ => do
      let declared := type.map (resolveType scope (← get).tables)
      let types := specTypes names declared (← resolveExprs scope values)
      (names.zip types).forM fun (name, type) => declareLocal scope .local type (some id) name
  | .block body _ => do
      pushScope
      resolveStmts scope body
      popScope
  | .compound _ parts _ => do
      pushScope
      resolveStmts scope parts
      popScope

/-- Resolve statements in order. -/
def resolveStmts (scope : FileScope) : List Stmt → Resolve Unit
  | [] => return ()
  | stmt :: stmts => do
      resolveStmt scope stmt
      resolveStmts scope stmts

end

/-- Resolve a declaration of variables of a package: their values, then their types. -/
def resolvePackageVars (scope : FileScope) (spec : ValueSpec) : Resolve Unit := do
  let declared := spec.type.map (resolveType scope (← get).tables)
  let types := specTypes spec.names declared (← resolveExprs scope spec.values)
  (spec.names.zip types).forM fun (name, type) => do
    match (← get).tables.objectOf name with
    | some symbol => modifyTables fun tables => tables.setType symbol type
    | none => return ()

/-- Resolve the body of a function or method in a scope with its receiver and parameters. -/
def resolveBody (scope : FileScope) (decl : FuncDecl) : Resolve Unit := do
  match decl.body with
  | none => return ()
  | some block =>
      pushScope
      match decl.receiver.bind Receiver.name with
      | some name =>
          let type := ((← get).tables.receiverType? decl).getD .unknown
          declareLocal scope .receiver type none name
      | none => pure ()
      declareParams scope decl.params
      resolveStmts scope block.body
      popScope

end Resolution

end Relock
