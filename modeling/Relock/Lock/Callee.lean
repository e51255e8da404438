import Relock.Symbol.Table

/-!
# Callees

What a call runs, as far as it is known before the program runs. A callee has a key, by which its
declaration is found and by which a search notices that it has come back to where it was.
-/

namespace Relock

/-- The target of a call. -/
inductive Callee where
  | function (package : PackageId) (name : String)
  /-- A method, with the name its receiver type is shown by. -/
  | method (package : PackageId) (name : String) (receiver : TypeRef) (receiverName : String)
  /-- A variable or field that holds a function. -/
  | value (package : PackageId) (name : String) (symbol : SymbolId)
  /-- A closure literal, by the place where it begins. -/
  | literal (file offset line : Nat)
deriving DecidableEq, Repr, Inhabited

namespace Callee

/-- The callee that a closure literal is. -/
def ofClosure (literal : Closure) : Callee :=
  .literal literal.id.file literal.span.startByte literal.span.startLine

/-- A type without its outer pointers, in keys. -/
def typeKey (type : TypeRef) : String :=
  match type.base with
  | .named ref => toString ref.package ++ "." ++ ref.name
  | .basic name => name
  | .func | .funcOf _ => "func"
  | .pointer _ | .unknown => "?"

/-- The key of a callee. -/
def key : Callee → String
  | function package name => toString package ++ "::" ++ name
  | method package name receiver _ =>
      toString package ++ "::" ++ typeKey receiver ++ "::" ++ name
  | value _ name symbol => "value#" ++ toString symbol ++ "::" ++ name
  | literal file offset _ => "literal#" ++ toString file ++ ":" ++ toString offset

/-- The bare name. -/
def name : Callee → String
  | function _ name => name
  | method _ name _ _ => name
  | value _ name _ => name
  | literal _ _ _ => "func"

/-- The name that call stacks show. -/
def display : Callee → String
  | function _ name => name
  | method _ name _ receiverName => receiverName ++ "." ++ name
  | value _ name _ => name
  | literal _ _ line => "func literal (line " ++ toString line ++ ")"

/-- The package of a callee with a name. -/
def package? : Callee → Option PackageId
  | function package _ => some package
  | method package _ _ _ => some package
  | value package _ _ => some package
  | literal _ _ _ => none

/-- The receiver type of a method. -/
def receiver? : Callee → Option TypeRef
  | method _ _ receiver _ => some receiver
  | _ => none

/-- The callee is a method. -/
def isMethod (callee : Callee) : Bool := callee.receiver?.isSome

/-- The callee can have a declaration. -/
def isDeclared : Callee → Bool
  | function _ _ | method _ _ _ _ => true
  | _ => false

/-- The callees run the same code. -/
def sameTarget (left right : Callee) : Bool := left.key == right.key

/-- The name that a receiver type is shown by. -/
def receiverName (type : TypeRef) : String :=
  match type.named? with
  | some ref => ref.name
  | none => "?"

/-- The callee that a known entity is when it is called. Calls through interfaces may run anything
and have none, and neither have conversions, predeclared functions and packages. -/
def ofSymbol (tables : Tables) (id : SymbolId) (symbol : Symbol) : Option Callee :=
  match symbol.kind with
  | .func => some (.function symbol.package symbol.name)
  | .method receiver =>
      if tables.isInterface receiver then
        none
      else
        some (.method symbol.package symbol.name receiver (receiverName receiver))
  | .var _ | .field =>
      match symbol.type with
      | .func | .funcOf _ | .unknown => some (.value symbol.package symbol.name id)
      | _ => none
  | .interfaceMethod _ | .builtin | .typeName | .package _ => none

/-- The entity with a number as a callee. -/
def ofSymbolId? (tables : Tables) (id : SymbolId) : Option Callee :=
  (tables.symbol? id).bind (ofSymbol tables id)

/-- The callee that an expression denotes when it is called. -/
def ofExpr? (tables : Tables) (expr : Expr) : Option Callee :=
  match expr.unparen with
  | .ident ident => (tables.objectOf ident).bind (ofSymbolId? tables)
  | .selector id _ _ _ => (tables.selection id).bind (ofSymbolId? tables)
  | .literal id _ _ _ _ span => some (.literal id.file span.startByte span.startLine)
  | _ => none

/-- The callee of a call. -/
def ofCall? (tables : Tables) (call : Call) : Option Callee := ofExpr? tables call.callee

/-- The callee that calls of a declaration have. -/
def ofDecl? (tables : Tables) (decl : FuncDecl) : Option Callee :=
  match (tables.objectOf decl.name).bind tables.symbol? with
  | some symbol =>
      match symbol.kind with
      | .func => some (.function symbol.package decl.name.name)
      | .method _ =>
          (tables.receiverType? decl).map fun receiver =>
            .method symbol.package decl.name.name receiver (receiverName receiver)
      | _ => none
  | none => none

end Callee

end Relock
