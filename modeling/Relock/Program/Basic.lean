import Relock.Source.Span
import Relock.Text.Segment

/-!
# Programs

The syntax of Go that lock analysis looks at: calls, selectors, closure literals, deferred calls,
returns and bindings. All other statements are `compound` and all other expressions are `other`,
which keep their parts in source order.

Every construct that later stages refer to carries a `NodeId`.
-/

namespace Relock

/-- The identity of a construct: the number of its file and its own number within the file. -/
structure NodeId where
  file : Nat
  index : Nat
deriving DecidableEq, Repr, Inhabited

namespace NodeId

/-- Node ids are ordered by file, then by number within the file. -/
instance : Ord NodeId :=
  ⟨compareLex (compareOn file) (compareOn index)⟩

instance : Std.TransOrd NodeId :=
  inferInstanceAs (Std.TransCmp (compareLex (compareOn file) (compareOn index)))

instance : Std.LawfulEqOrd NodeId where
  eq_of_compare {left right} same := by
    have parts : (compare left.file right.file).then (compare left.index right.index) = .eq := same
    rw [Ordering.then_eq_eq, Nat.compare_eq_eq, Nat.compare_eq_eq] at parts
    cases left; cases right
    simp_all

end NodeId

/-- An occurrence of a name. -/
structure Ident where
  id : NodeId
  name : String
  span : Span
deriving DecidableEq, Repr, Inhabited

namespace Ident

/-- The blank name declares nothing. -/
def isBlank (ident : Ident) : Bool := ident.name == "_"

end Ident

/-- A type as it is written. -/
inductive TypeExpr where
  /-- A type of the same package, or a predeclared one. -/
  | name (name : String)
  /-- A type of an imported package. -/
  | qualified (package name : String)
  | pointer (target : TypeExpr)
  /-- A function type without a sole result. -/
  | func
  /-- A function type with exactly one result. -/
  | funcOf (result : TypeExpr)
  /-- Any other type: slices, maps, channels, structures without a name. -/
  | other
deriving DecidableEq, Repr, Inhabited

namespace TypeExpr

/-- The type below all outer pointers. -/
def stripPointer : TypeExpr → TypeExpr
  | pointer target => target.stripPointer
  | type => type

/-- The type of functions with the given sole result, if they have one. -/
def ofResult : Option TypeExpr → TypeExpr
  | some result => funcOf result
  | none => func

end TypeExpr

/-- The parameters declared together with one type; `names` is empty for a parameter without a
name. -/
structure Param where
  names : List Ident
  type : TypeExpr
  variadic : Bool
deriving Repr, Inhabited

namespace Param

/-- The parameters one by one, `none` for each that has no name. -/
def idents (params : List Param) : List (Option Ident) :=
  params.flatMap fun param =>
    if param.names.isEmpty then [none] else param.names.map some

end Param

mutual

/-- An expression. -/
inductive Expr where
  | ident (ident : Ident)
  | selector (id : NodeId) (base : Expr) (member : Ident) (span : Span)
  | call (id : NodeId) (callee : Expr) (args : List Expr) (span : Span)
  /-- A closure literal. -/
  | literal (id : NodeId) (params : List Param) (result : Option TypeExpr)
      (body : List Stmt) (bodySpan : Span) (span : Span)
  | paren (inner : Expr) (span : Span)
  | unary (operator : String) (operand : Expr) (span : Span)
  | composite (type : TypeExpr) (elements : List Expr) (span : Span)
  /-- Any other expression, with the kind of construct it is. -/
  | other (kind : String) (parts : List Expr) (span : Span)

/-- A statement. -/
inductive Stmt where
  | expr (expr : Expr)
  /-- A deferred call: the parts of the call, its range, and the range of the statement. -/
  | defer (id : NodeId) (callee : Expr) (args : List Expr) (callSpan : Span) (span : Span)
  /-- A call in a new goroutine, with the same parts as a deferred one. -/
  | go (id : NodeId) (callee : Expr) (args : List Expr) (callSpan : Span) (span : Span)
  | return (results : List Expr) (span : Span)
  /-- An assignment, or with `define` a definition of the targets that are new in their scope. -/
  | assign (id : NodeId) (targets values : List Expr) (define : Bool) (span : Span)
  /-- A declaration of variables or constants. -/
  | var (id : NodeId) (names : List Ident) (type : Option TypeExpr) (values : List Expr)
      (span : Span)
  | block (body : List Stmt) (span : Span)
  /-- A statement with parts and a scope of its own, with the kind of construct it is. -/
  | compound (kind : String) (parts : List Stmt) (span : Span)

end

instance : Inhabited Expr := ⟨.ident default⟩

instance : Inhabited Stmt := ⟨.expr default⟩

namespace Expr

/-- The expression inside all outer parentheses. -/
def unparen : Expr → Expr
  | paren inner _ => inner.unparen
  | expr => expr

end Expr

/-- A call. -/
structure Call where
  id : NodeId
  callee : Expr
  args : List Expr
  span : Span
deriving Inhabited

/-- A sequence of statements in braces. -/
structure Block where
  body : List Stmt
  span : Span
deriving Inhabited

/-- A closure literal. -/
structure Closure where
  id : NodeId
  params : List Param
  result : Option TypeExpr
  body : Block
  span : Span
deriving Inhabited

/-- An assignment of values to targets. -/
structure Assignment where
  id : NodeId
  targets : List Expr
  values : List Expr
  /-- New targets are declared. -/
  define : Bool
  span : Span
deriving Inhabited

/-- A declaration of variables or constants. -/
structure ValueSpec where
  id : NodeId
  names : List Ident
  type : Option TypeExpr
  values : List Expr
  span : Span
deriving Inhabited

/-- The receiver of a method. -/
structure Receiver where
  name : Option Ident
  type : TypeExpr
deriving Repr, Inhabited

/-- A declaration of a function or, with a receiver, of a method. -/
structure FuncDecl where
  id : NodeId
  name : Ident
  receiver : Option Receiver
  params : List Param
  result : Option TypeExpr
  body : Option Block
  span : Span
deriving Inhabited

namespace FuncDecl

/-- A declaration with a receiver declares a method. -/
def isMethod (decl : FuncDecl) : Bool := decl.receiver.isSome

end FuncDecl

/-- The fields of a structure declared together; an embedded field has no names. -/
structure FieldDecl where
  names : List Ident
  type : TypeExpr
deriving Repr, Inhabited

namespace FieldDecl

/-- An embedded field is called by its type. -/
def isEmbedded (field : FieldDecl) : Bool := field.names.isEmpty

end FieldDecl

/-- The right-hand side of a type declaration. -/
inductive TypeBody where
  | struct (fields : List FieldDecl)
  | interface (methods : List Ident)
  | other (type : TypeExpr)
deriving Repr, Inhabited

/-- A declaration of a type. -/
structure TypeSpec where
  name : Ident
  body : TypeBody
  span : Span
deriving Repr, Inhabited

/-- A declaration at the top of a file. -/
inductive Decl where
  | func (decl : FuncDecl)
  | var (spec : ValueSpec)
  | type (spec : TypeSpec)
deriving Inhabited

/-- The import of a package. -/
structure Import where
  /-- The name given to the package in this file, when one is given. -/
  name : Option String
  path : String
deriving DecidableEq, Repr, Inhabited

namespace Import

/-- The part of an import path after its last slash. -/
def lastSegment (path : String) : String := lastPart '/' path

/-- The name by which the file refers to the package. -/
def localName (spec : Import) : String :=
  spec.name.getD (lastSegment spec.path)

end Import

/-- A file of a program. -/
structure File where
  id : Nat
  path : String
  /-- The name in the package clause. -/
  package : String
  /-- The directory that holds the file. -/
  dir : String
  imports : List Import
  decls : List Decl
deriving Inhabited

namespace File

/-- The functions and methods a file declares, in source order. -/
def functions (file : File) : List FuncDecl :=
  file.decls.filterMap fun
    | .func decl => some decl
    | _ => none

/-- The variables and constants a file declares at its top, in source order. -/
def vars (file : File) : List ValueSpec :=
  file.decls.filterMap fun
    | .var spec => some spec
    | _ => none

/-- The types a file declares, in source order. -/
def types (file : File) : List TypeSpec :=
  file.decls.filterMap fun
    | .type spec => some spec
    | _ => none

end File

/-- All files that are analysed together; the position of a file is its number. -/
structure Program where
  files : List File
deriving Inhabited

namespace Program

/-- The path of the file that holds a construct. -/
def pathOf (program : Program) (id : NodeId) : String :=
  match program.files[id.file]? with
  | some file => file.path
  | none => "<unknown>"

/-- The location of the beginning of a construct. -/
def locate (program : Program) (id : NodeId) (span : Span) : SourceLocation :=
  .ofSpan (program.pathOf id) span

/-- The functions and methods of all files, in file order. -/
def functions (program : Program) : List FuncDecl :=
  program.files.flatMap File.functions

end Program

end Relock
