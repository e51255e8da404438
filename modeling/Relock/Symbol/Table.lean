import Relock.Program.Basic
import Relock.Scope
import Relock.Symbol.Type

/-!
# Symbol tables

What resolution knows of a program: its packages, every declared entity, the entity that each name
and each selector refers to, and the named types with their members. Entities are compared by
number and never by name, so that hidden and equally named ones stay apart.
-/

namespace Relock

/-- The number of a declared entity. -/
abbrev SymbolId := Nat

/-- The place of a variable. -/
inductive VarScope where
  | package
  | local
  | param
  | receiver
deriving DecidableEq, Repr, Inhabited

/-- What kind of entity a name stands for. -/
inductive SymbolKind where
  | var (scope : VarScope)
  | field
  | func
  /-- A method with a body, for values of the given type. -/
  | method (receiver : TypeRef)
  /-- A method that an interface asks for; a call of it may run any implementation. -/
  | interfaceMethod (interface : TypeRef)
  /-- A predeclared function or constant. -/
  | builtin
  | typeName
  /-- The name of an imported package. -/
  | package (target : PackageId)
deriving DecidableEq, Repr, Inhabited

/-- A declared entity. -/
structure Symbol where
  name : String
  kind : SymbolKind
  /-- The package that declares it. -/
  package : PackageId
  type : TypeRef
  /-- The statement that declares it, if it is a variable declared by one. -/
  decl : Option NodeId := none
deriving DecidableEq, Repr, Inhabited

namespace Symbol

/-- The entity is a variable of a package. -/
def isPackageVar (symbol : Symbol) : Bool := symbol.kind == .var .package

end Symbol

/-- A field of a structure. -/
structure FieldInfo where
  name : String
  symbol : SymbolId
  type : TypeRef
  /-- The members of an embedded field are members of the structure as well. -/
  embedded : Bool
deriving Repr, Inhabited

/-- What a named type is made of. -/
inductive Underlying where
  | struct (fields : List FieldInfo)
  | interface (methods : Scope SymbolId)
  | other (type : TypeRef)

instance : Inhabited Underlying := ⟨.other .unknown⟩

/-- A named type and the methods declared for it. -/
structure NamedType where
  underlying : Underlying
  methods : Scope SymbolId := ∅
deriving Inhabited

namespace NamedType

/-- The member of a name: a method, else a field, else a method that the interface asks for. -/
def member? (type : NamedType) (name : String) : Option SymbolId :=
  match type.methods[name]? with
  | some method => some method
  | none =>
      match type.underlying with
      | .struct fields => (fields.find? fun field => field.name == name).map FieldInfo.symbol
      | .interface methods => methods[name]?
      | .other _ => none

/-- The named types of the embedded fields. -/
def embedded (type : NamedType) : List NamedRef :=
  match type.underlying with
  | .struct fields => (fields.filter FieldInfo.embedded).filterMap fun field => field.type.named?
  | _ => []

end NamedType

/-- A package. -/
structure PackageInfo where
  name : String
  /-- The directory of a package with sources, or the import path of any other. -/
  path : String
  /-- There are no sources, and nothing is known of the members. -/
  external : Bool := false
  scope : Scope SymbolId := ∅
deriving Inhabited

/-- All that resolution knows of a program. -/
structure Tables where
  packages : Array PackageInfo := #[]
  symbols : Array Symbol := #[]
  /-- The entity that a name declares or refers to. -/
  uses : Std.TreeMap NodeId SymbolId := ∅
  /-- The member that a selector selects. -/
  selections : Std.TreeMap NodeId SymbolId := ∅
  /-- The receiver type of a method declaration. -/
  receivers : Std.TreeMap NodeId TypeRef := ∅
  named : Std.TreeMap NamedRef NamedType := ∅
deriving Inhabited

namespace Tables

/-! ## Questions -/

/-- The entity with a number. -/
def symbol? (tables : Tables) (id : SymbolId) : Option Symbol := tables.symbols[id]?

/-- The type of an entity. -/
def typeOf (tables : Tables) (id : SymbolId) : TypeRef :=
  match tables.symbol? id with
  | some symbol => symbol.type
  | none => .unknown

/-- The type that an entity is the name of. -/
def typeNamed? (tables : Tables) (id : SymbolId) : Option TypeRef :=
  match tables.symbol? id with
  | some symbol => if symbol.kind = .typeName then some symbol.type else none
  | none => none

/-- The package that an entity is the imported name of. -/
def importedPackage? (tables : Tables) (id : SymbolId) : Option PackageId :=
  match tables.symbol? id with
  | some ⟨_, .package target, _, _, _⟩ => some target
  | _ => none

/-- The entity that an occurrence of a name declares or refers to. -/
def objectOf (tables : Tables) (ident : Ident) : Option SymbolId := tables.uses[ident.id]?

/-- The member that the selector with a number selects. -/
def selection (tables : Tables) (id : NodeId) : Option SymbolId := tables.selections[id]?

/-- The receiver type of a method declaration. -/
def receiverType? (tables : Tables) (decl : FuncDecl) : Option TypeRef := tables.receivers[decl.id]?

/-- The first package with sources, or a predeclared one, of a name. -/
def packageNamed? (tables : Tables) (name : String) : Option PackageId :=
  tables.packages.findIdx? fun package => package.name == name && !package.external

/-- The member of a name in a package. -/
def lookup (tables : Tables) (package : PackageId) (name : String) : Option SymbolId :=
  match tables.packages[package]? with
  | some info => info.scope[name]?
  | none => none

/-- The type is a named interface, or a pointer to one. -/
def isInterface (tables : Tables) (type : TypeRef) : Bool :=
  match type.named?.bind fun ref => tables.named[ref]? with
  | some ⟨.interface _, _⟩ => true
  | _ => false

/-- The name of a package; empty when there is none of that number. -/
def packageName (tables : Tables) (id : PackageId) : String :=
  match tables.packages[id]? with
  | some package => package.name
  | none => ""

/-- A type as it is shown, with the name of its package before its own. -/
def typeString (tables : Tables) : TypeRef → String
  | .named ref =>
      match tables.packages[ref.package]? with
      | some package => if package.name.isEmpty then ref.name else package.name ++ "." ++ ref.name
      | none => "?." ++ ref.name
  | .pointer target => "*" ++ tables.typeString target
  | .func | .funcOf _ => "func"
  | .basic name => name
  | .unknown => "?"

/-- Look for a member among named types in order, each followed by the types embedded in it after
all that wait already. A type that has been looked at is taken out of the table, so none is looked
at twice; `budget` bounds the number of types to look at. -/
def searchMember (name : String) :
    (budget : Nat) → Std.TreeMap NamedRef NamedType → List NamedRef → Option SymbolId
  | 0, _, _ => none
  | budget + 1, table, waiting =>
      match waiting.dropWhile fun ref => !table.contains ref with
      | [] => none
      | ref :: waiting =>
          match table[ref]? with
          | none => none
          | some type =>
              match type.member? name with
              | some member => some member
              | none => searchMember name budget (table.erase ref) (waiting ++ type.embedded)

/-- The member that a name selects in values of a type: one of the type itself, else one of the
types embedded in it, the shallowest first. -/
def member? (tables : Tables) (type : TypeRef) (name : String) : Option SymbolId :=
  searchMember name (tables.named.size + 1) tables.named type.named?.toList

/-! ## Changes -/

/-- Add a package under the next number. -/
def addPackage (tables : Tables) (package : PackageInfo) : PackageId × Tables :=
  (tables.packages.size, { tables with packages := tables.packages.push package })

/-- Add an entity under the next number. -/
def addSymbol (tables : Tables) (symbol : Symbol) : SymbolId × Tables :=
  (tables.symbols.size, { tables with symbols := tables.symbols.push symbol })

/-- Give a name a meaning in a package; a later meaning replaces an earlier one. -/
def bind (tables : Tables) (package : PackageId) (name : String) (symbol : SymbolId) : Tables :=
  { tables with
    packages := tables.packages.modify package fun info =>
      { info with scope := info.scope.insert name symbol } }

/-- Add an entity as a member of a package. -/
def declare (tables : Tables) (package : PackageId) (symbol : Symbol) : SymbolId × Tables :=
  let (id, tables) := tables.addSymbol symbol
  (id, tables.bind package symbol.name id)

/-- Record what a name declares or refers to. -/
def recordUse (tables : Tables) (node : NodeId) (symbol : SymbolId) : Tables :=
  { tables with uses := tables.uses.insert node symbol }

/-- Record what a selector selects, also for the name it ends in. -/
def recordSelection (tables : Tables) (selector member : NodeId) (symbol : SymbolId) : Tables :=
  { tables with
    selections := tables.selections.insert selector symbol
    uses := tables.uses.insert member symbol }

/-- Record the receiver type of a method declaration. -/
def recordReceiver (tables : Tables) (decl : NodeId) (type : TypeRef) : Tables :=
  { tables with receivers := tables.receivers.insert decl type }

/-- Set the type of an entity. -/
def setType (tables : Tables) (id : SymbolId) (type : TypeRef) : Tables :=
  { tables with symbols := tables.symbols.modify id fun symbol => { symbol with type := type } }

/-- Set a named type. -/
def setNamed (tables : Tables) (ref : NamedRef) (type : NamedType) : Tables :=
  { tables with named := tables.named.insert ref type }

/-- Set what a named type is made of, if there is one of that name. -/
def setUnderlying (tables : Tables) (ref : NamedRef) (underlying : Underlying) : Tables :=
  { tables with
    named := tables.named.modify ref fun type => { type with underlying := underlying } }

/-- Add a method to a named type, if there is one of that name. -/
def addMethod (tables : Tables) (ref : NamedRef) (name : String) (method : SymbolId) : Tables :=
  { tables with
    named := tables.named.modify ref fun type =>
      { type with methods := type.methods.insert name method } }

end Tables

end Relock
