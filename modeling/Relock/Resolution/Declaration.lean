import Relock.Resolution.Package

/-!
# Declarations of packages

The members of packages are declared in three rounds over all files, so that the order of
declarations does not matter: first the names, then what types are made of, then the signatures of
functions and methods.
-/

namespace Relock

namespace Resolution

/-- The type that a written type denotes. -/
def resolveType (scope : FileScope) (tables : Tables) : TypeExpr → TypeRef
  | .name name =>
      (((tables.lookup scope.package name).or (tables.lookup Predeclared.universal name)).bind
        tables.typeNamed?).getD .unknown
  | .qualified package name =>
      (((scope.imports[package]?.bind tables.importedPackage?).bind
        fun target => tables.lookup target name).bind tables.typeNamed?).getD .unknown
  | .pointer target =>
      match resolveType scope tables target with
      | .unknown => .unknown
      | type => .pointer type
  | .func => .func
  | .funcOf result => .funcOf (resolveType scope tables result)
  | .other => .unknown

/-- Add an entity that a name declares, as a member of its package. -/
def declareMember (ident : Ident) (symbol : Symbol) : Building Unit := do
  let id ← newMember symbol
  modify fun tables => tables.recordUse ident.id id

/-- Declare the names of one declaration. Methods are no members of packages. -/
def declareNames (package : PackageId) : Decl → Building Unit
  | .type spec => do
      let name := spec.name.name
      unless name.isEmpty do
        declareMember spec.name
          { name, kind := .typeName, package, type := .named ⟨package, name⟩ }
        modify fun tables => tables.setNamed ⟨package, name⟩ { underlying := .other .unknown }
  | .func decl =>
      unless decl.isMethod do
        declareMember decl.name { name := decl.name.name, kind := .func, package, type := .func }
  | .var spec =>
      spec.names.forM fun name =>
        unless name.isBlank do
          declareMember name
            { name := name.name, kind := .var .package, package, type := .unknown,
              decl := some spec.id }

/-- The name of an embedded field: that of its type, below pointers. -/
def embeddedName? (type : TypeExpr) : Option String :=
  match type.stripPointer with
  | .name name => some name
  | .qualified _ name => some name
  | _ => none

/-- Add a field. -/
def newField (package : PackageId) (name : String) (type : TypeRef) (embedded : Bool) :
    Building FieldInfo := do
  let symbol ← newSymbol { name, kind := .field, package, type }
  return { name, symbol, type, embedded }

/-- The fields declared together. An embedded field without a name is left out. -/
def declareFields (scope : FileScope) (decl : FieldDecl) : Building (List FieldInfo) := do
  let type := resolveType scope (← get) decl.type
  if decl.isEmbedded then
    match embeddedName? decl.type with
    | some name => return [← newField scope.package name type true]
    | none => return []
  else
    decl.names.mapM fun ident => do
      let field ← newField scope.package ident.name type false
      modify fun tables => tables.recordUse ident.id field.symbol
      return field

/-- Add the methods an interface asks for. -/
def declareInterface (interface : NamedRef) (names : List Ident) : Building (Scope SymbolId) :=
  names.foldlM (fun methods ident => do
    let symbol ← newSymbol
      { name := ident.name, kind := .interfaceMethod (.named interface),
        package := interface.package, type := .func }
    modify fun tables => tables.recordUse ident.id symbol
    return methods.insert ident.name symbol) ∅

/-- What a declared type is made of. -/
def declareUnderlying (scope : FileScope) (ref : NamedRef) : TypeBody → Building Underlying
  | .struct fields => return .struct (← fields.mapM (declareFields scope)).flatten
  | .interface names => return .interface (← declareInterface ref names)
  | .other type => return .other (resolveType scope (← get) type)

/-- Complete a declared type. -/
def completeType (scope : FileScope) (spec : TypeSpec) : Building Unit := do
  let ref : NamedRef := ⟨scope.package, spec.name.name⟩
  let underlying ← declareUnderlying scope ref spec.body
  modify fun tables => tables.setUnderlying ref underlying

/-- Declare a method: it belongs to the named type of its receiver. -/
def declareMethod (scope : FileScope) (decl : FuncDecl) (receiver type : TypeRef) :
    Building Unit := do
  modify fun tables => tables.recordReceiver decl.id receiver
  let name := decl.name.name
  let symbol ← newSymbol { name, kind := .method receiver, package := scope.package, type }
  modify fun tables => tables.recordUse decl.name.id symbol
  match receiver.named? with
  | some ref => modify fun tables => tables.addMethod ref name symbol
  | none => return ()

/-- Declare the signature of a function or method. -/
def declareSignature (scope : FileScope) (decl : FuncDecl) : Building Unit := do
  let tables ← get
  let type := TypeRef.ofResult (decl.result.map (resolveType scope tables))
  match decl.receiver with
  | some receiver => declareMethod scope decl (resolveType scope tables receiver.type) type
  | none =>
      match tables.objectOf decl.name with
      | some symbol => set (tables.setType symbol type)
      | none => return ()

end Resolution

end Relock
