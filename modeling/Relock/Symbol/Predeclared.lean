import Relock.Symbol.Table

/-!
# Predeclared entities

The tables every program starts from: the universe of names that need no declaration, and the part
of package `sync` that lock analysis is about.
-/

namespace Relock

/-- A computation that builds tables. -/
abbrev Building := StateM Tables

/-- Add a package. -/
def newPackage (package : PackageInfo) : Building PackageId :=
  modifyGet fun tables => tables.addPackage package

/-- Add an entity. -/
def newSymbol (symbol : Symbol) : Building SymbolId :=
  modifyGet fun tables => tables.addSymbol symbol

/-- Add an entity as a member of its package. -/
def newMember (symbol : Symbol) : Building SymbolId :=
  modifyGet fun tables => tables.declare symbol.package symbol

namespace Predeclared

/-- The package whose members are known everywhere. -/
def universal : PackageId := 0

/-- The package of locks. -/
def sync : PackageId := 1

/-- The functions of the universe. -/
def functions : List String :=
  ["append", "cap", "clear", "close", "complex", "copy", "delete", "imag", "len", "make", "max",
    "min", "new", "panic", "print", "println", "real", "recover"]

/-- The types of the universe. -/
def types : List String :=
  ["any", "bool", "byte", "comparable", "complex64", "complex128", "error", "float32", "float64",
    "int", "int8", "int16", "int32", "int64", "rune", "string", "uint", "uint8", "uint16",
    "uint32", "uint64", "uintptr"]

/-- The constants of the universe and their types. -/
def constants : List (String × TypeRef) :=
  [("true", .basic "bool"), ("false", .basic "bool"), ("iota", .basic "int"), ("nil", .unknown)]

/-- The members of the universe in the order of their numbers. -/
def universeSymbols : List Symbol :=
  functions.map (fun name => { name, kind := .builtin, package := universal, type := .func }) ++
    types.map (fun name =>
      { name, kind := .typeName, package := universal, type := .basic name }) ++
    constants.map fun (name, type) => { name, kind := .builtin, package := universal, type }

/-- The interface of locks. -/
def locker : TypeRef := .named ⟨sync, "Locker"⟩

/-- The structures of package `sync`: the result type of each of their methods, if it has one. -/
def syncTypes : List (String × List (String × Option TypeRef)) :=
  [("Mutex", [("Lock", none), ("Unlock", none), ("TryLock", some (.basic "bool"))]),
    ("RWMutex",
      [("Lock", none), ("Unlock", none), ("RLock", none), ("RUnlock", none),
        ("TryLock", some (.basic "bool")), ("TryRLock", some (.basic "bool")),
        ("RLocker", some locker)]),
    ("WaitGroup", [("Add", none), ("Done", none), ("Wait", none)]),
    ("Once", [("Do", none)])]

/-- Add the name of a type of package `sync`. -/
def newType (name : String) : Building Unit :=
  discard (newMember
    { name, kind := .typeName, package := sync, type := .named ⟨sync, name⟩ })

/-- Add entities and give the scope of their names. -/
def newScope (symbols : List Symbol) : Building (Scope SymbolId) :=
  symbols.foldlM (fun scope symbol => return scope.insert symbol.name (← newSymbol symbol)) ∅

/-- Add the interface of locks, after its methods. -/
def installLocker : Building Unit := do
  let methods ← newScope (["Lock", "Unlock"].map fun name =>
    { name, kind := .interfaceMethod locker, package := sync, type := .func })
  newType "Locker"
  modify fun tables => tables.setNamed ⟨sync, "Locker"⟩ { underlying := .interface methods }

/-- Add a structure of package `sync`, before its methods. -/
def installStruct (name : String) (methods : List (String × Option TypeRef)) : Building Unit := do
  newType name
  let receiver := TypeRef.pointer (.named ⟨sync, name⟩)
  let methods ← newScope (methods.map fun (name, result) =>
    { name, kind := .method receiver, package := sync, type := .ofResult result })
  modify fun tables => tables.setNamed ⟨sync, name⟩ { underlying := .struct [], methods }

/-- Add the universe and package `sync`. -/
def install : Building Unit := do
  discard (newPackage { name := "", path := "" })
  universeSymbols.forM fun symbol => discard (newMember symbol)
  discard (newPackage { name := "sync", path := "sync" })
  installLocker
  syncTypes.forM fun (name, methods) => installStruct name methods

/-- The tables before any file has been looked at. -/
def tables : Tables := (install.run {}).2

end Predeclared

end Relock
