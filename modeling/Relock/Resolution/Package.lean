import Relock.Symbol.Predeclared

/-!
# Packages and imports

The files of one directory with one package name form a package. An import refers to a package of
the program by the last segment of its path, to package `sync`, or to a package without sources.
-/

namespace Relock

/-- What a file sees beyond its own declarations. -/
structure FileScope where
  package : PackageId
  /-- The names under which the file imports packages. -/
  imports : Scope SymbolId := ∅
deriving Inhabited

namespace Resolution

/-- The package of each file; a directory and a package name that are new make a new package. -/
def declarePackages (known : List ((String × String) × PackageId)) :
    List File → Building (List PackageId)
  | [] => return []
  | file :: files => do
      match known.lookup (file.dir, file.package) with
      | some package => return package :: (← declarePackages known files)
      | none =>
          let package ← newPackage { name := file.package, path := file.dir }
          let known := ((file.dir, file.package), package) :: known
          return package :: (← declarePackages known files)

/-- The first package with sources that has a name, the importing package and the universe
excepted. -/
def sourcePackage? (tables : Tables) (own : PackageId) (name : String) : Option PackageId :=
  (tables.packages.toList.zipIdx.find? fun (package, id) =>
    !package.external && package.name == name && id != own && id != Predeclared.universal).map (·.2)

/-- The package without sources that has an import path. -/
def externalPackage? (tables : Tables) (path : String) : Option PackageId :=
  tables.packages.findIdx? fun package => package.external && package.path == path

/-- The package without sources that has an import path, new if need be. -/
def externalPackage (path : String) : Building PackageId := do
  match externalPackage? (← get) path with
  | some package => return package
  | none => newPackage { name := Import.lastSegment path, path, external := true }

/-- The package that a file of package `own` imports by a path. -/
def importTarget (own : PackageId) (path : String) : Building PackageId := do
  if path = "sync" then
    return Predeclared.sync
  match sourcePackage? (← get) own (Import.lastSegment path) with
  | some package => if package = Predeclared.sync then externalPackage path else return package
  | none => externalPackage path

/-- Add one import to the imports of a file. The names `_` and `.` import nothing to refer to. -/
def declareImport (own : PackageId) (imports : Scope SymbolId) (spec : Import) :
    Building (Scope SymbolId) := do
  let name := spec.localName
  if name = "_" ∨ name = "." then
    return imports
  let target ← importTarget own spec.path
  let symbol ← newSymbol { name, kind := .package target, package := own, type := .unknown }
  return imports.insert name symbol

/-- What a file of package `own` sees. -/
def declareImports (own : PackageId) (file : File) : Building FileScope :=
  return { package := own, imports := ← file.imports.foldlM (declareImport own) ∅ }

end Resolution

end Relock
