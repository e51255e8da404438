import Relock.Resolution.Body

/-!
# Whole programs

Resolution goes over the files of a program several times: packages and imports, names of members,
types, signatures, variables of packages, and last the bodies. The files are always taken in order,
which fixes the numbers of packages and entities.
-/

namespace Relock

namespace Resolution

/-- The files of a program with what they see, after all members of packages are declared. -/
def declareProgram (files : List File) : Building (List (FileScope × File)) := do
  let packages ← declarePackages [] files
  let scopes ← (packages.zip files).mapM fun (own, file) => declareImports own file
  let units := scopes.zip files
  units.forM fun (scope, file) => file.decls.forM (declareNames scope.package)
  units.forM fun (scope, file) => file.types.forM (completeType scope)
  units.forM fun (scope, file) => file.functions.forM (declareSignature scope)
  return units

/-- Resolve the values and bodies of files whose members are declared. -/
def resolveBodies (units : List (FileScope × File)) : Resolve Unit := do
  units.forM fun (scope, file) => file.vars.forM (resolvePackageVars scope)
  units.forM fun (scope, file) => file.functions.forM (resolveBody scope)

end Resolution

namespace Program

/-- All that resolution finds out about a program. -/
def resolve (program : Program) : Tables :=
  let (units, tables) := (Resolution.declareProgram program.files).run Predeclared.tables
  ((Resolution.resolveBodies units).run { tables }).2.tables

end Program

end Relock
