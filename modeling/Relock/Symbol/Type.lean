/-!
# Types

Types as far as resolution knows them. A named type is identified by its package and its name, so
equal names in different packages are different types.
-/

namespace Relock

/-- The number of a package. -/
abbrev PackageId := Nat

/-- The identity of a named type. -/
structure NamedRef where
  package : PackageId
  name : String
deriving DecidableEq, Repr, Inhabited

namespace NamedRef

/-- Named types are ordered by package, then by name. -/
instance : Ord NamedRef :=
  ⟨compareLex (compareOn package) (compareOn name)⟩

instance : Std.TransOrd NamedRef :=
  inferInstanceAs (Std.TransCmp (compareLex (compareOn package) (compareOn name)))

instance : Std.LawfulEqOrd NamedRef where
  eq_of_compare {left right} same := by
    have parts : (compare left.package right.package).then (compare left.name right.name) = .eq :=
      same
    rw [Ordering.then_eq_eq, Std.LawfulEqOrd.compare_eq_iff_eq,
      Std.LawfulEqOrd.compare_eq_iff_eq] at parts
    cases left; cases right
    simp_all

end NamedRef

/-- A type, or what is known of it. -/
inductive TypeRef where
  | named (ref : NamedRef)
  | pointer (target : TypeRef)
  /-- A function without a known sole result. -/
  | func
  /-- A function with exactly one result. -/
  | funcOf (result : TypeRef)
  /-- A predeclared type. -/
  | basic (name : String)
  | unknown
deriving DecidableEq, Repr, Inhabited

namespace TypeRef

/-- The type of functions with the given sole result, if they have one. -/
def ofResult : Option TypeRef → TypeRef
  | some result => funcOf result
  | none => func

/-- The type below all outer pointers. -/
def base : TypeRef → TypeRef
  | pointer target => target.base
  | type => type

/-- The named type below all outer pointers. -/
def named? (type : TypeRef) : Option NamedRef :=
  match type.base with
  | named ref => some ref
  | _ => none

/-- Nothing is known of the type. -/
def isUnknown : TypeRef → Bool
  | unknown => true
  | _ => false

/-- The types are known and differ in outer pointers at most. -/
def sameBase (left right : TypeRef) : Bool :=
  !left.base.isUnknown && left.base == right.base

end TypeRef

end Relock
