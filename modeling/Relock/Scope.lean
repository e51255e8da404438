import Std.Data.TreeMap

/-!
# Scopes

A stack of scopes, each of which gives meanings to names. A name means what the innermost scope that
declares it says, so inner declarations hide outer ones.
-/

namespace Relock

/-- A scope: a meaning for each of the names it declares. -/
abbrev Scope (α : Type) := Std.TreeMap String α

/-- Nested scopes, the innermost first. -/
structure ScopeStack (α : Type) where
  scopes : List (Scope α)

namespace ScopeStack

variable {α : Type}

/-- No scope is open. -/
def empty : ScopeStack α := ⟨[]⟩

instance : Inhabited (ScopeStack α) := ⟨empty⟩

/-- The number of open scopes. -/
def depth (stack : ScopeStack α) : Nat := stack.scopes.length

/-- No scope is open. -/
def isEmpty (stack : ScopeStack α) : Bool := stack.scopes.isEmpty

/-- Open a scope. -/
def push (stack : ScopeStack α) : ScopeStack α := ⟨∅ :: stack.scopes⟩

/-- The innermost scope. -/
def top? (stack : ScopeStack α) : Option (Scope α) := stack.scopes.head?

/-- Close the innermost scope. -/
def pop (stack : ScopeStack α) : ScopeStack α := ⟨stack.scopes.tail⟩

/-- The meaning of a name in the innermost scope. -/
def lookupLocal (stack : ScopeStack α) (name : String) : Option α :=
  stack.top?.bind fun scope => scope[name]?

/-- The meaning of a name in the innermost scope that declares it. -/
def lookup (stack : ScopeStack α) (name : String) : Option α :=
  stack.scopes.findSome? fun scope => scope[name]?

/-- Give a name a meaning in the innermost scope, which is opened when there is none. -/
def declare (stack : ScopeStack α) (name : String) (value : α) : ScopeStack α :=
  match stack.scopes with
  | [] => ⟨[(∅ : Scope α).insert name value]⟩
  | scope :: outer => ⟨scope.insert name value :: outer⟩

@[simp]
theorem pop_push (stack : ScopeStack α) : stack.push.pop = stack := rfl

@[simp]
theorem lookup_push (stack : ScopeStack α) (name : String) :
    stack.push.lookup name = stack.lookup name := by
  simp [push, lookup]

end ScopeStack

end Relock
