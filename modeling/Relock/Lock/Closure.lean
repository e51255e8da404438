import Relock.Lock.Subject

/-!
# Closures behind variables

A call may run a closure literal that was bound to the called variable. A literal is followed
through variables that are bound once, in a binding with one value for each target, and through
further variables so bound, up to a limit.
-/

namespace Relock

namespace Subject

variable (subject : Subject)

/-- The value that a variable is bound to for good: its declaring binding has as many values as
targets, and no other assignment has the variable as a target. -/
def boundValue? (ident : Ident) : Option Expr := do
  let symbol ← subject.tables.objectOf ident
  if subject.isReassigned symbol then
    none
  else
    let id ← (subject.tables.symbol? symbol).bind Symbol.decl
    let binding ← subject.index.bindings[id]?
    if binding.names.length = binding.values.length then
      let position ← binding.names.findIdx? fun name =>
        name.bind subject.tables.objectOf == some symbol
      binding.values[position]?
    else
      none

/-- How many variables are followed at most. -/
def maxRenames : Nat := 16

/-- The closure literal that an expression is or, through at most `renames` variables, is bound
to. -/
def closureOf? : (renames : Nat) → Expr → Option Closure
  | renames, expr =>
      match renames, expr.unparen with
      | _, .literal id params result body bodySpan span =>
          some ⟨id, params, result, ⟨body, bodySpan⟩, span⟩
      | renames + 1, .ident ident => (subject.boundValue? ident).bind (closureOf? renames)
      | _, _ => none

/-- The closure literal that a call runs. -/
def closure? (call : Call) : Option Closure := subject.closureOf? maxRenames call.callee

end Subject

end Relock
