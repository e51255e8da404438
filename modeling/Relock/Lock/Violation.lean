import Relock.Source.Span

/-!
# Violations

The findings of lock analysis: a lock is acquired again while it is held.
-/

namespace Relock

/-- How a lock comes to be acquired again. -/
inductive ViolationKind where
  /-- In the same body. -/
  | direct
  /-- Through calls. -/
  | nested
deriving DecidableEq, Repr, Inhabited

namespace ViolationKind

/-- The name of a kind. -/
def name : ViolationKind → String
  | direct => "direct"
  | nested => "nested"

end ViolationKind

/-- A call on the way to the second acquisition. -/
structure StackFrame where
  calleeName : String
  location : SourceLocation
deriving DecidableEq, Repr, Inhabited

/-- A second acquisition of a held lock. -/
structure Violation where
  kind : ViolationKind
  /-- The function or closure that holds the lock. -/
  function : String
  /-- The call that acquires the lock again, itself or through others. -/
  location : SourceLocation
  /-- The lock as it is written. -/
  lockDescription : String
  /-- The calls to the second acquisition, the outermost first; none when it is direct. -/
  callStack : List StackFrame
deriving DecidableEq, Repr, Inhabited

namespace Violation

/-- The names of the callees, the outermost first. -/
def calleeNames (violation : Violation) : List String :=
  violation.callStack.map StackFrame.calleeName

end Violation

end Relock
