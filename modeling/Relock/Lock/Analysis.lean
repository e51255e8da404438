import Relock.Lock.Tracker

/-!
# Analysis of programs

Every declaration is tracked, and after it the closures in it, each in an activation of its own.
-/

namespace Relock

/-- The order of locations: by file, line and column. -/
def SourceLocation.compare (left right : SourceLocation) : Ordering :=
  ((Ord.compare left.file right.file).then (Ord.compare left.line right.line)).then
    (Ord.compare left.column right.column)

namespace Subject

variable (subject : Subject)

/-- The name under which a declaration is tracked. -/
def label (decl : FuncDecl) : String :=
  match Callee.ofDecl? subject.tables decl with
  | some callee => callee.display
  | none => decl.name.name

/-- Track a closure under its name. -/
def trackClosure (closure : PendingClosure) : ActivationReport :=
  subject.track closure.name closure.literal.stream

/-- Track closures, then the closures found in them, and so on, for at most `depth` rounds. -/
def trackClosures : (depth : Nat) → List PendingClosure → List (PendingClosure × ActivationReport)
  | 0, _ => []
  | depth + 1, closures =>
      let tracked := closures.map fun closure => (closure, subject.trackClosure closure)
      if tracked.isEmpty then
        []
      else
        tracked ++ trackClosures depth (tracked.flatMap fun entry => entry.2.closures)

/-- The activations of a declaration: its own, and those of the closures in it. A closure lies
inside the one it is found in, so there are no more rounds than nodes. -/
def activations (decl : FuncDecl) :
    ActivationReport × List (PendingClosure × ActivationReport) :=
  let report := subject.track (subject.label decl) decl.stream
  (report, subject.trackClosures decl.stream.length report.closures)

/-- The violations in a declaration and in the closures in it. -/
def violationsIn (decl : FuncDecl) : List Violation :=
  let (report, closures) := subject.activations decl
  report.violations ++ closures.flatMap fun entry => entry.2.violations

/-- The violations in a program, ordered by location. -/
def violations : List Violation :=
  (subject.program.functions.flatMap subject.violationsIn).mergeSort
    fun left right => (left.location.compare right.location).isLE

end Subject

end Relock
