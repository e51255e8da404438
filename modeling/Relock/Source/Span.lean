/-!
# Source ranges

A `Span` is the range of source text that a construct covers. Its byte offsets decide which
constructs lie inside one another; its lines and columns are what a reader is shown.
-/

namespace Relock

/-- A point in a file: lines are counted from one, columns are bytes counted from zero. -/
structure Position where
  line : Nat
  column : Nat
deriving DecidableEq, Repr, Inhabited

/-- The range of source text from `startByte` up to, and without, `endByte`. -/
structure Span where
  startByte : Nat
  endByte : Nat
  startLine : Nat
  startColumn : Nat
  endLine : Nat
  endColumn : Nat
deriving DecidableEq, Repr

namespace Span

/-- The range of a construct that stands nowhere. -/
def zero : Span := ⟨0, 0, 0, 0, 0, 0⟩

instance : Inhabited Span := ⟨zero⟩

/-- Where the range begins. -/
def start (span : Span) : Position := ⟨span.startLine, span.startColumn⟩

/-- The other range begins and ends within this one. -/
def contains (outer inner : Span) : Bool :=
  outer.startByte ≤ inner.startByte && inner.endByte ≤ outer.endByte

/-- The line is one of the lines the range touches. -/
def containsLine (span : Span) (line : Nat) : Bool :=
  span.startLine ≤ line && line ≤ span.endLine

/-- The range begins before the end of `extent`. -/
def startsWithin (span extent : Span) : Bool :=
  span.startByte < extent.endByte

theorem contains_refl (span : Span) : span.contains span = true := by
  simp [contains]

theorem contains_trans {outer middle inner : Span}
    (outer_middle : outer.contains middle = true) (middle_inner : middle.contains inner = true) :
    outer.contains inner = true := by
  simp only [contains, Bool.and_eq_true, decide_eq_true_eq] at *
  omega

end Span

/-- A point in a named file, as diagnostics show it: both line and column are counted from one. -/
structure SourceLocation where
  file : String
  line : Nat
  column : Nat
deriving DecidableEq, Repr, Inhabited

namespace SourceLocation

/-- The beginning of a range in a file. -/
def ofSpan (file : String) (span : Span) : SourceLocation :=
  ⟨file, span.startLine, span.startColumn + 1⟩

/-- The form `file:line:column`. -/
def render (location : SourceLocation) : String :=
  location.file ++ ":" ++ toString location.line ++ ":" ++ toString location.column

end SourceLocation

end Relock
