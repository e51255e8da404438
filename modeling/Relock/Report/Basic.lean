import Relock.Config.Basic
import Relock.Lock.Violation
import Relock.Text.Json
import Relock.Text.Quoted

/-!
# Reports

The violations of a program as a text for readers, or as JSON for other programs.
-/

namespace Relock

namespace SourceLocation

/-- A location as a JSON value. -/
def toJson (location : SourceLocation) : JsonValue :=
  .object [("file", .text location.file), ("line", .number location.line),
    ("column", .number location.column)]

end SourceLocation

namespace StackFrame

/-- A frame on a line of its own. -/
def render (frame : StackFrame) : String :=
  "\t" ++ quoted frame.calleeName ++ " at " ++ frame.location.render ++ "\n"

/-- A frame as a JSON value. -/
def toJson (frame : StackFrame) : JsonValue :=
  .object [("callee_name", .text frame.calleeName), ("location", frame.location.toJson)]

end StackFrame

namespace Violation

/-- A violation as a line, followed by a line for each frame of its stack. -/
def render (violation : Violation) : String :=
  violation.location.render ++ ": found recursive read lock call on " ++
    violation.lockDescription ++ " in " ++ violation.function ++ "\n" ++
    String.join (violation.callStack.map StackFrame.render)

/-- A violation as a JSON value. -/
def toJson (violation : Violation) : JsonValue :=
  .object [("kind", .text violation.kind.name), ("function", .text violation.function),
    ("location", violation.location.toJson),
    ("lock_description", .text violation.lockDescription),
    ("call_stack", .list (violation.callStack.map StackFrame.toJson))]

end Violation

namespace Report

/-- Violations as a text. -/
def text (violations : List Violation) : String := String.join (violations.map Violation.render)

/-- Violations as a JSON list. -/
def json (violations : List Violation) : String :=
  (JsonValue.list (violations.map Violation.toJson)).pretty ++ "\n"

/-- Violations in a format. -/
def render : OutputFormat → List Violation → String
  | .text => text
  | .json => json

end Report

end Relock
