import Relock.Config.Basic

/-!
# Errors of a run

Why a run of the checker fails. Analysis itself never fails: what it cannot make out is not
reported.
-/

namespace Relock

/-- Why a run fails. -/
inductive CheckError where
  /-- A file or directory cannot be read. -/
  | unreadable (reason : String)
  /-- A file cannot be parsed. -/
  | parse (path reason : String)
  /-- A file is parsed and still of no use. -/
  | frontend (reason : String)
  | config (error : ConfigError)
deriving DecidableEq, Repr, Inhabited

namespace CheckError

/-- What is wrong, in words. -/
def message : CheckError → String
  | unreadable reason => "IO error: " ++ reason
  | parse path reason => "Parse error in " ++ path ++ ": " ++ reason
  | frontend reason => "Front-end error: " ++ reason
  | config error => "Configuration error: " ++ error.message

/-- What the system says of a path that leads nowhere. -/
def notFound : String := "No such file or directory (os error 2)"

/-- What the system says of a directory in the place of a file. -/
def isDirectory : String := "Is a directory (os error 21)"

/-- What the system says of a file in the place of a directory. -/
def notDirectory : String := "Not a directory (os error 20)"

/-- What the system says of a path, or of a name in it, that is too long. -/
def tooLong : String := "File name too long (os error 36)"

/-- What is said of a path with a zero character, which no system can hold. -/
def holdsZero : String := "file name contained an unexpected NUL byte"

end CheckError

namespace ConfigError

/-- What is wrong, followed by what caused it. -/
def chain : ConfigError → List String
  | unreadable reason => ["IO error: " ++ reason, reason]
  | malformed reason => ["YAML parsing error: " ++ reason, reason]
  | error => [error.message]

end ConfigError

namespace CheckError

/-- What is wrong, followed by what caused it. -/
def chain : CheckError → List String
  | unreadable reason => ["IO error: " ++ reason, reason]
  | config error => ("Configuration error: " ++ error.message) :: error.chain
  | error => [error.message]

end CheckError

end Relock
