import Relock.Text.Blank

/-!
# Configuration

Which operations acquire and release the lock, how far the search for nested acquisitions goes, and
how the findings are shown.
-/

namespace Relock

/-- The names of the lock operations. -/
structure LockConfig where
  acquire : String := "RLock"
  release : String := "RUnlock"
deriving DecidableEq, Repr, Inhabited

/-- How a held lock may be followed into a callee, besides through receivers and closures. -/
structure SearchConfig where
  /-- A lock reached through an argument is followed into the parameter. -/
  followArguments : Bool
  /-- A lock that belongs to a package is followed into every callee. -/
  followPackageLocks : Bool
deriving DecidableEq, Repr, Inhabited

/-- A choice of defaults. -/
inductive Preset where
  | conservative
  | balanced
deriving DecidableEq, Repr, Inhabited

namespace Preset

/-- The name of a preset. -/
def name : Preset → String
  | conservative => "conservative"
  | balanced => "balanced"

/-- The search of a preset: the conservative one follows receivers and closures only, the balanced
one follows all it can. -/
def search : Preset → SearchConfig
  | conservative => ⟨false, false⟩
  | balanced => ⟨true, true⟩

end Preset

/-- How findings are written. -/
inductive OutputFormat where
  | text
  | json
deriving DecidableEq, Repr, Inhabited

namespace OutputFormat

/-- The name of a format. -/
def name : OutputFormat → String
  | text => "text"
  | json => "json"

end OutputFormat

/-- How findings are shown, and whether test files are looked at. -/
structure ReportConfig where
  format : OutputFormat := .text
  includeTests : Bool := false
deriving DecidableEq, Repr, Inhabited

/-- A complete configuration. -/
structure Config where
  version : Nat := 1
  preset : Preset := .balanced
  lock : LockConfig := {}
  search : SearchConfig := Preset.balanced.search
  report : ReportConfig := {}
deriving DecidableEq, Repr

/-- Why a configuration is refused. -/
inductive ConfigError where
  /-- A field holds a value of no use. -/
  | invalid (field reason : String)
  | missingVersion
  | unsupportedVersion (found : Nat)
  | unknownPreset (name : String)
  /-- The file cannot be read. -/
  | unreadable (reason : String)
  /-- The text is no configuration; `reason` names the first fault. -/
  | malformed (reason : String)
deriving DecidableEq, Repr, Inhabited

namespace Config

instance : Inhabited Config := ⟨{}⟩

/-- The versions that can be read. -/
def supportedVersions : List Nat := [1]

end Config

namespace ConfigError

/-- What is wrong, in words. -/
def message : ConfigError → String
  | invalid field reason => "Invalid value for field '" ++ field ++ "': " ++ reason
  | missingVersion =>
      "Missing 'version' field in configuration file. Add 'version: 1' to the top of your YAML file."
  | unsupportedVersion found =>
      "Unsupported configuration version " ++ toString found ++ ". Supported versions: " ++
        ", ".intercalate (Config.supportedVersions.map toString)
  | unknownPreset name =>
      "Unknown preset '" ++ name ++ "'. Valid presets: conservative, balanced"
  | unreadable reason => "IO error: " ++ reason
  | malformed reason => "YAML parsing error: " ++ reason

end ConfigError

namespace LockConfig

/-- The operations have names, and different ones. -/
def validate (config : LockConfig) : Except ConfigError Unit :=
  if (stripBlanks config.acquire).isEmpty then
    throw (.invalid "lock.acquire" "must not be empty")
  else if (stripBlanks config.release).isEmpty then
    throw (.invalid "lock.release" "must not be empty")
  else if config.acquire = config.release then
    throw (.invalid "lock.release" ("must differ from lock.acquire ('" ++ config.acquire ++ "')"))
  else
    return ()

end LockConfig

namespace Config

/-- The version can be read and the lock operations are usable. -/
def validate (config : Config) : Except ConfigError Unit :=
  if supportedVersions.contains config.version then
    config.lock.validate
  else
    throw (.unsupportedVersion config.version)

end Config

end Relock
