import Relock.Config.Basic
import Relock.Config.Document
import Relock.Text.Case

/-!
# Drafts of configurations

A configuration file says only what differs from its preset. The draft is what it says; completing
it fills in the rest.
-/

namespace Relock

/-- What a configuration file says. -/
structure ConfigDraft where
  version : Option Nat := none
  preset : Option Preset := none
  lock : Option LockConfig := none
  followArguments : Option Bool := none
  followPackageLocks : Option Bool := none
  report : Option ReportConfig := none
deriving Repr, Inhabited

namespace Preset

/-- The preset of a name. -/
def ofName? : String → Option Preset
  | "conservative" => some conservative
  | "balanced" => some balanced
  | _ => none

/-- The preset that a user asks for, in any letter case. -/
def parse (text : String) : Except ConfigError Preset :=
  match ofName? (toLower text) with
  | some preset => return preset
  | none => throw (.unknownPreset text)

end Preset

namespace OutputFormat

/-- The format of a name. -/
def ofName? : String → Option OutputFormat
  | "text" => some text
  | "json" => some json
  | _ => none

/-- The format that a user asks for, in any letter case. -/
def parse (text : String) : Except ConfigError OutputFormat :=
  let name := toLower text
  match ofName? name with
  | some format => return format
  | none =>
      throw (.invalid "report.format" ("unknown format '" ++ name ++ "', expected text or json"))

end OutputFormat

namespace ConfigDraft

/-- The value of an optional field of a record. -/
def optionalField {α : Type} (read : Document → Option α) : Option Document → Option (Option α)
  | some document => document.optional read
  | none => some none

/-- The value of a field of a record that has a default. -/
def defaultField {α : Type} (read : Document → Option α) (default : α) : Option Document → Option α
  | some document => read document
  | none => some default

/-- The lock operations, both of which must be given. -/
def lock? (document : Document) : Option LockConfig :=
  match document.record? ["acquire", "release"] with
  | some [some acquire, some release] => do return ⟨← acquire.text?, ← release.text?⟩
  | _ => none

/-- The search, as far as it is given. -/
def search? (document : Document) : Option (Option Bool × Option Bool) :=
  match document.record? ["follow_arguments", "follow_package_locks"] with
  | some [arguments, packageLocks] => do
      return (← optionalField Document.bool? arguments, ← optionalField Document.bool? packageLocks)
  | _ => none

/-- How findings are shown. -/
def report? (document : Document) : Option ReportConfig :=
  match document.record? ["format", "include_tests"] with
  | some [format, includeTests] => do
      let format ←
        defaultField (fun choice => choice.choice?.bind OutputFormat.ofName?) .text format
      return ⟨format, ← defaultField Document.bool? false includeTests⟩
  | _ => none

/-- The draft that a document holds. -/
def ofDocument? (document : Document) : Option ConfigDraft :=
  match document.record? ["version", "preset", "lock", "search", "report"] with
  | some [version, preset, lock, search, report] => do
      let version ← optionalField Document.natural? version
      let preset ← optionalField (fun choice => choice.choice?.bind Preset.ofName?) preset
      let lock ← optionalField lock? lock
      let search ← optionalField search? search
      let report ← optionalField report? report
      return {
        version, preset, lock, report
        followArguments := search.bind (·.1)
        followPackageLocks := search.bind (·.2)
      }
  | _ => none

/-- The configuration that a draft stands for. The version must be given. -/
def complete (draft : ConfigDraft) : Except ConfigError Config :=
  match draft.version with
  | none => throw .missingVersion
  | some version =>
      let preset := draft.preset.getD .balanced
      return {
        version, preset
        lock := draft.lock.getD {}
        search := {
          followArguments := draft.followArguments.getD preset.search.followArguments
          followPackageLocks := draft.followPackageLocks.getD preset.search.followPackageLocks
        }
        report := draft.report.getD {}
      }

end ConfigDraft

namespace Config

/-- The valid configuration that a document holds. -/
def ofDocument (document : Document) : Except ConfigError Config := do
  match ConfigDraft.ofDocument? document with
  | none => throw (.malformed "the document is no configuration")
  | some draft =>
      let config ← draft.complete
      config.validate
      return config

end Config

end Relock
