import Relock.Disk
import Relock.Lock.Analysis
import Relock.Report.Basic
import Relock.Yaml.Reader

/-!
# The command line

The options of the checker, and what a run with them prints.
-/

namespace Relock

/-- What the command line asks for. -/
structure Options where
  paths : List String := []
  config : Option String := none
  format : Option String := none
  preset : Option String := none
  includeTests : Bool := false
  verbose : Bool := false
deriving DecidableEq, Repr, Inhabited

/-- What a run prints, and its status: zero without violations, one with some, and two when it
fails. -/
structure Outcome where
  status : Nat
  output : String := ""
  errors : List String := []
deriving DecidableEq, Repr, Inhabited

namespace Options

/-- An option that takes a value. -/
inductive Field where
  | config
  | format
  | preset
deriving DecidableEq, Repr, Inhabited

/-- Give an option its value. None can be given twice, and a path cannot be empty. -/
def set (options : Options) (value : String) : Field → Option Options
  | .config =>
      if options.config.isSome || value.isEmpty then none
      else some { options with config := some value }
  | .format => if options.format.isSome then none else some { options with format := some value }
  | .preset => if options.preset.isSome then none else some { options with preset := some value }

/-- Ask for test files. -/
def setIncludeTests (options : Options) : Option Options :=
  if options.includeTests then none else some { options with includeTests := true }

/-- Ask for more to be told. -/
def setVerbose (options : Options) : Option Options :=
  if options.verbose then none else some { options with verbose := true }

/-- The argument is an option and not a value: it begins with a dash and goes on. -/
def isOption (arg : String) : Bool :=
  match arg.toList with
  | '-' :: _ :: _ => true
  | _ => false

/-- The option with a value that has a long name. -/
def longField : String → Option Field
  | "config" => some .config
  | "format" => some .format
  | "preset" => some .preset
  | _ => none

/-- The option with a value that has a short name. -/
def shortField : Char → Option Field
  | 'c' => some .config
  | 'f' => some .format
  | _ => none

/-- Short options in one argument. The first that takes a value takes what is left of the argument,
or else waits for the next one. -/
def short (options : Options) : List Char → Option (Options × Option Field)
  | [] => some (options, none)
  | 'v' :: letters => (options.setVerbose).bind fun options => options.short letters
  | letter :: letters =>
      match shortField letter, letters with
      | none, _ => none
      | some field, [] => some (options, some field)
      | some field, '=' :: value => (options.set (String.ofList value) field).map (·, none)
      | some field, value => (options.set (String.ofList value) field).map (·, none)

/-- A long option, with its value after an equals sign or in the next argument. -/
def long (options : Options) (text : List Char) : Option (Options × Option Field) :=
  let name := String.ofList (text.takeWhile (· != '='))
  match name, text.dropWhile (· != '=') with
  | "include-tests", [] => options.setIncludeTests.map (·, none)
  | "verbose", [] => options.setVerbose.map (·, none)
  | name, [] => (longField name).map fun field => (options, some field)
  | name, _ :: value =>
      (longField name).bind fun field => (options.set (String.ofList value) field).map (·, none)

/-- Read arguments. `waiting` is the option that takes the next argument as its value. -/
def read (options : Options) (waiting : Option Field) : List String → Option Options
  | [] => if waiting.isSome then none else some options
  | arg :: args =>
      match waiting with
      | some field =>
          if isOption arg then none
          else (options.set arg field).bind fun options => options.read none args
      | none =>
          match arg.toList with
          | ['-', '-'] => some { options with paths := options.paths ++ args }
          | '-' :: '-' :: text =>
              (options.long text).bind fun (options, waiting) => options.read waiting args
          | '-' :: letter :: letters =>
              (options.short (letter :: letters)).bind fun (options, waiting) =>
                options.read waiting args
          | _ => { options with paths := options.paths ++ [arg] }.read none args

/-- The options that arguments give, if they are well formed. -/
def parse (args : List String) : Option Options := ({} : Options).read none args

/-- The path to search for a path argument: `...` after a directory is understood. -/
def rootOf (path : String) : String :=
  let chars := path.toList
  let stem := if "/...".toList.isSuffixOf chars then
    String.ofList (chars.take (chars.length - 4)) else path
  if stem = "..." then "." else stem

/-- Where to search for sources; without path arguments, in the working directory. -/
def roots (options : Options) : List String :=
  (if options.paths.isEmpty then ["."] else options.paths).map rootOf

/-- A failure, told after what was tried. -/
def context {α : Type} (trying : String) (result : Except (List String) α) :
    Except (List String) α :=
  result.mapError (trying :: ·)

/-- The configuration at a path. -/
def loadFile (disk : Disk) (path : String) : Except ConfigError Config :=
  match disk.read path with
  | .ok file => Config.ofYaml file.text
  | .error reason => throw (.unreadable reason)

/-- The configuration: that of a file, or the default one, changed as the options say. -/
def loadConfig (options : Options) (disk : Disk) : Except (List String) Config := do
  let config ← match options.config with
    | some path =>
        context ("cannot load " ++ path) ((loadFile disk path).mapError ConfigError.chain)
    | none => pure {}
  let config ← match options.preset with
    | some name => do
        let preset ← (Preset.parse name).mapError ConfigError.chain
        pure { config with preset, search := preset.search }
    | none => pure config
  let config ← match options.format with
    | some name => do
        let format ← (OutputFormat.parse name).mapError ConfigError.chain
        pure { config with report := { config.report with format } }
    | none => pure config
  let config := if options.includeTests then
    { config with report := { config.report with includeTests := true } } else config
  config.validate.mapError ConfigError.chain
  return config

/-- The violations that a run finds, and their report. -/
def check (options : Options) (disk : Disk) : Except (List String) (List Violation × String) := do
  let config ← options.loadConfig disk
  let paths ← context "cannot collect Go sources"
    ((disk.discover config.report.includeTests options.roots).mapError CheckError.chain)
  let trees ← paths.mapM fun path =>
    context ("cannot read " ++ path) ((disk.read path).mapError fun reason =>
      (CheckError.unreadable reason).chain)
  let program := Program.ofTrees (paths.zip (trees.map DiskFile.tree))
  let violations := (Subject.ofProgram program config).violations
  return (violations, Report.render config.report.format violations)

end Options

/-- The name the checker goes by in its messages. -/
def commandName : String := "rlockcheck"

/-- A run of the checker with the given arguments. -/
def runCommand (args : List String) (disk : Disk) : Outcome :=
  match Options.parse args with
  | none => { status := 2 }
  | some options =>
      match options.check disk with
      | .ok (violations, output) => { status := if violations.isEmpty then 0 else 1, output }
      | .error causes => { status := 2, errors := [commandName ++ ": " ++ ": ".intercalate causes] }

end Relock
