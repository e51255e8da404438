import Relock.Error
import Relock.Program.Reading.File

/-!
# Directories and sources

A listing of the files below the working directory, and the Go sources found in it.
-/

namespace Relock

/-- A file: its text, and its syntax tree if it is a source. -/
structure DiskFile where
  path : String
  text : String
  tree : Tree
deriving Inhabited

/-- The files below the working directory. A path that ends in a slash is that of an empty
directory. -/
structure Disk where
  files : List DiskFile
deriving Inhabited

namespace Disk

/-- The names on the way from the working directory, after dots and double dots are carried out. -/
def names (path : String) : List String :=
  (SourcePath.components path).foldl (fun names component =>
    match component with
    | .name name => names ++ [name]
    | .parent => names.dropLast
    | .root | .current => names) []

/-- The path ends in a slash, or in a dot after one, and so denotes a directory. -/
def endsInSlash (path : String) : Bool :=
  match path.toList.reverse with
  | '/' :: _ => true
  | '.' :: '/' :: _ => true
  | _ => false

/-- What a path leads to. -/
inductive Entry where
  | file (file : DiskFile)
  /-- A directory, by the names on the way to it. -/
  | directory (names : List String)
  /-- A directory above the working directory. -/
  | outside
deriving Inhabited

/-- What stands at the end of names on the way from the working directory. Of files listed twice the
last one counts. -/
def entryAt? (disk : Disk) (target : List String) : Option Entry :=
  match disk.files.reverse.find? fun file =>
      !endsInSlash file.path && names file.path == target with
  | some file => some (.file file)
  | none =>
      if target.isEmpty || disk.files.any fun file => target.isPrefixOf (names file.path) then
        some (.directory target)
      else
        none

/-- The number of bytes of the longest names. -/
def nameLimit : Nat := 255

/-- The number of bytes of the longest paths. -/
def pathLimit : Nat := 4095

/-- What a name in a directory leads to. Nothing is known of directories above the working
directory, and nothing is expected there. -/
def named (disk : Disk) (name : String) (directory : Option (List String)) :
    Except String Entry :=
  if nameLimit < name.utf8ByteSize then
    throw CheckError.tooLong
  else
    match directory.bind fun names => disk.entryAt? (names ++ [name]) with
    | some entry => return entry
    | none => throw CheckError.notFound

/-- What a component of a path leads to. Only directories lead on. -/
def step (disk : Disk) : Entry → PathComponent → Except String Entry
  | .file _, _ => throw CheckError.notDirectory
  | .directory names, .name name => disk.named name (some names)
  | .outside, .name name => disk.named name none
  | .directory names, .current => return .directory names
  | .directory names, .parent =>
      return if names.isEmpty then .outside else .directory names.dropLast
  | .directory _, .root | .outside, _ => return .outside

/-- What a path leads to from the working directory, or why it leads nowhere. -/
def entry (disk : Disk) (path : String) : Except String Entry :=
  if path.toList.contains '\x00' then
    throw CheckError.holdsZero
  else if pathLimit < path.utf8ByteSize then
    throw CheckError.tooLong
  else if path.isEmpty then
    throw CheckError.notFound
  else
    match (SourcePath.components path).foldlM disk.step (.directory []) with
    | .ok (.file file) =>
        if endsInSlash path then throw CheckError.notDirectory else return .file file
    | result => result

/-- The file at a path. -/
def read (disk : Disk) (path : String) : Except String DiskFile := do
  match ← disk.entry path with
  | .file file => return file
  | .directory _ | .outside => throw CheckError.isDirectory

/-! ## Sources -/

/-- The language of the sources. -/
def language : String := "go"

/-- Files with the extension are sources. -/
def isSourceExtension (extension : String) : Bool := extension == "go"

/-- Directories whose contents are no part of the program. -/
def isSkipped (name : String) : Bool :=
  ["vendor", "testdata", ".git"].contains name || (name.toList.head? == some '.' && name != ".")

/-- The text ends in the given one. -/
def endsWith (ending text : String) : Bool := ending.toList.isSuffixOf text.toList

/-- A file of the name is a source to look at; tests are so only on demand. -/
def isSource (includeTests : Bool) (name : String) : Bool :=
  endsWith ".go" name && (includeTests || !endsWith "_test.go" name)

/-- The way from a directory to a source in it, if the file is one and no directory between is
skipped. -/
def sourceBelow? (includeTests : Bool) (directory : List String) (file : DiskFile) :
    Option String :=
  let own := names file.path
  let below := own.drop directory.length
  match below.getLast? with
  | none => none
  | some name =>
      if directory.isPrefixOf own && !endsInSlash file.path && isSource includeTests name &&
          !below.dropLast.any isSkipped then
        some ("/".intercalate below)
      else
        none

/-- The sources at a root: a file is taken as it is, and a directory is searched. -/
def sourcesAt (disk : Disk) (includeTests : Bool) (root : String) :
    Except CheckError (List String) :=
  match disk.entry root with
  | .ok (.file _) => return [root]
  | .ok (.directory names) =>
      let stem := if root.toList.getLast? == some '/' then root else root ++ "/"
      return (disk.files.filterMap (sourceBelow? includeTests names)).map (stem ++ ·)
  | .ok .outside => return []
  | .error _ => throw (.unreadable (root ++ " does not exist"))

/-- The sources at all roots, in the order of paths and each once. -/
def discover (disk : Disk) (includeTests : Bool) (roots : List String) :
    Except CheckError (List String) := do
  let found ← roots.mapM (disk.sourcesAt includeTests)
  let sorted := found.flatten.mergeSort fun left right => (SourcePath.compare left right).isLE
  return sorted.eraseRepsBy fun left right => SourcePath.compare left right == .eq

end Disk

end Relock
