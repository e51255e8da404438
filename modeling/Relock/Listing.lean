import Relock.Config.Document
import Relock.Disk

/-!
# Listings

The files below a directory with their syntax trees, as a text. A file is listed by three headed
parts:

* `file`, followed by its path;
* `text`, followed by the number of lines of its text, and these lines;
* `tree`, followed by the number of nodes of its tree, and a line for each node in pre-order with
  its depth, the offsets where it begins and ends, its kind, its field and its flags. A dash stands
  for no field or flags; the flags are `a` for a node without a rule of its own and `x` for an extra
  one.
-/

namespace Relock

namespace Listing

/-- A natural number in decimal digits. -/
def number? (text : String) : Option Nat := Document.digitsValue 10 text.toList

/-- The number after a head. -/
def count? (head line : String) : Option Nat :=
  match splitText ' ' line with
  | [first, count] => if first = head then number? count else none
  | _ => none

/-- A node of a tree. -/
def row? (source : SourceText) (line : String) : Option Tree.Row :=
  match splitText ' ' line with
  | [depth, first, last, kind, field, flags] => do
      let first ← number? first
      let last ← number? last
      return {
        depth := ← number? depth
        label := {
          kind
          span := source.span first last
          text := source.slice first last
          field := if field = "-" then "" else field
          named := !flags.toList.contains 'a'
          extra := flags.toList.contains 'x'
        }
      }
  | _ => none

/-- The path after the head of a file. -/
def path? (line : String) : Option String :=
  if "file ".toList.isPrefixOf line.toList then some (String.ofList (line.toList.drop 5)) else none

/-- The first of the listed files, and the lines after it. -/
def file? : List String → Option (DiskFile × List String)
  | head :: size :: lines => do
      let path ← path? head
      let size ← count? "text" size
      let text := "\n".intercalate (lines.take size)
      let lines := lines.drop size
      let nodes ← count? "tree" (← lines.head?)
      let rows ← (lines.tail.take nodes).mapM (row? (SourceText.ofString text))
      return (⟨path, text, (Tree.ofRows rows).getD default⟩, lines.tail.drop nodes)
  | _ => none

/-- The listed files; each takes up at least one line. -/
def files? : (budget : Nat) → List String → Option (List DiskFile)
  | _, [] => some []
  | 0, _ => none
  | budget + 1, lines => do
      let (file, rest) ← file? lines
      return file :: (← files? budget rest)

/-- The files that lines list. -/
def read (lines : List String) : Option Disk := (files? lines.length lines).map Disk.mk

end Listing

end Relock
