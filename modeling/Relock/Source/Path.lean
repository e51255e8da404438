import Relock.Text.Segment

/-!
# File paths

A path is a sequence of segments between slashes. Empty segments and inner dots do not count; what
counts are the root, a leading dot, double dots and names, the components of the path. Paths are
ordered by their components.
-/

namespace Relock

/-- A part of a path that counts. Earlier constructors come first in the order of paths. -/
inductive PathComponent where
  | root
  | current
  | parent
  | name (text : String)
deriving DecidableEq, Repr, Inhabited

namespace PathComponent

/-- The order of components: the root, dots, double dots, then names. -/
def compare : PathComponent → PathComponent → Ordering
  | root, root => .eq
  | root, _ => .lt
  | _, root => .gt
  | current, current => .eq
  | current, _ => .lt
  | _, current => .gt
  | parent, parent => .eq
  | parent, _ => .lt
  | _, parent => .gt
  | name left, name right => Ord.compare left right

end PathComponent

namespace SourcePath

/-- The path begins at the root. -/
def isRooted (path : String) : Bool := path.toList.head? == some '/'

/-- The segments of a path after its root. -/
def segments (path : String) : List String :=
  if isRooted path then (splitText '/' path).drop 1 else splitText '/' path

/-- A segment after the first that counts. -/
def isInner (segment : String) : Bool := segment != "" && segment != "."

/-- The segments with a mark on those that count. A dot counts only at the beginning of a path
without a root. -/
def marked (path : String) : List (String × Bool) :=
  match segments path with
  | [] => []
  | first :: rest =>
      (first, isInner first || (first == "." && !isRooted path)) ::
        rest.map fun segment => (segment, isInner segment)

/-- The component that a counting segment stands for. -/
def component : String → PathComponent
  | "." => .current
  | ".." => .parent
  | segment => .name segment

/-- The components of a path. -/
def components (path : String) : List PathComponent :=
  let inner := (marked path).filterMap fun (segment, counts) =>
    if counts then some (component segment) else none
  if isRooted path then .root :: inner else inner

/-- The text of a path up to, and without, its last component: none when that is the root or there
is none. Segments that do not count are kept between others and dropped at the end. -/
def parent? (path : String) : Option String :=
  let uncounted : String × Bool → Bool := fun entry => !entry.2
  match (marked path).reverse.dropWhile uncounted with
  | [] => none
  | _ :: before =>
      let kept := (before.dropWhile uncounted).reverse.map (·.1)
      some ((if isRooted path then "/" else "") ++ "/".intercalate kept)

/-- The directory that holds a file. -/
def directory (path : String) : String :=
  match parent? path with
  | none | some "" => "."
  | some dir => dir

/-- The order of sequences of components, element by element. -/
def compareComponents : List PathComponent → List PathComponent → Ordering
  | [], [] => .eq
  | [], _ :: _ => .lt
  | _ :: _, [] => .gt
  | left :: lefts, right :: rights =>
      (left.compare right).then (compareComponents lefts rights)

/-- The order of paths. -/
def compare (left right : String) : Ordering :=
  compareComponents (components left) (components right)

end SourcePath

end Relock
