import Relock.Symbol.Table

/-!
# Access paths

An access path says how a lock is reached: `s.cache.mu.RLock` is a root and the steps taken from it,
the last of which is the operation on the lock. Paths are compared by the entities their steps refer
to, never by names.
-/

namespace Relock

/-- A step of an access path. -/
structure PathNode where
  name : String
  symbol : SymbolId
  span : Span
deriving DecidableEq, Repr, Inhabited

namespace PathNode

/-- The step of a resolved name. -/
def ofIdent (ident : Ident) (symbol : SymbolId) : PathNode := ⟨ident.name, symbol, ident.span⟩

/-- The steps refer to the same entity. -/
def same (left right : PathNode) : Bool := left.symbol == right.symbol

end PathNode

/-- A chain of resolved steps from a root. -/
structure AccessPath where
  root : PathNode
  rest : List PathNode
deriving DecidableEq, Repr, Inhabited

namespace AccessPath

/-- The steps of a path, the root first. -/
def nodes (path : AccessPath) : List PathNode := path.root :: path.rest

/-- The path with the given steps, if there are any. -/
def ofNodes? : List PathNode → Option AccessPath
  | [] => none
  | root :: rest => some ⟨root, rest⟩

/-- The number of steps. -/
def length (path : AccessPath) : Nat := path.nodes.length

/-- The last step. -/
def last (path : AccessPath) : PathNode := path.rest.getLastD path.root

/-- The path with one more step. -/
def snoc (path : AccessPath) (node : PathNode) : AccessPath :=
  { path with rest := path.rest ++ [node] }

/-- The path that an expression spells: a name, or a selector whose base spells a path. There is
none when a step is anything else or refers to nothing known. -/
def ofExpr? (tables : Tables) : Expr → Option AccessPath
  | .ident ident => (tables.objectOf ident).map fun symbol => ⟨.ofIdent ident symbol, []⟩
  | .selector id base member _ =>
      match (tables.selection id).or (tables.objectOf member) with
      | some symbol => (ofExpr? tables base).map fun path => path.snoc (.ofIdent member symbol)
      | none => none
  | .paren inner _ => ofExpr? tables inner
  | _ => none

/-- Steps refer to the same entities, one by one, as far as both lists go. -/
def agree (left right : List PathNode) : Bool :=
  (left.zip right).all fun (left, right) => left.same right

/-- The paths have the same length and the same steps up to the last `offset`. With `offset` one
they operate on the same lock; with zero they perform the same operation as well. -/
def equal (left right : AccessPath) (offset : Nat) : Bool :=
  left.length == right.length &&
    agree (left.nodes.take (left.length - offset)) (right.nodes.take (left.length - offset))

/-- The path begins with the given steps. -/
def startsWith (path : AccessPath) (front : List PathNode) : Bool :=
  front.length ≤ path.length && agree path.nodes front

/-- The path after the given first steps, of which it keeps the last as its root. There must be
one, and there must be more to come. -/
def stripFront (path : AccessPath) (front : List PathNode) : Option AccessPath :=
  if front.isEmpty || path.length ≤ front.length || !path.startsWith front then
    none
  else
    ofNodes? (path.nodes.drop (front.length - 1))

/-- The path as seen from the receiver of a method call: `call` is the receiver followed by the
method, and the receiver must begin this path. -/
def suffix (path call : AccessPath) : Option AccessPath :=
  if call.length < 2 || path.length < call.length then
    none
  else
    path.stripFront call.nodes.dropLast

/-- The path from another root. -/
def withRoot (path : AccessPath) (root : PathNode) : AccessPath := { path with root }

/-- Steps separated by dots. -/
def dotted (nodes : List PathNode) : String := ".".intercalate (nodes.map PathNode.name)

/-- The whole path as it is written. -/
def describe (path : AccessPath) : String := dotted path.nodes

/-- The lock as it is written: the path without the operation, unless that is all there is. -/
def describeTarget (path : AccessPath) : String :=
  if path.rest.isEmpty then path.describe else dotted path.nodes.dropLast

@[simp]
theorem nodes_withRoot (path : AccessPath) (root : PathNode) :
    (path.withRoot root).nodes = root :: path.rest := rfl

@[simp]
theorem nodes_snoc (path : AccessPath) (node : PathNode) :
    (path.snoc node).nodes = path.nodes ++ [node] := rfl

end AccessPath

end Relock
