import Relock.Config.Document
import Relock.Yaml.Token

/-!
# Nodes of YAML

A node is a scalar, a mapping, or a reference to another node. Nodes that can be referred to have a
number. Where several nodes have the same number, the last one in the text is meant, also by
references before it.
-/

namespace Relock

namespace Yaml

/-- What stands before a node. -/
structure Properties where
  /-- The number by which it can be referred to. -/
  number : Option Nat := none
  tag : Option Tag := none
deriving Repr, Inhabited

/-- A part of a document. -/
inductive Node where
  | scalar (properties : Properties) (style : ScalarStyle) (text : String)
  | mapping (properties : Properties) (entries : List (Node × Node))
  /-- The node of a number. -/
  | reference (number : Nat)
deriving Repr, Inhabited

namespace Node

/-- The scalar that stands for something missing. -/
def missing : Node := .scalar {} .plain ""

mutual

/-- The nodes with numbers, in the order of the text. -/
def numbered : Node → List (Nat × Node)
  | .scalar properties style text =>
      properties.number.toList.map (·, .scalar properties style text)
  | .mapping properties entries =>
      properties.number.toList.map (·, .mapping properties entries) ++ numberedEntries entries
  | .reference _ => []

/-- The nodes with numbers among the keys and values. -/
def numberedEntries : List (Node × Node) → List (Nat × Node)
  | [] => []
  | (key, value) :: entries => numbered key ++ numbered value ++ numberedEntries entries

end

/-- The value with its tag. -/
def withTag (properties : Properties) (value : Document) : Document :=
  match properties.tag with
  | some tag => .tagged tag value
  | none => value

/-- The scalar of a style. -/
def scalarDocument (text : String) : ScalarStyle → Document
  | .plain => .plain text
  | .literal => .literal text
  | .quoted | .folded => .text text

/-- The mapping with the given entries. Its keys are scalars, and no two of them are the same. -/
def mappingDocument? (entries : List (Document × Document)) : Option Document := do
  let entries ← entries.mapM fun (key, value) => do return (← key.text?, value)
  if (entries.map Prod.fst).Nodup then some (.mapping entries) else none

/-- The document of a node, in which references are replaced by the nodes of the table. A node that
is deeper than the bound has none, and so has one that refers to itself. -/
def document? (table : List (Nat × Node)) : (bound : Nat) → Node → Option Document
  | 0, _ => none
  | _ + 1, .scalar properties style text => some (withTag properties (scalarDocument text style))
  | bound + 1, .mapping properties entries => do
      let entries ← entries.mapM fun (key, value) => do
        return (← document? table bound key, ← document? table bound value)
      return withTag properties (← mappingDocument? entries)
  | bound + 1, .reference number => do document? table bound (← table.lookup number)

/-- More levels than a configuration has. -/
def levelBound : Nat := 8

/-- The document that a node stands for. -/
def toDocument? (node : Node) : Option Document :=
  document? node.numbered.reverse levelBound node

end Node

end Yaml

end Relock
