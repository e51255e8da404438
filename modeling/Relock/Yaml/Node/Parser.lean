import Relock.Yaml.Node

/-!
# Nodes of tokens

The tokens of a text make up one document, which may begin and end with a mark. A missing key or
value is an empty plain scalar. A node may have a tag, and an anchor by which it can be referred to
behind it. The number of an anchor is that of the names before it, so an anchor that repeats a name
shares its number with the next one.
-/

namespace Relock

namespace Yaml

/-- The tokens that are left, the numbers of the anchors so far, and the meanings of handles. -/
structure Parsing where
  tokens : List Token
  anchors : List (String × Nat) := []
  handles : List (String × List UInt8) := []
deriving Inhabited

/-- A computation that takes tokens. -/
abbrev Parse := StateT Parsing Option

/-- The next token. -/
def peek : Parse (Option Token) := do return (← get).tokens.head?

/-- Take the next token. -/
def take : Parse (Option Token) := do
  let state ← get
  set { state with tokens := state.tokens.tail }
  return state.tokens.head?

/-- The next token is one of these. -/
def meets (tokens : List Token) : Parse Bool := do return (← peek).any tokens.contains

/-! ## Tags and anchors -/

/-- What the tags of common kinds of values begin with. -/
def commonStem : String := "tag:yaml.org,2002:"

/-- The meanings of handles that need no directive. -/
def commonHandles : List (String × List UInt8) :=
  [("!", "!".toUTF8.toList), ("!!", commonStem.toUTF8.toList)]

/-- The tag with the given bytes. One that is no text, or no name, says nothing. -/
def tagOf (bytes : List UInt8) : Tag :=
  match String.fromUTF8? ⟨bytes.toArray⟩ with
  | none => .other
  | some text =>
      if text = commonStem ++ "null" then .null
      else if text = commonStem ++ "int" then .integer
      else if text = commonStem ++ "bool" then .bool
      else
        match text.toList with
        | '!' :: name => .name (String.ofList name)
        | _ => .other

/-- The tag with the meaning of its handle. -/
def fullTag (handle : String) (rest : List UInt8) : Parse Tag := do
  if handle = "" then
    return tagOf rest
  else
    return tagOf ((← ((← get).handles ++ commonHandles).lookup handle) ++ rest)

/-- Give an anchor its number: as many names are before it, its own among them if it is not new. -/
def number (name : String) : Parse Nat := do
  let anchors := (← get).anchors
  let number := anchors.length
  let anchors := (name, number) :: anchors.filter (·.1 != name)
  modify fun state => { state with anchors }
  return number

/-- The tag that stands here, if there is one. -/
def tagHere : Parse (Option Tag) := do
  match ← peek with
  | some (.tag handle rest) =>
      discard take
      return some (← fullTag handle rest)
  | _ => return none

/-- The number of the anchor that stands here, if there is one. -/
def numberHere : Parse (Option Nat) := do
  match ← peek with
  | some (.anchor name) =>
      discard take
      return some (← number name)
  | _ => return none

/-- The anchor and the tag before a node, in either order. -/
def properties : Parse Properties := do
  match ← numberHere with
  | some number => return { number := some number, tag := ← tagHere }
  | none =>
      let tag ← tagHere
      return { number := ← numberHere, tag }

/-! ## Nodes -/

mutual

/-- A node. Outside braces it may be a mapping on lines of its own. -/
def node (block : Bool) : (budget : Nat) → Parse Node
  | 0 => failure
  | budget + 1 => do
      if let some (.reference name) ← peek then
        discard take
        return .reference (← (← get).anchors.lookup name)
      let properties ← properties
      match ← peek with
      | some (.scalar style text) =>
          discard take
          return .scalar properties style text
      | some .flowStart =>
          discard take
          return .mapping properties (← flowEntries true budget)
      | some .blockStart =>
          if !block then failure
          discard take
          return .mapping properties (← blockEntries budget)
      | _ =>
          if properties.number.isSome || properties.tag.isSome then
            return .scalar properties .plain ""
          else
            failure

/-- A node, unless it is missing before one of the given tokens. -/
def nodeUnless (block : Bool) (ends : List Token) : (budget : Nat) → Parse Node
  | 0 => failure
  | budget + 1 => do if ← meets ends then return .missing else node block budget

/-- The value after a key, if it has one. -/
def valueUnless (block : Bool) (ends : List Token) : (budget : Nat) → Parse Node
  | 0 => failure
  | budget + 1 => do
      if ← meets [.value] then
        discard take
        nodeUnless block ends budget
      else
        return .missing

/-- The entries of a mapping on lines of its own. -/
def blockEntries : (budget : Nat) → Parse (List (Node × Node))
  | 0 => failure
  | budget + 1 => do
      match ← take with
      | some .blockEnd => return []
      | some .key =>
          let ends := [.key, .value, .blockEnd]
          let key ← nodeUnless true ends budget
          let value ← valueUnless true ends budget
          return (key, value) :: (← blockEntries budget)
      | _ => failure

/-- The entries of a mapping in braces, with commas between them. -/
def flowEntries (first : Bool) : (budget : Nat) → Parse (List (Node × Node))
  | 0 => failure
  | budget + 1 => do
      if ← meets [.flowEnd] then
        discard take
        return []
      unless first do
        if (← take) != some .separator then failure
      if ← meets [.flowEnd] then
        discard take
        return []
      if ← meets [.key] then
        discard take
        let key ← nodeUnless false [.value, .separator, .flowEnd] budget
        let value ← valueUnless false [.separator, .flowEnd] budget
        return (key, value) :: (← flowEntries false budget)
      else
        let key ← node false budget
        return (key, .missing) :: (← flowEntries false budget)

end

/-! ## Documents -/

/-- The directives before a document. The version is said at most once, and so is what a handle
stands for. -/
def directives (versioned : Bool) : List Token → Parse (List Token)
  | .version major minor :: tokens =>
      if versioned || major != 1 || (minor != 1 && minor != 2) then failure
      else directives true tokens
  | .shorthand handle meaning :: tokens => do
      let state ← get
      if (state.handles.lookup handle).isSome then failure
      set { state with handles := (handle, meaning) :: state.handles }
      directives versioned tokens
  | tokens => return tokens

/-- The tokens begin a document with a mark. -/
def isMarked : List Token → Bool
  | .version .. :: _ | .shorthand .. :: _ | .documentStart :: _ => true
  | _ => false

/-- The node of a document whose tokens these are. -/
def content (tokens : List Token) : Parse Node := do
  modify fun state => { state with tokens }
  if tokens.isEmpty || isMarked tokens || tokens.head? == some .documentEnd then
    return .missing
  else
    node true (2 * tokens.length + 2)

/-- The node of the only document that the tokens make up. -/
def soleNode : Parse Node := do
  let tokens := (← get).tokens
  let node ←
    if isMarked tokens then do
      match ← directives false tokens with
      | .documentStart :: tokens => content tokens
      | _ => failure
    else if tokens.head? == some .documentEnd then failure
    else content tokens
  if (← get).tokens.any (· != .documentEnd) then failure
  return node

/-- The node that the tokens of a text make up. -/
def Node.ofTokens? (tokens : List Token) : Option Node := (soleNode.run { tokens }).map Prod.fst

end Yaml

end Relock
