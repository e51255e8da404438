import Relock.Yaml.Token

/-!
# Tokens of a text

The tokens are found from left to right. A key is known as one only by the colon behind it, which
has to stand on the same line and within 1024 characters; until then it is a candidate. Mappings on
lines of their own begin and end as the columns of their keys go up and down.
-/

namespace Relock

namespace Yaml

/-- A token that is a key if a colon follows. -/
structure Candidate where
  /-- Nothing but a key can stand here. -/
  required : Bool
  /-- The number of tokens before it. -/
  position : Nat
  place : Place
deriving Repr, Inhabited

/-- The tokens so far, and what decides on those to come. -/
structure Lexer where
  cursor : Cursor
  tokens : Array Token := #[]
  /-- One column more than that of the keys of the innermost mapping on lines of its own. -/
  margin : Nat := 0
  /-- The margins of the mappings around it. -/
  outerMargins : List Nat := []
  /-- The candidate in the innermost braces. -/
  candidate : Option Candidate := none
  /-- The candidates around each of the open braces. -/
  outerCandidates : List (Option Candidate) := []
  /-- A key can begin here. -/
  keyAllowed : Bool := true
deriving Repr, Inhabited

namespace Lexer

/-- The cursor is between braces. -/
def inFlow (lexer : Lexer) : Bool := !lexer.outerCandidates.isEmpty

/-- The column of the cursor. -/
def column (lexer : Lexer) : Nat := lexer.cursor.place.column

/-- Add a token. -/
def emit (lexer : Lexer) (token : Token) : Lexer :=
  { lexer with tokens := lexer.tokens.push token }

/-- Move the cursor behind the next character. -/
def advance (lexer : Lexer) : Lexer := { lexer with cursor := lexer.cursor.skip 1 }

/-- Whether a key can begin at the next token, and the cursor there. Between tokens stand spaces,
line ends and comments; tabs only where no key can begin. -/
def skipGaps (flow : Bool) (comment keyAllowed : Bool) (place : Place) :
    List Char → Bool × Cursor
  | [] => (keyAllowed, ⟨place, []⟩)
  | char :: chars =>
      let next := place.after char
      if isBreak char then
        skipGaps flow false (keyAllowed || !flow) next chars
      else if comment || char == '#' then
        skipGaps flow true keyAllowed next chars
      else if char == ' ' || (char == '\t' && (flow || !keyAllowed)) ||
          (char == '\ufeff' && place.column == 0) then
        skipGaps flow false keyAllowed next chars
      else
        (keyAllowed, ⟨place, char :: chars⟩)

/-- Move the cursor to the next token. -/
def toNext (lexer : Lexer) : Lexer :=
  let (keyAllowed, cursor) :=
    skipGaps lexer.inFlow false lexer.keyAllowed lexer.cursor.place lexer.cursor.rest
  { lexer with keyAllowed, cursor }

/-- The distance within which the colon after a key has to stand. -/
def keyReach : Nat := 1024

/-- The candidate, as long as a colon at the place would make it a key. -/
def fresh? (place : Place) : Option Candidate → Option (Option Candidate)
  | none => some none
  | some candidate =>
      if candidate.place.line < place.line || candidate.place.index + keyReach < place.index then
        if candidate.required then none else some none
      else
        some (some candidate)

/-- Give up the candidates that are out of reach. -/
def forgetStale (lexer : Lexer) : Option Lexer := do
  return { lexer with
    candidate := ← fresh? lexer.cursor.place lexer.candidate
    outerCandidates := ← lexer.outerCandidates.mapM (fresh? lexer.cursor.place) }

/-- Give up the innermost candidate. -/
def dropCandidate (lexer : Lexer) : Option Lexer :=
  if lexer.candidate.any Candidate.required then none else some { lexer with candidate := none }

/-- Make the token at the cursor a candidate, if a key can begin here. -/
def propose (lexer : Lexer) : Option Lexer :=
  if lexer.keyAllowed then do
    let lexer ← lexer.dropCandidate
    return { lexer with candidate := some {
      required := !lexer.inFlow && lexer.margin == lexer.column + 1
      position := lexer.tokens.size
      place := lexer.cursor.place } }
  else
    some lexer

/-- Begin a mapping whose keys stand in the column, unless the innermost one reaches it. Its token
comes behind as many others as `position` says. -/
def openBlock (column position : Nat) (lexer : Lexer) : Lexer :=
  if lexer.inFlow || column < lexer.margin then
    lexer
  else
    { lexer with
      margin := column + 1
      outerMargins := lexer.margin :: lexer.outerMargins
      tokens := lexer.tokens.insertIdxIfInBounds position .blockStart }

/-- The number of margins beyond the limit, and those that are left. -/
def unwind (limit margin : Nat) : List Nat → Nat × Nat × List Nat
  | [] => (0, margin, [])
  | outer :: outers =>
      if limit < margin then
        let (count, left) := unwind limit outer outers
        (count + 1, left)
      else
        (0, margin, outer :: outers)

/-- End the mappings whose margins are beyond the limit. -/
def closeBlocks (limit : Nat) (lexer : Lexer) : Lexer :=
  if lexer.inFlow then
    lexer
  else
    let (count, margin, outerMargins) := unwind limit lexer.margin lexer.outerMargins
    { lexer with margin, outerMargins, tokens := lexer.tokens ++ Array.replicate count .blockEnd }

/-- Behind a token no key can begin. -/
def finishToken (token : Token) (cursor : Cursor) (lexer : Lexer) : Lexer :=
  { lexer.emit token with cursor, keyAllowed := false }

/-- A mark of a document, or a directive, ends all mappings. -/
def topLevel (token : Token) (cursor : Cursor) (lexer : Lexer) : Option Lexer := do
  return (← (lexer.closeBlocks 0).dropCandidate).finishToken token cursor

/-- An opening brace. -/
def openFlow (lexer : Lexer) : Option Lexer := do
  let lexer ← lexer.propose
  return { (lexer.emit .flowStart).advance with
    outerCandidates := lexer.candidate :: lexer.outerCandidates
    candidate := none
    keyAllowed := true }

/-- A closing brace. -/
def closeFlow (lexer : Lexer) : Option Lexer := do
  let lexer ← lexer.dropCandidate
  let lexer := { (lexer.emit .flowEnd).advance with keyAllowed := false }
  match lexer.outerCandidates with
  | [] => none
  | candidate :: outerCandidates => return { lexer with candidate, outerCandidates }

/-- A comma in braces. -/
def separator (lexer : Lexer) : Option Lexer := do
  return { ((← lexer.dropCandidate).emit .separator).advance with keyAllowed := true }

/-- A question mark before a key. -/
def key (lexer : Lexer) : Option Lexer := do
  if !lexer.inFlow && !lexer.keyAllowed then none
  let lexer ← (lexer.openBlock lexer.column lexer.tokens.size).dropCandidate
  return { (lexer.emit .key).advance with keyAllowed := !lexer.inFlow }

/-- A colon. It makes the candidate a key. -/
def value (lexer : Lexer) : Option Lexer :=
  match lexer.candidate with
  | some candidate =>
      let tokens := lexer.tokens.insertIdxIfInBounds candidate.position .key
      let lexer := { lexer with tokens, candidate := none, keyAllowed := false }
      let lexer := lexer.openBlock candidate.place.column candidate.position
      some (lexer.emit .value).advance
  | none =>
      if !lexer.inFlow && !lexer.keyAllowed then
        none
      else
        let lexer := lexer.openBlock lexer.column lexer.tokens.size
        some { (lexer.emit .value).advance with keyAllowed := !lexer.inFlow }

/-- A token that is a candidate. -/
def word (read : Cursor → Option (Token × Cursor)) (lexer : Lexer) : Option Lexer := do
  let lexer ← lexer.propose
  let (token, cursor) ← read lexer.cursor
  return lexer.finishToken token cursor

/-- A scalar in quotes. -/
def quotedWord (read : Place → Gap → List Char → Option (List Char × Cursor)) :
    Lexer → Option Lexer :=
  word fun cursor => do
    let inner := cursor.skip 1
    let (text, cursor) ← read inner.place {} inner.rest
    return (.scalar .quoted (String.ofList text), cursor)

/-- A plain scalar. If it ends behind a line end, a key can begin there. -/
def plainWord (lexer : Lexer) : Option Lexer := do
  let lexer ← lexer.propose
  let (text, broken, cursor) ←
    plainFrom lexer.inFlow lexer.margin lexer.cursor.place {} lexer.cursor.rest
  let token := .scalar .plain (String.ofList text)
  return { lexer.finishToken token cursor with keyAllowed := broken }

/-- A scalar on lines of its own. A key can begin behind it. -/
def literalWord (style : ScalarStyle) (lexer : Lexer) : Option Lexer := do
  let lexer ← lexer.dropCandidate
  let (text, cursor) ← literal? (style == .folded) lexer.margin (lexer.cursor.skip 1)
  return { lexer.emit (.scalar style (String.ofList text)) with cursor, keyAllowed := true }

/-- The token at the cursor, which stands before a character. -/
def token (lexer : Lexer) : Option Lexer :=
  match lexer.cursor.rest with
  | [] => none
  | char :: chars =>
      let behind := lexer.cursor.skip 1
      if lexer.column == 0 && char == '%' then do
        let (token, cursor) ← directive? behind
        lexer.topLevel token cursor
      else if lexer.cursor.place.meetsMark (char :: chars) then
        lexer.topLevel (if char = '-' then .documentStart else .documentEnd) (lexer.cursor.skip 3)
      else
        match char with
        | '\x7b' => lexer.openFlow
        | '\x7d' => lexer.closeFlow
        | ',' => lexer.separator
        | '*' => lexer.word fun _ => do
            let (name, cursor) ← name? behind
            return (.reference name, cursor)
        | '&' => lexer.word fun _ => do
            let (name, cursor) ← name? behind
            return (.anchor name, cursor)
        | '!' => lexer.word (tag? lexer.inFlow)
        | '"' => lexer.quotedWord (doubleQuoted 0)
        | '\'' => lexer.quotedWord singleQuoted
        | '|' => if lexer.inFlow then none else lexer.literalWord .literal
        | '>' => if lexer.inFlow then none else lexer.literalWord .folded
        | '?' => if lexer.inFlow || gapNext chars then lexer.key else lexer.plainWord
        | ':' => if lexer.inFlow || gapNext chars then lexer.value else lexer.plainWord
        | '-' => if gapNext chars then none else lexer.plainWord
        | '\t' | '[' | ']' | '%' | '@' | '\x60' => none
        | _ => lexer.plainWord

/-- The tokens up to the end of the text. There are fewer characters than `budget`. -/
def run : (budget : Nat) → Lexer → Option (List Token)
  | 0, _ => none
  | budget + 1, lexer => do
      let lexer ← lexer.toNext.forgetStale
      if lexer.cursor.rest.isEmpty then
        let lexer ← (lexer.closeBlocks 0).dropCandidate
        return lexer.tokens.toList
      else
        run budget (← (lexer.closeBlocks (lexer.column + 1)).token)

end Lexer

/-- The tokens of a text. -/
def tokens? (text : String) : Option (List Token) :=
  let chars := text.toList
  if chars.all isAllowed then
    Lexer.run (chars.length + 1) { cursor := { rest := unifyBreaks chars } }
  else
    none

end Yaml

end Relock
