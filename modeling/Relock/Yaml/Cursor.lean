/-!
# Places in YAML text

A YAML text is read from a cursor, which knows the line and the column that it stands in. All line
ends count alike.
-/

namespace Relock

namespace Yaml

/-- The character may stand in a YAML text. -/
def isAllowed (char : Char) : Bool :=
  ['\t', '\n', '\r', '\u0085'].contains char || (0x20 ≤ char.toNat && char.toNat ≤ 0x7E) ||
    (0xA0 ≤ char.toNat && char.toNat ≤ 0xFFFD) || 0x10000 ≤ char.toNat

/-- The character ends a line. -/
def isBreak (char : Char) : Bool :=
  ['\n', '\r', '\u0085', '\u2028', '\u2029'].contains char

/-- The character is a space or a tab. -/
def isBlank (char : Char) : Bool := char == ' ' || char == '\t'

/-- The character separates words. -/
def isGap (char : Char) : Bool := isBlank char || isBreak char

/-- The next character, or the end of the text, separates words. -/
def gapNext (chars : List Char) : Bool := chars.head?.all isGap

/-- The text with a line feed for every line end that is a carriage return, a line feed after a
carriage return, or a next-line character. -/
def unifyBreaks : List Char → List Char
  | [] => []
  | '\r' :: '\n' :: chars => '\n' :: unifyBreaks chars
  | char :: chars =>
      (if char = '\r' ∨ char = '\u0085' then '\n' else char) :: unifyBreaks chars

/-- Three of the signs stand here as a word. -/
def isMark (sign : Char) : List Char → Bool
  | first :: second :: third :: rest =>
      first == sign && second == sign && third == sign && gapNext rest
  | _ => false

/-- A place in a text: how many characters are before it, in all, and its line and column. -/
structure Place where
  index : Nat := 0
  line : Nat := 0
  column : Nat := 0
deriving Repr, Inhabited

namespace Place

/-- The place after a character. -/
def after (place : Place) (char : Char) : Place :=
  if isBreak char then
    ⟨place.index + 1, place.line + 1, 0⟩
  else
    ⟨place.index + 1, place.line, place.column + 1⟩

/-- The beginning or the end of a document is marked here. -/
def meetsMark (place : Place) (chars : List Char) : Bool :=
  place.column == 0 && (isMark '-' chars || isMark '.' chars)

end Place

/-- A place and the characters after it. -/
structure Cursor where
  place : Place := {}
  rest : List Char
deriving Repr, Inhabited

namespace Cursor

/-- The cursor after the given number of characters, or at the end of the text. -/
def skip : Nat → Cursor → Cursor
  | count + 1, ⟨place, char :: rest⟩ => skip count ⟨place.after char, rest⟩
  | _, cursor => cursor

/-- The characters up to the first that fails the test, and the cursor there. -/
def span (test : Char → Bool) (cursor : Cursor) : List Char × Cursor :=
  let taken := cursor.rest.takeWhile test
  (taken, cursor.skip taken.length)

/-- The cursor at the first character that fails the test. -/
def skipWhile (test : Char → Bool) (cursor : Cursor) : Cursor := (cursor.span test).2

/-- The cursor at the end of the line, if nothing but blanks and a comment stands before it. -/
def lineEnd? (cursor : Cursor) : Option Cursor :=
  let cursor := cursor.skipWhile isBlank
  let cursor := if cursor.rest.head? == some '#' then cursor.skipWhile (!isBreak ·) else cursor
  if cursor.rest.head?.all isBreak then some cursor else none

end Cursor

end Yaml

end Relock
