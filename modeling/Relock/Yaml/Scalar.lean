import Relock.Config.Document
import Relock.Yaml.Cursor

/-!
# Scalars of YAML

A scalar in quotes ends with its quote; in double quotes it may hold escapes. A plain scalar ends
where its surroundings go on. A line end between two words counts as a space, and each empty line
after it as a line end.
-/

namespace Relock

namespace Yaml

/-- What separates two words of a scalar. -/
structure Gap where
  /-- The gap follows a line end that was escaped. -/
  joined : Bool := false
  /-- The blanks before the first line end. -/
  blanks : List Char := []
  /-- The line ends. -/
  breaks : List Char := []
deriving Repr, Inhabited

namespace Gap

/-- The gap and a further character of it. Blanks count only before the first line end. -/
def add (gap : Gap) (char : Char) : Gap :=
  if isBreak char then { gap with breaks := gap.breaks ++ [char] }
  else if gap.joined || !gap.breaks.isEmpty then gap
  else { gap with blanks := gap.blanks ++ [char] }

/-- The gap has a line end. -/
def isBroken (gap : Gap) : Bool := !gap.breaks.isEmpty

/-- There is no gap. -/
def isEmpty (gap : Gap) : Bool := gap.blanks.isEmpty && gap.breaks.isEmpty

/-- What the gap stands for. The first line end is a space if it is alone, and nothing before
others. -/
def text (gap : Gap) : List Char :=
  if gap.joined then
    gap.breaks
  else
    match gap.breaks with
    | [] => gap.blanks
    | ['\n'] => [' ']
    | '\n' :: breaks => breaks
    | breaks => breaks

end Gap

/-- The character that a letter after a backslash stands for. -/
def escapeOf : Char → Option Char
  | '0' => some '\x00'
  | 'a' => some '\x07'
  | 'b' => some '\x08'
  | 't' | '\t' => some '\t'
  | 'n' => some '\n'
  | 'v' => some '\x0b'
  | 'f' => some '\x0c'
  | 'r' => some '\r'
  | 'e' => some '\x1b'
  | ' ' => some ' '
  | '"' => some '"'
  | '/' => some '/'
  | '\\' => some '\\'
  | 'N' => some '\u0085'
  | '_' => some '\u00a0'
  | 'L' => some '\u2028'
  | 'P' => some '\u2029'
  | _ => none

/-- The number of digits after a backslash and a letter. -/
def escapeWidth : Char → Option Nat
  | 'x' => some 2
  | 'u' => some 4
  | 'U' => some 8
  | _ => none

/-- The character with the code point that the digits denote. -/
def codePoint? (width : Nat) (digits : List Char) : Option Char :=
  if digits.length < width then
    none
  else
    (Document.digitsValue 16 (digits.take width)).bind fun value =>
      if value.isValidChar then some (Char.ofNat value) else none

/-- The character that the text after a backslash stands for, and the length of that text. -/
def escape? : List Char → Option (Char × Nat)
  | [] => none
  | letter :: digits =>
      match escapeOf letter with
      | some meaning => some (meaning, 1)
      | none => do
          let width ← escapeWidth letter
          return (← codePoint? width digits, width + 1)

/-- The text up to the closing double quote, and the cursor behind it. `skip` characters belong to
an escape that has been read, and `gap` is what separates the next word from the last one. A
backslash at the end of a line takes the line end away. -/
def doubleQuoted (skip : Nat) (place : Place) (gap : Gap) :
    List Char → Option (List Char × Cursor)
  | [] => none
  | char :: chars =>
      let next := place.after char
      match skip with
      | skip + 1 => doubleQuoted skip next gap chars
      | 0 =>
          if place.meetsMark (char :: chars) then none
          else if char = '"' then some (gap.text, ⟨next, chars⟩)
          else if isGap char then doubleQuoted 0 next (gap.add char) chars
          else if char = '\\' then
            if chars.head?.any isBreak then do
              let (text, cursor) ← doubleQuoted 1 next { joined := true } chars
              return (gap.text ++ text, cursor)
            else do
              let (meaning, width) ← escape? chars
              let (text, cursor) ← doubleQuoted width next {} chars
              return (gap.text ++ meaning :: text, cursor)
          else do
            let (text, cursor) ← doubleQuoted 0 next {} chars
            return (gap.text ++ char :: text, cursor)

/-- The text up to the closing single quote, and the cursor behind it. Two quotes stand for one. -/
def singleQuoted (place : Place) (gap : Gap) : List Char → Option (List Char × Cursor)
  | [] => none
  | '\'' :: '\'' :: chars => do
      let (text, cursor) ← singleQuoted ((place.after '\'').after '\'') {} chars
      return (gap.text ++ '\'' :: text, cursor)
  | char :: chars =>
      let next := place.after char
      if place.meetsMark (char :: chars) then none
      else if char = '\'' then some (gap.text, ⟨next, chars⟩)
      else if isGap char then singleQuoted next (gap.add char) chars
      else do
        let (text, cursor) ← singleQuoted next {} chars
        return (gap.text ++ char :: text, cursor)

/-- The characters that separate the parts of a collection in braces or brackets. -/
def flowSigns : List Char := [',', '[', ']', '\x7b', '\x7d']

/-- A plain scalar ends before these characters: at a mark of a document, at a comment, at the colon
after a key, at a sign of the surrounding braces, and, outside braces, on a line that does not reach
the margin. -/
def endsPlain (flow : Bool) (margin : Nat) (place : Place) (gap : Gap) : List Char → Bool
  | [] => true
  | char :: chars =>
      place.meetsMark (char :: chars) || (char == '#' && !gap.isEmpty) ||
        (char == ':' && gapNext chars) ||
        (if flow then flowSigns.contains char else gap.isBroken && place.column < margin)

/-- What is left of a plain scalar, whether it ends behind a line end, and the cursor behind it. No
tab may stand before the margin, and in braces no colon before a sign. -/
def plainFrom (flow : Bool) (margin : Nat) (place : Place) (gap : Gap) :
    List Char → Option (List Char × Bool × Cursor)
  | [] => some ([], gap.isBroken, ⟨place, []⟩)
  | char :: chars =>
      let next := place.after char
      if isGap char then
        if char == '\t' && gap.isBroken && place.column < margin then none
        else plainFrom flow margin next (gap.add char) chars
      else if endsPlain flow margin place gap (char :: chars) then
        some ([], gap.isBroken, ⟨place, char :: chars⟩)
      else if flow && char == ':' && chars.head?.any ('?' :: flowSigns).contains then
        none
      else do
        let (text, broken, cursor) ← plainFrom flow margin next {} chars
        return (gap.text ++ char :: text, broken, cursor)

end Yaml

end Relock
