import Relock.Yaml.Cursor

/-!
# Scalars on lines of their own

After a bar or an angle bracket the lines below make up the text, as far as they are indented. After
an angle bracket the ends of lines that begin with no blank count as spaces. The head of the text
may say how far it is indented and what becomes of the line ends behind it.
-/

namespace Relock

namespace Yaml

/-- What becomes of the line ends after the last line of a text. -/
inductive Finish where
  /-- One of them stays. -/
  | clip
  /-- None of them stays. -/
  | strip
  /-- All of them stay. -/
  | keep
deriving Repr, DecidableEq

/-- A sign for what becomes of the line ends. -/
def finish? : List Char → Option (Finish × List Char)
  | '+' :: chars => some (.keep, chars)
  | '-' :: chars => some (.strip, chars)
  | _ => none

/-- A digit for the indentation. -/
def indent? : List Char → Option (Nat × List Char)
  | char :: chars => if char.isDigit then some (char.toNat - '0'.toNat, chars) else none
  | [] => none

/-- The signs at the head of a text, in either order, and what follows them. -/
def literalHead (chars : List Char) : Finish × Option Nat × List Char :=
  match finish? chars with
  | some (finish, chars) =>
      match indent? chars with
      | some (indent, chars) => (finish, some indent, chars)
      | none => (finish, none, chars)
  | none =>
      match indent? chars with
      | none => (.clip, none, chars)
      | some (indent, chars) =>
          match finish? chars with
          | some (finish, chars) => (finish, some indent, chars)
          | none => (.clip, some indent, chars)

/-- The line ends of empty lines, the widest of their indentations and that of the line after them,
and the cursor there. No more spaces are skipped than the indentation, and no tab is part of it. -/
def emptyLines (indent : Option Nat) (breaks : List Char) (widest : Nat) (place : Place) :
    List Char → Option (List Char × Nat × Cursor)
  | [] => some (breaks, max widest place.column, ⟨place, []⟩)
  | char :: chars =>
      let next := place.after char
      let inside := indent.all (place.column < ·)
      if inside && char == '\t' then none
      else if inside && char == ' ' then emptyLines indent breaks widest next chars
      else if isBreak char then
        emptyLines indent (breaks ++ [char]) (max widest place.column) next chars
      else some (breaks, max widest place.column, ⟨place, char :: chars⟩)

/-- Lines of a text that have been read: the line end of the last one, the line ends of the empty
lines after it, and whether it began with a blank. -/
structure Linefeed where
  first : List Char := []
  others : List Char := []
  afterBlank : Bool := false
deriving Repr, Inhabited

/-- What the line ends between two lines stand for. -/
def Linefeed.text (linefeed : Linefeed) (folded beforeBlank : Bool) : List Char :=
  if folded && linefeed.first == ['\n'] && !linefeed.afterBlank && !beforeBlank then
    if linefeed.others.isEmpty then [' '] else linefeed.others
  else
    linefeed.first ++ linefeed.others

/-- The lines with the indentation, the line ends behind them, and the cursor there. There are fewer
lines than `budget`. -/
def indentedLines (folded : Bool) (indent : Nat) :
    (budget : Nat) → Linefeed → Cursor → Option (List Char × Linefeed × Cursor)
  | 0, _, _ => none
  | budget + 1, linefeed, cursor =>
      if cursor.rest.isEmpty || cursor.place.column != indent then
        some ([], linefeed, cursor)
      else do
        let blank := cursor.rest.head?.any isBlank
        let (line, cursor) := cursor.span (!isBreak ·)
        let first := cursor.rest.take 1
        let cursor := cursor.skip 1
        let (others, _, cursor) ← emptyLines (some indent) [] 0 cursor.place cursor.rest
        let (text, last, cursor) ← indentedLines folded indent budget ⟨first, others, blank⟩ cursor
        return (linefeed.text folded blank ++ line ++ text, last, cursor)

/-- The text whose head follows, and the cursor behind it. Without an indentation in the head, the
text is indented as its first line is, and at least to the margin. -/
def literal? (folded : Bool) (margin : Nat) (cursor : Cursor) : Option (List Char × Cursor) := do
  let (finish, given, rest) := literalHead cursor.rest
  if given == some 0 then none
  let cursor ← (cursor.skip (cursor.rest.length - rest.length)).lineEnd?
  let cursor := cursor.skip 1
  let indent := given.map (margin - 1 + ·)
  let (breaks, widest, cursor) ← emptyLines indent [] 0 cursor.place cursor.rest
  let indent := indent.getD (max widest (max margin 1))
  let (text, last, cursor) ←
    indentedLines folded indent (cursor.rest.length + 1) { others := breaks } cursor
  return match finish with
  | .strip => (text, cursor)
  | .clip => (text ++ last.first, cursor)
  | .keep => (text ++ last.first ++ last.others, cursor)

end Yaml

end Relock
