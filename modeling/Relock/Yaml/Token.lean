import Relock.Yaml.Literal
import Relock.Yaml.Scalar

/-!
# Tokens of YAML

The words and signs of a YAML text. Sequences have no place in a configuration, so there are no
tokens for them.
-/

namespace Relock

namespace Yaml

/-- How a scalar is written. -/
inductive ScalarStyle where
  | plain
  | quoted
  | literal
  | folded
deriving Repr, DecidableEq

/-- A word or sign of a text. -/
inductive Token where
  /-- The version of the notation. -/
  | version (major minor : Nat)
  /-- A handle of tags, and the bytes it stands for. -/
  | shorthand (handle : String) (meaning : List UInt8)
  | documentStart
  | documentEnd
  /-- The beginning of a mapping on lines of its own. -/
  | blockStart
  | blockEnd
  /-- The beginning of a mapping in braces. -/
  | flowStart
  | flowEnd
  | separator
  /-- What follows is a key. -/
  | key
  /-- What follows is the value of the last key. -/
  | value
  /-- A name for the node that follows. -/
  | anchor (name : String)
  /-- The node of a name once more. -/
  | reference (name : String)
  /-- A tag, as a handle and the bytes of the rest; without a handle the rest is all of it. -/
  | tag (handle : String) (rest : List UInt8)
  | scalar (style : ScalarStyle) (text : String)
deriving Repr, DecidableEq

/-! ## Names and tags -/

/-- The character can stand in a name. -/
def isWord (char : Char) : Bool :=
  char.isAlphanum || char == '_' || char == '-'

/-- The character can stand in a tag. -/
def isTagChar (char : Char) : Bool :=
  isWord char || ";/?:@&=+$.%!~*'()".toList.contains char

/-- The character can stand in a tag between angle brackets, or in the meaning of a handle. -/
def isUriChar (char : Char) : Bool := isTagChar char || [',', '[', ']'].contains char

/-- The number of bytes of a character whose encoding begins with the byte. -/
def encodedLength? (byte : Nat) : Option Nat :=
  if byte < 0x80 then some 1
  else if byte < 0xC0 then none
  else if byte < 0xE0 then some 2
  else if byte < 0xF0 then some 3
  else if byte < 0xF8 then some 4
  else none

/-- The bytes that the characters of a tag stand for. Two digits after a percent sign are one, and
the bytes of a character stand together; `left` of them are still to come. -/
def encodedBytes (left : Nat) : List Char → Option (List UInt8)
  | [] => if left = 0 then some [] else none
  | '%' :: high :: low :: chars => do
      let byte ← Document.digitsValue 16 [high, low]
      let left ←
        if left = 0 then (encodedLength? byte).map (· - 1)
        else if 0x80 ≤ byte ∧ byte < 0xC0 then some (left - 1)
        else none
      return byte.toUInt8 :: (← encodedBytes left chars)
  | char :: chars =>
      if char = '%' ∨ left ≠ 0 then none
      else return char.toNat.toUInt8 :: (← encodedBytes 0 chars)

/-- The bytes of a tag, which end before a zero. -/
def tagBytes? (chars : List Char) : Option (List UInt8) :=
  (encodedBytes 0 chars).map fun bytes => bytes.takeWhile (· != 0)

/-- The name behind the sign of an anchor or a reference, and the cursor behind it. -/
def name? (cursor : Cursor) : Option (String × Cursor) :=
  let (name, cursor) := cursor.span isWord
  let ends := cursor.rest.head?.all fun char =>
    isGap char || ['?', ':', ',', ']', '\x7d', '%', '@', '\x60'].contains char
  if name.isEmpty || !ends then none else some (String.ofList name, cursor)

/-- The characters of a handle, with the exclamation mark behind it if it has one. -/
def handleChars : List Char → List Char
  | '!' :: chars =>
      let word := chars.takeWhile isWord
      '!' :: word ++ (chars.drop word.length |>.take 1 |>.filter (· == '!'))
  | _ => []

/-- The handle is one exclamation mark, or ends with a second one. -/
def isHandle (handle : List Char) : Bool :=
  handle == ['!'] || (1 < handle.length && handle.getLast? == some '!')

/-- The tag of a lone exclamation mark. -/
def loneTag : Token := .tag "" [0x21]

/-- The tag at the cursor, and the cursor behind it. -/
def tag? (flow : Bool) (cursor : Cursor) : Option (Token × Cursor) := do
  let (token, cursor) ←
    match cursor.rest with
    | '!' :: '<' :: _ => do
        let (chars, cursor) := (cursor.skip 2).span isUriChar
        if chars.isEmpty || cursor.rest.head? != some '>' then none
        pure (Token.tag "" (← tagBytes? chars), cursor.skip 1)
    | chars => do
        let handle := handleChars chars
        if 1 < handle.length && isHandle handle then
          let (chars, cursor) := (cursor.skip handle.length).span isTagChar
          if chars.isEmpty then none
          pure (Token.tag (String.ofList handle) (← tagBytes? chars), cursor)
        else
          let (chars, cursor) := (cursor.skip 1).span isTagChar
          let bytes ← tagBytes? chars
          pure (if bytes.isEmpty then loneTag else Token.tag "!" bytes, cursor)
  if gapNext cursor.rest || (flow && cursor.rest.head? == some ',') then
    return (token, cursor)
  else
    none

/-! ## Directives -/

/-- A number of at most nine digits, and the cursor behind it. -/
def versionNumber? (cursor : Cursor) : Option (Nat × Cursor) := do
  let (digits, cursor) := cursor.span Char.isDigit
  if 9 < digits.length then none
  return (← Document.digitsValue 10 digits, cursor)

/-- The version at the cursor, and the cursor behind it. -/
def version? (cursor : Cursor) : Option (Token × Cursor) := do
  let (major, cursor) ← versionNumber? cursor
  if cursor.rest.head? != some '.' then none
  let (minor, cursor) ← versionNumber? (cursor.skip 1)
  return (.version major minor, cursor)

/-- The handle at the cursor with its meaning, and the cursor behind them. -/
def shorthand? (cursor : Cursor) : Option (Token × Cursor) := do
  let handle := handleChars cursor.rest
  let cursor := cursor.skip handle.length
  if !isHandle handle || !cursor.rest.head?.any isBlank then none
  let (meaning, cursor) := (cursor.skipWhile isBlank).span isUriChar
  if meaning.isEmpty || !gapNext cursor.rest then none
  return (.shorthand (String.ofList handle) (← tagBytes? meaning), cursor)

/-- The directive behind a percent sign, and the cursor behind its line. -/
def directive? (cursor : Cursor) : Option (Token × Cursor) := do
  let (name, cursor) := cursor.span isWord
  if !gapNext cursor.rest then none
  let cursor := cursor.skipWhile isBlank
  let (token, cursor) ←
    match String.ofList name with
    | "YAML" => version? cursor
    | "TAG" => shorthand? cursor
    | _ => none
  return (token, (← cursor.lineEnd?).skip 1)

end Yaml

end Relock
