import Relock.Text.Range

/-!
# Blank characters

The characters with the Unicode property of white space, and texts without blanks at their ends.
-/

namespace Relock

/-- The ranges of code points that are white space. -/
def blankRanges : List (Nat × Nat) :=
  [(0x09, 0x0D), (0x20, 0x20), (0x85, 0x85), (0xA0, 0xA0), (0x1680, 0x1680), (0x2000, 0x200A),
    (0x2028, 0x2029), (0x202F, 0x202F), (0x205F, 0x205F), (0x3000, 0x3000)]

/-- The character is white space. -/
def isBlank (char : Char) : Bool := inRanges blankRanges char

/-- The text without the characters at either end that satisfy the respective test. -/
def stripEnds (front back : Char → Bool) (text : String) : String :=
  let rest := text.toList.dropWhile front
  String.ofList (rest.reverse.dropWhile back).reverse

/-- The text without blanks at either end. -/
def stripBlanks (text : String) : String := stripEnds isBlank isBlank text

/-- A character that delimits a Go string literal. -/
def isQuote (char : Char) : Bool := char == '"' || char == '\x60'

/-- The text of a Go string literal without its delimiters and the blanks around them. -/
def unquote (literal : String) : String := stripEnds isQuote isQuote (stripBlanks literal)

end Relock
