/-!
# Segments

The parts of a text between the occurrences of a separating character.
-/

namespace Relock

/-- The runs of characters between separators. There is always at least one, which may be empty. -/
def splitChars (separator : Char) : List Char → List (List Char)
  | [] => [[]]
  | char :: chars =>
      if char = separator then
        [] :: splitChars separator chars
      else
        match splitChars separator chars with
        | [] => [[char]]
        | first :: rest => (char :: first) :: rest

/-- The parts of a text between separators. -/
def splitText (separator : Char) (text : String) : List String :=
  (splitChars separator text.toList).map String.ofList

/-- The part of a text after its last separator, or all of it. -/
def lastPart (separator : Char) (text : String) : String :=
  String.ofList (text.toList.reverse.takeWhile (· != separator)).reverse

end Relock
