import Relock.Text.Printable

/-!
# Quoted texts

A text between double quotes, in which quotes, backslashes and all characters that would not show
are written as escapes.
-/

namespace Relock

/-- The digits of a number to base sixteen. -/
def hexDigits (value : Nat) : List Char := Nat.toDigits 16 value

/-- A character by its code point. -/
def escapeCodePoint (char : Char) : List Char :=
  ['\\', 'u', '\x7b'] ++ hexDigits char.toNat ++ ['\x7d']

/-- A character as it stands in a quoted text. -/
def quoteChar (char : Char) : List Char :=
  match char with
  | '\x00' => ['\\', '0']
  | '\t' => ['\\', 't']
  | '\r' => ['\\', 'r']
  | '\n' => ['\\', 'n']
  | '"' => ['\\', '"']
  | '\\' => ['\\', '\\']
  | char => if isPrintable char && !isExtending char then [char] else escapeCodePoint char

/-- The text between double quotes. -/
def quoted (text : String) : String :=
  String.ofList ('"' :: (text.toList.flatMap quoteChar ++ ['"']))

end Relock
