/-!
# JSON texts

The values that reports are made of, written over several lines with an indentation of two spaces.
-/

namespace Relock

/-- A value of a report. -/
inductive JsonValue where
  | text (value : String)
  | number (value : Nat)
  | list (items : List JsonValue)
  | object (fields : List (String × JsonValue))

namespace JsonValue

/-- Two digits to base sixteen. -/
def hexPair (value : Nat) : List Char :=
  [Nat.digitChar (value / 16), Nat.digitChar (value % 16)]

/-- A character as it stands in a JSON text. -/
def escapeChar (char : Char) : List Char :=
  match char with
  | '"' => ['\\', '"']
  | '\\' => ['\\', '\\']
  | '\n' => ['\\', 'n']
  | '\r' => ['\\', 'r']
  | '\t' => ['\\', 't']
  | '\x08' => ['\\', 'b']
  | '\x0c' => ['\\', 'f']
  | char =>
      if char.toNat < 0x20 then ['\\', 'u', '0', '0'] ++ hexPair char.toNat else [char]

/-- A text between double quotes. -/
def quote (text : String) : String :=
  String.ofList ('"' :: (text.toList.flatMap escapeChar ++ ['"']))

/-- The beginning of a line at a depth of nesting. -/
def newLine (depth : Nat) : String := "\n" ++ String.ofList (List.replicate (2 * depth) ' ')

/-- Parts between brackets, each on lines of its own. -/
def enclose (opening closing : String) (depth : Nat) (parts : List String) : String :=
  if parts.isEmpty then
    opening ++ closing
  else
    opening ++ ",".intercalate (parts.map fun part => newLine (depth + 1) ++ part) ++
      newLine depth ++ closing

mutual

/-- A value at a depth of nesting. -/
def render (depth : Nat) : JsonValue → String
  | text value => quote value
  | number value => toString value
  | list items => enclose "[" "]" depth (renderItems (depth + 1) items)
  | object fields => enclose "\x7b" "\x7d" depth (renderFields (depth + 1) fields)

/-- The items of a list. -/
def renderItems (depth : Nat) : List JsonValue → List String
  | [] => []
  | item :: items => item.render depth :: renderItems depth items

/-- The fields of an object. -/
def renderFields (depth : Nat) : List (String × JsonValue) → List String
  | [] => []
  | (key, value) :: fields =>
      (quote key ++ ": " ++ value.render depth) :: renderFields depth fields

end

/-- A value as a text of its own. -/
def pretty (value : JsonValue) : String := value.render 0

end JsonValue

end Relock
