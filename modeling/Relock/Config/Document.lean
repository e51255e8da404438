/-!
# Documents

The tree of values that a configuration is read from, whatever notation it was written in. In some
notations a scalar without quotes says itself what it is; in others its meaning depends on what is
asked for. The latter are `plain`.
-/

namespace Relock

/-- What a tag says of the value behind it. -/
inductive Tag where
  /-- It stands for nothing. -/
  | null
  /-- It is a whole number. -/
  | integer
  /-- It is a truth value. -/
  | bool
  /-- It belongs to the choice of the name. -/
  | name (name : String)
  /-- Something that no configuration asks for. -/
  | other
deriving DecidableEq, Repr, Inhabited

/-- A value of a configuration text. -/
inductive Document where
  | null
  | bool (value : Bool)
  | natural (value : Nat)
  /-- A number below zero or with a fraction. -/
  | otherNumber
  | text (value : String)
  /-- A scalar without quotes. -/
  | plain (value : String)
  /-- A scalar on lines of its own, which is a text unless its tag says otherwise. -/
  | literal (value : String)
  | list (items : List Document)
  | mapping (entries : List (String × Document))
  | tagged (tag : Tag) (value : Document)
deriving Repr, Inhabited

namespace Document

/-- The number below which versions and the like lie. -/
def wordLimit : Nat := Nat.pow 2 32

/-- The value of digits to a base, if there are any and all of them are digits of it. -/
def digitsValue (base : Nat) (digits : List Char) : Option Nat :=
  if digits.isEmpty then
    none
  else
    digits.foldlM (fun value digit =>
      let weight :=
        if digit.isDigit then digit.toNat - '0'.toNat
        else if 'a' ≤ digit ∧ digit ≤ 'f' then digit.toNat - 'a'.toNat + 10
        else if 'A' ≤ digit ∧ digit ≤ 'F' then digit.toNat - 'A'.toNat + 10
        else base
      if weight < base then some (value * base + weight) else none) 0

/-- The number that the characters of a plain scalar denote. Decimal numbers have no leading
zeros. -/
def plainNatural (chars : List Char) : Option Nat :=
  match chars with
  | '0' :: 'x' :: digits => digitsValue 16 digits
  | '0' :: 'o' :: digits => digitsValue 8 digits
  | '0' :: 'b' :: digits => digitsValue 2 digits
  | ['0'] => some 0
  | '0' :: _ => none
  | digits => digitsValue 10 digits

/-- The number below the limit of numbers that a word denotes. -/
def wordNatural (word : String) : Option Nat :=
  let chars := match word.toList with
    | '+' :: digits => digits
    | chars => chars
  (plainNatural chars).filter (· < wordLimit)

/-- The truth value that a word denotes. -/
def wordBool (word : String) : Option Bool :=
  if ["true", "True", "TRUE"].contains word then some true
  else if ["false", "False", "FALSE"].contains word then some false
  else none

/-- The value as a number below the limit of numbers. -/
def natural? : Document → Option Nat
  | natural value => if value < wordLimit then some value else none
  | plain value | tagged _ (plain value) | tagged .integer (literal value) => wordNatural value
  | _ => none

/-- The value as a truth value. -/
def bool? : Document → Option Bool
  | bool value => some value
  | plain value | tagged _ (plain value) | tagged .bool (literal value) => wordBool value
  | _ => none

/-- The value as a text. A plain scalar is its own text, and so is a literal one. -/
def text? : Document → Option String
  | text value | plain value | literal value => some value
  | tagged _ (text value) | tagged _ (plain value) | tagged _ (literal value) => some value
  | _ => none

/-- The plain scalars that stand for nothing. -/
def nullWords : List String := ["~", "null", "Null", "NULL"]

/-- The value stands for nothing. -/
def isNull : Document → Bool
  | null => true
  | plain value => value = "" || nullWords.contains value
  | _ => false

/-- The value as a choice among names: the name, a mapping of it to nothing, or nothing with the
name as its tag. -/
def choice? : Document → Option String
  | mapping [(name, null)] => some name
  | tagged (.name name) value => if value.isNull then some name else none
  | document => document.text?

/-- The value, or none when it stands for nothing. A plain scalar with the tag of nothing has to be
a word for it. -/
def optional {α : Type} (read : Document → Option α) (document : Document) : Option (Option α) :=
  match document with
  | tagged .null (plain value) => if nullWords.contains value then some none else none
  | document => if document.isNull then some none else (read document).map some

/-- The values of a record with the given fields, in their order; `none` for a field that is absent.
A record is a mapping, in which no other fields may stand, or a list with the fields in order. A
plain scalar without text is an empty mapping. -/
def record? (fields : List String) : Document → Option (List (Option Document))
  | mapping entries | tagged _ (mapping entries) =>
      if entries.all fun entry => fields.contains entry.1 then
        some (fields.map fun field => entries.lookup field)
      else
        none
  | list items =>
      if items.length ≤ fields.length then
        some (items.map some ++ List.replicate (fields.length - items.length) none)
      else
        none
  | plain "" | tagged _ (plain "") => some (fields.map fun _ => none)
  | _ => none

end Document

end Relock
