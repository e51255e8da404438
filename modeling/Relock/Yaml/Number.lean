import Relock.Config.Document

/-!
# Numbers in YAML

The plain scalars that are read as numbers. A decimal number that is beyond the range of floating
point is no number.
-/

namespace Relock

namespace Yaml

/-- The first number too large for floating point, half a step above the largest one. -/
def floatLimit : Nat := Nat.pow 2 1024 - Nat.pow 2 970

/-- The digits, followed by as many zeros as the exponent says, are beyond floating point. -/
def overflows (digits : List Char) (exponent : Int) : Bool :=
  let digits := digits.dropWhile (· == '0')
  let size := digits.length + exponent
  if digits.isEmpty || size < 309 then
    false
  else if 309 < size then
    true
  else
    floatLimit * Nat.pow 10 (-exponent).toNat ≤
      ((Document.digitsValue 10 digits).getD 0) * Nat.pow 10 exponent.toNat

/-- The exponent at the end of a decimal number. -/
def exponent? : List Char → Option Int
  | [] => some 0
  | mark :: chars =>
      if mark = 'e' ∨ mark = 'E' then
        match chars with
        | '-' :: digits => (Document.digitsValue 10 digits).map fun value => -value
        | '+' :: digits | digits => (Document.digitsValue 10 digits).map fun value => value
      else
        none

/-- A decimal number without a sign. -/
def isDecimal (chars : List Char) : Bool :=
  let whole := chars.takeWhile Char.isDigit
  let rest := chars.drop whole.length
  let (fraction, rest) := match rest with
    | '.' :: rest => (rest.takeWhile Char.isDigit, rest.dropWhile Char.isDigit)
    | rest => ([], rest)
  match exponent? rest with
  | some exponent =>
      let digits := whole ++ fraction
      !digits.isEmpty && !overflows digits (exponent - fraction.length)
  | none => false

/-- A number to another base than ten, up to the limit. -/
def isBased (limit : Nat) : List Char → Bool
  | '0' :: 'x' :: digits => (Document.digitsValue 16 digits).any (· ≤ limit)
  | '0' :: 'o' :: digits => (Document.digitsValue 8 digits).any (· ≤ limit)
  | '0' :: 'b' :: digits => (Document.digitsValue 2 digits).any (· ≤ limit)
  | _ => false

/-- Infinity. -/
def isInfinity (chars : List Char) : Bool :=
  [".inf", ".Inf", ".INF"].contains (String.ofList chars)

/-- The text is read as a number if it is plain, or consists of digits as one. -/
def isNumber (text : String) : Bool :=
  [".nan", ".NaN", ".NAN"].contains text ||
    match text.toList with
    | '-' :: chars => isBased (Nat.pow 2 127) chars || isDigits chars
    | '+' :: chars | chars => isBased (Nat.pow 2 128 - 1) chars || isDigits chars
where
  isDigits (chars : List Char) : Bool :=
    isInfinity chars || isDecimal chars || (!chars.isEmpty && chars.all Char.isDigit &&
      chars.head? == some '0')

end Yaml

end Relock
