import Relock.Config.Basic
import Relock.Yaml.Cursor
import Relock.Yaml.Number

/-!
# Writing of configurations

A configuration as YAML text. Texts stand without quotes where they read back as themselves, in
single quotes where that is enough, and in double quotes otherwise. Texts of several lines stand on
lines of their own.
-/

namespace Relock

namespace Yaml

/-- The character can stand unescaped. -/
def isShown (char : Char) : Bool :=
  isAllowed char && !(['\t', '\r', '\u0085', '\ufeff'].contains char)

/-- A text that begins with one of these characters is no plain one. -/
def indicators : List Char :=
  ['#', ',', '[', ']', '\x7b', '\x7d', '&', '*', '!', '|', '>', '\'', '"', '%', '@', '\x60']

/-- The first character begins something other than a plain text. -/
def beginsIndicator : List Char → Bool
  | [] => false
  | '-' :: '-' :: '-' :: _ | '.' :: '.' :: '.' :: _ => true
  | char :: chars =>
      indicators.contains char || (['?', ':', '-'].contains char && gapNext chars)

/-- A colon before a gap or a number sign after one ends a plain text. -/
def holdsIndicator (afterGap : Bool) : List Char → Bool
  | [] => false
  | char :: chars =>
      (char == ':' && gapNext chars) || (char == '#' && afterGap) ||
        holdsIndicator (isGap char) chars

/-- Two neighbours among the characters pass the tests. -/
def adjoin (first second : Char → Bool) : List Char → Bool
  | left :: right :: chars => (first left && second right) || adjoin first second (right :: chars)
  | _ => false

/-- Without quotes the text would not read back as a text. -/
def readsAsOther (text : String) : Bool :=
  let document := Document.plain text
  document.isNull || document.bool?.isSome || isNumber text

/-- The text can stand without quotes. -/
def isPlain (chars : List Char) : Bool :=
  chars.head? != some ' ' && chars.getLast? != some ' ' &&
    chars.all (fun char => isShown char && !isBreak char) &&
    !beginsIndicator chars && !holdsIndicator (chars.head?.any isGap) (chars.drop 1)

/-- No character needs an escape, and no line ends with a space. -/
def isLined (chars : List Char) : Bool :=
  chars.all isShown && !adjoin (· == ' ') isBreak chars

/-- The text can stand in single quotes. -/
def isSingle (chars : List Char) : Bool :=
  isLined chars && !adjoin isBreak (· == ' ') chars

/-- The text can stand on lines of its own. -/
def isLiteral (chars : List Char) : Bool :=
  isLined chars && chars.getLast? != some ' '

/-- Upper-case digits of a number to base sixteen, at least `width` of them. -/
def hexUpper (width value : Nat) : List Char :=
  let digits := (Nat.toDigits 16 value).map Char.toUpper
  List.replicate (width - digits.length) '0' ++ digits

/-- A character in double quotes. -/
def escapeChar (char : Char) : List Char :=
  match char with
  | '\x00' => ['\\', '0']
  | '\x07' => ['\\', 'a']
  | '\x08' => ['\\', 'b']
  | '\t' => ['\\', 't']
  | '\n' => ['\\', 'n']
  | '\x0b' => ['\\', 'v']
  | '\x0c' => ['\\', 'f']
  | '\r' => ['\\', 'r']
  | '\x1b' => ['\\', 'e']
  | '"' => ['\\', '"']
  | '\\' => ['\\', '\\']
  | '\u0085' => ['\\', 'N']
  | '\u2028' => ['\\', 'L']
  | '\u2029' => ['\\', 'P']
  | char =>
      if isShown char then [char]
      else if char.toNat ≤ 0xFF then ['\\', 'x'] ++ hexUpper 2 char.toNat
      else if char.toNat ≤ 0xFFFF then ['\\', 'u'] ++ hexUpper 4 char.toNat
      else ['\\', 'U'] ++ hexUpper 8 char.toNat

/-- A text between double quotes. -/
def double (chars : List Char) : List Char :=
  '"' :: (chars.flatMap escapeChar ++ ['"'])

/-- The text with the given number of spaces at the beginning of each line that is not empty.
`fresh` says that the text itself begins a line. -/
def indented (indent : Nat) (fresh : Bool) : List Char → List Char
  | [] => []
  | char :: chars =>
      if isBreak char then
        char :: indented indent true chars
      else
        (if fresh then List.replicate indent ' ' else []) ++ char :: indented indent false chars

/-- A text between single quotes. A quote in it is doubled. -/
def single (indent : Nat) (chars : List Char) : List Char :=
  let lines := indented indent false chars
  let doubled := lines.flatMap fun char => if char = '\'' then ['\'', '\''] else [char]
  let last := if chars.getLast?.any isBreak then List.replicate indent ' ' else []
  '\'' :: (doubled ++ last ++ ['\''])

/-- What the head of a text of several lines says of its beginning and its end. -/
def literalMarks (chars : List Char) : List Char :=
  let start := if chars.head?.any fun char => char == ' ' || isBreak char then ['2'] else []
  let finish := match chars.reverse.map isBreak with
    | [true] | true :: true :: _ => ['+']
    | true :: _ => []
    | _ => ['-']
  start ++ finish

/-- A text on lines of its own, each behind the given number of spaces. -/
def literal (indent : Nat) (chars : List Char) : List Char :=
  '|' :: literalMarks chars ++ '\n' :: indented indent true chars

/-- A text; further lines of it stand behind the given number of spaces. -/
def scalar (indent : Nat) (text : String) : String :=
  let chars := text.toList
  String.ofList (
    if chars.contains '\n' then
      if isLiteral chars then literal indent chars else double chars
    else if isPlain chars && !readsAsOther text then chars
    else if isSingle chars then single indent chars
    else double chars)

/-- A truth value. -/
def bool (value : Bool) : String := if value then "true" else "false"

/-- An entry of a mapping, up to the end of its last line. -/
def entry (key value : String) : String :=
  key ++ ": " ++ value ++ (if value.toList.getLast?.any isBreak then "" else "\n")

end Yaml

namespace Config

/-- The configuration as YAML text. -/
def toYaml (config : Config) : String :=
  Yaml.entry "version" (toString config.version) ++
  Yaml.entry "preset" config.preset.name ++
  "lock:\n" ++
  Yaml.entry "  acquire" (Yaml.scalar 4 config.lock.acquire) ++
  Yaml.entry "  release" (Yaml.scalar 4 config.lock.release) ++
  "search:\n" ++
  Yaml.entry "  follow_arguments" (Yaml.bool config.search.followArguments) ++
  Yaml.entry "  follow_package_locks" (Yaml.bool config.search.followPackageLocks) ++
  "report:\n" ++
  Yaml.entry "  format" config.report.format.name ++
  Yaml.entry "  include_tests" (Yaml.bool config.report.includeTests)

end Config

end Relock
