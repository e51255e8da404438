import Relock.Source.Span

/-!
# Source text by byte offset

Syntax trees refer to their source by byte offsets into its UTF-8 form. This file finds the line and
column of an offset, and the text between two offsets.
-/

namespace Relock

/-- A source text, held as its UTF-8 bytes. -/
structure SourceText where
  bytes : ByteArray

namespace SourceText

/-- The source text of a string. -/
def ofString (text : String) : SourceText := ⟨text.toUTF8⟩

/-- The byte that ends a line. -/
def lineFeed : UInt8 := 10

/-- The position after reading `bytes` from the given position. -/
def advance : List UInt8 → Position → Position
  | [], position => position
  | byte :: bytes, position =>
      advance bytes
        (if byte = lineFeed then ⟨position.line + 1, 0⟩ else ⟨position.line, position.column + 1⟩)

/-- The position of a byte offset: the line is one more than the number of line feeds before it, and
the column is the number of bytes since the last of them. -/
def position (source : SourceText) (offset : Nat) : Position :=
  advance (source.bytes.extract 0 offset).toList ⟨1, 0⟩

/-- The range between two byte offsets. -/
def span (source : SourceText) (startByte endByte : Nat) : Span :=
  let first := source.position startByte
  let last := source.position endByte
  ⟨startByte, endByte, first.line, first.column, last.line, last.column⟩

/-- The text between two byte offsets; empty when they do not delimit whole characters of the
source. -/
def slice (source : SourceText) (startByte endByte : Nat) : String :=
  if startByte ≤ endByte ∧ endByte ≤ source.bytes.size then
    (String.fromUTF8? (source.bytes.extract startByte endByte)).getD ""
  else
    ""

end SourceText

end Relock
