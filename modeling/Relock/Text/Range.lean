/-!
# Ranges of characters

Properties of characters are given as ascending ranges of code points.
-/

namespace Relock

/-- The character is in one of the ranges, whose ends belong to them. -/
def inRanges (ranges : List (Nat × Nat)) (char : Char) : Bool :=
  ranges.any fun range => range.1 ≤ char.toNat && char.toNat ≤ range.2

end Relock
