/-!
Sets of characters given as closed ranges of code points. The character classes of the
language are such sets, one module each.
-/

namespace LambdaQuery.Text

/-- Whether a code point lies in one of the ranges, both ends included. -/
def inRanges (ranges : List (Nat × Nat)) (n : Nat) : Bool :=
  ranges.any fun r => r.1 ≤ n && n ≤ r.2

end LambdaQuery.Text
