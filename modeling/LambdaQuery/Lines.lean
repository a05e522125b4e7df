/-!
Lines and columns of a text. The start of every line is kept as a byte offset, and a position is
found by the last line that starts at or before it.
-/

namespace LambdaQuery

/-- The byte offsets behind the line feeds of a text that begins at `offset`. -/
def lineStartsFrom (offset : Nat) : List Char → List Nat
  | [] => []
  | c :: cs =>
    let next := offset + c.utf8Size
    if c = '\n' then next :: lineStartsFrom next cs else lineStartsFrom next cs

/-- The byte offsets at which the lines of a text start, the first line included. -/
def lineStarts (text : String) : List Nat :=
  0 :: lineStartsFrom 0 text.toList

/-- The line and the column of a byte offset, both counted from one, the column in bytes. -/
def position (starts : List Nat) (offset : Nat) : Nat × Nat :=
  let before := starts.takeWhile (· ≤ offset)
  (before.length, offset - before.getLastD 0 + 1)

end LambdaQuery
