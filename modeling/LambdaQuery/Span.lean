/-!
Stretches of the query text, measured in bytes of its UTF-8 form.
-/

namespace LambdaQuery

/-- The bytes from `start` up to, and not including, `stop`. -/
structure Span where
  start : Nat
  stop : Nat
deriving DecidableEq, Repr, Inhabited

namespace Span

/-- The number of bytes covered. -/
def length (s : Span) : Nat :=
  s.stop - s.start

def isEmpty (s : Span) : Bool :=
  s.start == s.stop

/-- The smallest stretch that covers both. -/
def merge (a b : Span) : Span :=
  ⟨min a.start b.start, max a.stop b.stop⟩

/-- The stretch a report points at in a text of `size` bytes: cut to the text, and one byte long
at least unless the text is empty. An empty stretch widens to the right, at the very end of the
text to the left. -/
def within (s : Span) (size : Nat) : Span :=
  let start := min s.start size
  let stop := max (min s.stop size) start
  if start = stop then
    if stop < size then ⟨start, stop + 1⟩ else ⟨start - 1, stop⟩
  else
    ⟨start, stop⟩

end Span

end LambdaQuery
