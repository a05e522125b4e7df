import LambdaQuery.Number.Binary64
import LambdaQuery.Number.Integer

/-!
Decimal text of binary numbers: the fewest digits that read back as the same number, the nearest
to it among those. The text never has an exponent.
-/

namespace LambdaQuery.Number

/-- The reals that read back as one binary number, in quarters of its last place: from `low` to
`high`, times `2 ^ scale`. The ends belong to it if the mantissa is even. -/
structure Interval where
  low : Nat
  middle : Nat
  high : Nat
  scale : Int
  closed : Bool

/-- The interval of `mantissa * 2 ^ exponent`. Below a power of two the numbers lie twice as
close. -/
def interval (mantissa : Nat) (exponent : Int) : Interval where
  low :=
    if mantissa = Nat.pow 2 52 ∧ leastExponent < exponent then 4 * mantissa - 1
    else 4 * mantissa - 2
  middle := 4 * mantissa
  high := 4 * mantissa + 2
  scale := exponent - 2
  closed := mantissa % 2 = 0

/-- Two whole numbers in the ratio of `a * 10 ^ power` and `b * 2 ^ scale`. -/
def commonUnits (a : Nat) (power : Int) (b : Nat) (scale : Int) : Nat × Nat :=
  (a * Nat.pow 10 power.toNat * Nat.pow 2 (-scale).toNat,
    b * Nat.pow 2 scale.toNat * Nat.pow 10 (-power).toNat)

/-- Whether `digits * 10 ^ power` reads back as the number of the interval. -/
def Interval.holds (i : Interval) (digits : Nat) (power : Int) : Bool :=
  let (d, low) := commonUnits digits power i.low i.scale
  let (d', high) := commonUnits digits power i.high i.scale
  if i.closed then low ≤ d && d' ≤ high else low < d && d' < high

/-- The number of digits before the point; for a number below one, less the zeros behind it. -/
def Interval.magnitude (i : Interval) : Int :=
  let spread : Nat := 400
  let (one, value) := commonUnits 1 0 (i.middle * Nat.pow 10 spread) i.scale
  (writeNat (value / one)).length - spread

/-- The decimal nearest to the number with at most this many digits, if it reads back. Of two
equally near the larger is taken. -/
def Interval.withDigits? (i : Interval) (magnitude : Int) (count : Nat) : Option (Nat × Int) :=
  let power := magnitude - count
  let (unit, value) := commonUnits 1 power i.middle i.scale
  let below := value / unit
  let nearerBelow := 2 * (value % unit) < unit
  let first := if nearerBelow then below else below + 1
  let second := if nearerBelow then below + 1 else below
  if i.holds first power then some (first, power)
  else if i.holds second power then some (second, power)
  else none

/-- The shortest decimal of a positive number. Seventeen digits always read back. -/
def shortest (mantissa : Nat) (exponent : Int) : Nat × Int :=
  let i := interval mantissa exponent
  let magnitude := i.magnitude
  match (List.range 17).findSome? fun n => i.withDigits? magnitude (n + 1) with
  | some result => result
  | none => (0, 0)

/-- `digits * 10 ^ power` without an exponent, and without zeros at the end of a fraction. -/
def positional (digits : Nat) (power : Int) : List Char :=
  let cs := writeNat digits
  if 0 ≤ power then
    cs ++ List.replicate power.toNat '0'
  else
    let places := (-power).toNat
    let padded := List.replicate (places + 1 - cs.length) '0' ++ cs
    let whole := padded.take (padded.length - places)
    let fraction := ((padded.drop (padded.length - places)).reverse.dropWhile (· == '0')).reverse
    if fraction.isEmpty then whole else whole ++ '.' :: fraction

/-- The text of a binary number. -/
def writeFloat (x : Float) : List Char :=
  match parts x with
  | .notANumber => "NaN".toList
  | .infinite negative => if negative then "-inf".toList else "inf".toList
  | .finite negative mantissa exponent =>
    let size :=
      if mantissa = 0 then ['0']
      else
        let (digits, power) := shortest mantissa exponent
        positional digits power
    if negative then '-' :: size else size

end LambdaQuery.Number
