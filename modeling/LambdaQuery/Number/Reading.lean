import LambdaQuery.Number.Integer

/-!
Reading a binary number from decimal text: digits with an optional point, an optional exponent
and an optional sign, or one of the names of infinity and of the value that is no number. The
result is the binary number nearest to the decimal.
-/

namespace LambdaQuery.Number

/-- A decimal: `digits * 10 ^ power`. -/
structure Scientific where
  digits : Nat
  power : Int

/-- The nearest binary number. Powers far out of range are settled by the size alone. -/
def Scientific.toFloat (s : Scientific) : Float :=
  if s.digits = 0 then 0.0
  else
    let magnitude := s.power + (writeNat s.digits).length
    if 400 < magnitude then 1.0 / 0.0
    else if magnitude < -400 then 0.0
    else Float.ofScientific s.digits (s.power < 0) s.power.natAbs

/-- An exponent with an optional sign, behind its mark. -/
def readExponent? : List Char → Option Int
  | [] => some 0
  | c :: cs => if c == 'e' || c == 'E' then readInt? cs else none

/-- Digits on either side of an optional point, and an exponent. -/
def readScientific? (cs : List Char) : Option Scientific :=
  let whole := cs.takeWhile Char.isDigit
  let rest := cs.dropWhile Char.isDigit
  let (fraction, rest) := match rest with
    | '.' :: more => (more.takeWhile Char.isDigit, more.dropWhile Char.isDigit)
    | rest => ([], rest)
  if whole.isEmpty && fraction.isEmpty then none
  else (readExponent? rest).map fun e => ⟨digitsValue (whole ++ fraction), e - fraction.length⟩

/-- A number without a sign. -/
def readMagnitude? (cs : List Char) : Option Float :=
  let name := cs.map Char.toLower
  if name == "inf".toList || name == "infinity".toList then some (1.0 / 0.0)
  else if name == "nan".toList then some (0.0 / 0.0)
  else (readScientific? cs).map Scientific.toFloat

/-- The binary number that a text denotes. -/
def readFloat? : List Char → Option Float
  | '-' :: cs => (readMagnitude? cs).map fun x => -x
  | '+' :: cs => readMagnitude? cs
  | cs => readMagnitude? cs

end LambdaQuery.Number
