/-!
Binary numbers of 64 bits, taken apart. A finite one is a whole number times a power of two, and
the remainder of two of them is computed on those whole numbers, so that it is exact.
-/

namespace LambdaQuery.Number

inductive Parts where
  | notANumber
  | infinite (negative : Bool)
  /-- The number `mantissa * 2 ^ exponent`, up to its sign. -/
  | finite (negative : Bool) (mantissa : Nat) (exponent : Int)
deriving Repr

/-- The exponent of the least positive number. -/
def leastExponent : Int := -1074

def parts (x : Float) : Parts :=
  let bits := x.toBits.toNat
  let negative := bits / Nat.pow 2 63 % 2 == 1
  let exponent : Nat := bits / Nat.pow 2 52 % Nat.pow 2 11
  let fraction : Nat := bits % Nat.pow 2 52
  if exponent = Nat.pow 2 11 - 1 then
    if fraction = 0 then .infinite negative else .notANumber
  else if exponent = 0 then
    .finite negative fraction leastExponent
  else
    .finite negative (Nat.pow 2 52 + fraction) (exponent + leastExponent - 1)

/-- The remainder of the quotient that is cut off toward zero; it has the sign of the dividend. -/
def remainder (a b : Float) : Float :=
  match parts a, parts b with
  | .finite negative m p, .finite _ n q =>
    if n = 0 then 0.0 / 0.0
    else
      let low := min p q
      let r := m * Nat.pow 2 (p - low).toNat % (n * Nat.pow 2 (q - low).toNat)
      let size := (Float.ofNat r).scaleB low
      if negative then -size else size
  | .finite .., .infinite _ => a
  | _, _ => 0.0 / 0.0

end LambdaQuery.Number
