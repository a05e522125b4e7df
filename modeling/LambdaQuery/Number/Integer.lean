/-!
Whole numbers of 64 bits with a sign. Arithmetic is done on unbounded integers, and a result
that does not fit is told apart from one that does.
-/

namespace LambdaQuery.Number

/-- Whether an integer is one of the 64-bit numbers. -/
def fits (n : Int) : Bool :=
  -Int.pow 2 63 ≤ n && n < Int.pow 2 63

/-- The 64-bit number of that value, if there is one. -/
def ofInt? (n : Int) : Option Int64 :=
  if fits n then some (Int64.ofInt n) else none

def add? (a b : Int64) : Option Int64 :=
  ofInt? (a.toInt + b.toInt)

def sub? (a b : Int64) : Option Int64 :=
  ofInt? (a.toInt - b.toInt)

def mul? (a b : Int64) : Option Int64 :=
  ofInt? (a.toInt * b.toInt)

/-- The quotient, cut off toward zero. -/
def div? (a b : Int64) : Option Int64 :=
  ofInt? (a.toInt.tdiv b.toInt)

/-- The remainder of the quotient that is cut off toward zero. It does not fit where the quotient
does not. -/
def mod? (a b : Int64) : Option Int64 :=
  if fits (a.toInt.tdiv b.toInt) then ofInt? (a.toInt.tmod b.toInt) else none

def abs? (a : Int64) : Option Int64 :=
  ofInt? (max a.toInt (-a.toInt))

/-! Decimal text. -/

/-- The number that a run of ASCII digits denotes. -/
def digitsValue (cs : List Char) : Nat :=
  cs.foldl (fun n c => 10 * n + (c.toNat - '0'.toNat)) 0

/-- The number that a text denotes if it is made of ASCII digits, at least one. -/
def readNat? (cs : List Char) : Option Nat :=
  if cs.isEmpty || !cs.all Char.isDigit then none else some (digitsValue cs)

/-- Digits with an optional sign in front. -/
def readInt? : List Char → Option Int
  | '-' :: cs => (readNat? cs).map fun n => -n
  | '+' :: cs => (readNat? cs).map fun n => n
  | cs => (readNat? cs).map fun n => n

/-- A 64-bit number in decimal. -/
def readInt64? (cs : List Char) : Option Int64 :=
  (readInt? cs).bind ofInt?

/-- A number of 32 bits without a sign, though a plus may stand in front. -/
def readOrdinal? (cs : List Char) : Option Nat :=
  let digits := match cs with
    | '+' :: rest => rest
    | cs => cs
  (readNat? digits).filter (· < UInt32.size)

/-- A natural number in decimal. -/
def writeNat (n : Nat) : List Char :=
  Nat.toDigits 10 n

/-- An integer in decimal, with a minus in front if it is negative. -/
def writeInt (n : Int) : List Char :=
  if n < 0 then '-' :: writeNat n.natAbs else writeNat n.natAbs

def writeInt64 (n : Int64) : List Char :=
  writeInt n.toInt

end LambdaQuery.Number
