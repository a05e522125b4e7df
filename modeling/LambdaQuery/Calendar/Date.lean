import LambdaQuery.Number.Integer
import LambdaQuery.Text.Blank

/-!
Days of the Gregorian calendar, carried on before its introduction, and their text: year, month
and day with a minus between them.
-/

namespace LambdaQuery

namespace Calendar

def isLeapYear (year : Int) : Bool :=
  year % 4 == 0 && (year % 100 != 0 || year % 400 == 0)

/-- The number of days in a month; none for what is no month. -/
def daysInMonth (year : Int) (month : Nat) : Nat :=
  match month with
  | 1 | 3 | 5 | 7 | 8 | 10 | 12 => 31
  | 4 | 6 | 9 | 11 => 30
  | 2 => if isLeapYear year then 29 else 28
  | _ => 0

def firstYear : Int := -262143

def lastYear : Int := 262142

/-- Whether a day exists and lies in the years that dates are kept for. -/
def exists? (year : Int) (month day : Nat) : Bool :=
  firstYear ≤ year && year ≤ lastYear && 1 ≤ day && day ≤ daysInMonth year month

end Calendar

/-- A day that exists. -/
structure Date where
  year : Int
  month : Nat
  day : Nat
  valid : Calendar.exists? year month day = true
deriving DecidableEq

namespace Date

open Calendar

def ofYmd? (year : Int) (month day : Nat) : Option Date :=
  if h : exists? year month day = true then some ⟨year, month, day, h⟩ else none

/-- The order of time. -/
def compare (a b : Date) : Ordering :=
  (Ord.compare a.year b.year).then ((Ord.compare a.month b.month).then (Ord.compare a.day b.day))

/-! Text. -/

/-- A number with zeros in front up to a width. -/
def padded (width n : Nat) : List Char :=
  let digits := Number.writeNat n
  List.replicate (width - digits.length) '0' ++ digits

/-- Four digits at least, with a sign unless the year has just four. -/
def yearText (year : Int) : List Char :=
  if 0 ≤ year ∧ year ≤ 9999 then padded 4 year.natAbs
  else (if year < 0 then '-' else '+') :: padded 4 year.natAbs

def toChars (d : Date) : List Char :=
  yearText d.year ++ '-' :: padded 2 d.month ++ '-' :: padded 2 d.day

def toString (d : Date) : String :=
  String.ofList d.toChars

/-- A number of at most `width` digits, and what follows it. White space may stand in front. -/
def readNumber? (width : Nat) (cs : List Char) : Option (Nat × List Char) :=
  let cs := Text.trimStart cs
  let digits := (cs.take width).takeWhile Char.isDigit
  if digits.isEmpty then none
  else some (Number.digitsValue digits, cs.drop digits.length)

/-- A year: with a sign in front any number of digits, otherwise four at most. -/
def readYear? (cs : List Char) : Option (Int × List Char) :=
  let signed (cs : List Char) : Option (Nat × List Char) :=
    let digits := cs.takeWhile Char.isDigit
    if digits.isEmpty then none
    else some (Number.digitsValue digits, cs.dropWhile Char.isDigit)
  match Text.trimStart cs with
  | '-' :: rest => (signed rest).map fun (n, rest) => (-n, rest)
  | '+' :: rest => (signed rest).map fun (n, rest) => (n, rest)
  | rest => (readNumber? 4 rest).map fun (n, rest) => (n, rest)

/-- A minus, and what follows it. -/
def readMinus? : List Char → Option (List Char)
  | '-' :: rest => some rest
  | _ => none

/-- The date that a text denotes. Nothing may follow the day. -/
def ofChars? (cs : List Char) : Option Date := do
  let (year, rest) ← readYear? cs
  let rest ← readMinus? rest
  let (month, rest) ← readNumber? 2 rest
  let rest ← readMinus? rest
  let (day, rest) ← readNumber? 2 rest
  if rest.isEmpty then ofYmd? year month day else none

end Date

end LambdaQuery
