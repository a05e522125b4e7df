import LambdaQuery.Expr
import LambdaQuery.Number.Shortest

/-!
Values: their kinds, their equality and order, and their text.
-/

namespace LambdaQuery

/-- The kinds of value, as messages name them. -/
inductive ValueKind where
  | null | bool | int | float | string | date | enum | sequence | record | function
deriving DecidableEq, Repr

def ValueKind.describe : ValueKind → String
  | null => "null"
  | bool => "Bool"
  | int => "Int"
  | float => "Float"
  | string => "String"
  | date => "Date"
  | enum => "enum"
  | sequence => "sequence"
  | record => "record"
  | function => "function"

namespace Data

variable {F : Type}

def kind : Data F → ValueKind
  | null => .null
  | bool _ => .bool
  | int _ => .int
  | float _ => .float
  | string _ => .string
  | date _ => .date
  | enum _ => .enum
  | list _ => .sequence
  | record _ => .record
  | function .. => .function

def isNull : Data F → Bool
  | null => true
  | _ => false

/-- The order of two binary numbers; there is none if one of them is no number. -/
def compareFloats (a b : Float) : Option Ordering :=
  if a < b then some .lt else if a == b then some .eq else if b < a then some .gt else none

/-- The order of two values of one kind. Whole numbers compare with the others by value; null and
values of unrelated kinds have no order. -/
def compare? : Data F → Data F → Option Ordering
  | bool a, bool b => some (compare a b)
  | int a, int b => some (compare a.toInt b.toInt)
  | float a, float b => compareFloats a b
  | int a, float b => compareFloats a.toFloat b
  | float a, int b => compareFloats a b.toFloat
  | string a, string b => some (compare a b)
  | date a, date b => some (a.compare b)
  | enum a, enum b => if a.enumName = b.enumName then some (compare a.ordinal b.ordinal) else none
  | _, _ => none

mutual
/-- Equality of values. Two nulls are equal, and functions never are. -/
def equal : Data F → Data F → Bool
  | null, null => true
  | list as, list bs => equalAll as bs
  | record ⟨type, fields⟩, record ⟨type', fields'⟩ =>
    type == type' && equalFields fields fields'
  | enum a, enum b => a == b
  | function .., _ => false
  | _, function .. => false
  | a, b => a.compare? b == some .eq

def equalAll : List (Data F) → List (Data F) → Bool
  | [], [] => true
  | a :: as, b :: bs => equal a b && equalAll as bs
  | _, _ => false

/-- Fields are compared in order, with their names as they are spelled. -/
def equalFields : List (String × Data F) → List (String × Data F) → Bool
  | [], [] => true
  | (name, a) :: as, (name', b) :: bs => name == name' && equal a b && equalFields as bs
  | _, _ => false
end

mutual
def chars : Data F → List Char
  | null => "null".toList
  | bool b => (if b then "true" else "false").toList
  | int n => Number.writeInt64 n
  | float x => Number.writeFloat x
  | string s => s.toList
  | date d => d.toChars
  | enum e => e.name.toList
  | list items => '[' :: charsAll items ++ [']']
  | record ⟨type, fields⟩ => type.toList ++ " \x7b".toList ++ fieldChars " " fields ++ " \x7d".toList
  | function .. => "<lambda>".toList

def charsAll : List (Data F) → List Char
  | [] => []
  | [item] => chars item
  | item :: rest => chars item ++ ", ".toList ++ charsAll rest

/-- The fields, the first one behind the given separator and the others behind commas. -/
def fieldChars (separator : String) : List (String × Data F) → List Char
  | [] => []
  | (name, value) :: rest =>
    separator.toList ++ name.toList ++ ": ".toList ++ chars value ++ fieldChars ", " rest
end

def toString (v : Data F) : String :=
  String.ofList v.chars

end Data

end LambdaQuery
