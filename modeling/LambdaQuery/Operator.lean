/-!
The binary operators: how they are written, how strongly they bind and what kind of operands
they take.
-/

namespace LambdaQuery

inductive Operator where
  | and | or
  | eq | ne
  | lt | le | gt | ge
  | add | sub | mul | div | mod
deriving DecidableEq, Repr

/-- What an operator asks of its operands. -/
inductive OperatorClass where
  /-- Both operands and the result are truth values. -/
  | logical
  /-- Operands of one type, a truth value as result. -/
  | equality
  /-- Operands of one ordered type, a truth value as result. -/
  | ordering
  /-- Operands of one type, which is the type of the result. -/
  | arithmetic
deriving DecidableEq, Repr

def OperatorClass.name : OperatorClass → String
  | logical => "Logical"
  | equality => "Equality"
  | ordering => "Ordering"
  | arithmetic => "Arithmetic"

namespace Operator

/-- Every operator, in the order in which they are listed to users. -/
def all : List Operator :=
  [and, or, eq, ne, lt, le, gt, ge, add, sub, mul, div, mod]

/-- How strongly an operator binds: a larger number binds tighter. -/
def precedence : Operator → Nat
  | or => 0
  | and => 1
  | eq | ne | lt | le | gt | ge => 2
  | add | sub => 3
  | mul | div | mod => 4

def kind : Operator → OperatorClass
  | and | or => .logical
  | eq | ne => .equality
  | lt | le | gt | ge => .ordering
  | add | sub | mul | div | mod => .arithmetic

/-- The operator as it is written in a query. -/
def symbol : Operator → String
  | and => "&&"
  | or => "||"
  | eq => "="
  | ne => "!="
  | lt => "<"
  | le => "<="
  | gt => ">"
  | ge => ">="
  | add => "+"
  | sub => "-"
  | mul => "*"
  | div => "/"
  | mod => "%"

/-- The operator's name in a tree dump. -/
def name : Operator → String
  | and => "And"
  | or => "Or"
  | eq => "Equal"
  | ne => "NotEqual"
  | lt => "LessThan"
  | le => "LessThanOrEqual"
  | gt => "GreaterThan"
  | ge => "GreaterThanOrEqual"
  | add => "Add"
  | sub => "Subtract"
  | mul => "Multiply"
  | div => "Divide"
  | mod => "Modulo"

theorem mem_all (op : Operator) : op ∈ all := by
  cases op <;> simp [all]

end Operator

end LambdaQuery
