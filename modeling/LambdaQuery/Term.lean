import LambdaQuery.Span
import LambdaQuery.Operator

/-!
The tree of a query. Every node and every parameter carries a note, which is what the stage
that built the tree knows about it: where it stands in the text, its type slot, its type.
-/

namespace LambdaQuery

/-- One place where a parameter is bound. Two lambdas that call their parameter alike have
different symbols; the name is kept for display. -/
structure Symbol where
  id : Nat
  name : String
deriving Repr

instance : BEq Symbol where
  beq a b := a.id == b.id

/-- The parameter of a lambda, where it is bound. -/
structure Binder (α : Type) where
  symbol : Symbol
  note : α
deriving Repr

inductive Term (α : Type) where
  /-- `parameter => body` -/
  | lambda (note : α) (param : Binder α) (body : Term α)
  /-- `left op right` -/
  | binary (note : α) (op : Operator) (left right : Term α)
  /-- `name(args)` -/
  | call (note : α) (name : String) (args : List (Term α))
  /-- `receiver.name` -/
  | member (note : α) (receiver : Term α) (name : String)
  /-- A use of a parameter. -/
  | ident (note : α) (symbol : Symbol)
  /-- The text of a literal, which is not read until its type is known; `none` is `null`. -/
  | literal (note : α) (text : Option String)
deriving Repr

/-- The kinds of node, for messages that name one. -/
inductive NodeTag where
  | lambda | parameter | binary | call | member | ident | literal
deriving DecidableEq, Repr

def NodeTag.describe : NodeTag → String
  | lambda => "lambda"
  | parameter => "lambda parameter"
  | binary => "binary expression"
  | call => "function call"
  | member => "member access"
  | ident => "identifier"
  | literal => "constant"

namespace Term

variable {α : Type}

def note : Term α → α
  | lambda note .. | binary note .. | call note .. | member note .. | ident note _
  | literal note _ => note

def tag : Term α → NodeTag
  | lambda .. => .lambda
  | binary .. => .binary
  | call .. => .call
  | member .. => .member
  | ident .. => .ident
  | literal .. => .literal

/-- The nodes right below, from left to right. -/
def children : Term α → List (Term α)
  | lambda _ _ body => [body]
  | binary _ _ left right => [left, right]
  | call _ _ args => args
  | member _ receiver _ => [receiver]
  | ident .. | literal .. => []

/-- The same tree under another note at its root. -/
def withNote (note : α) : Term α → Term α
  | lambda _ param body => lambda note param body
  | binary _ op left right => binary note op left right
  | call _ name args => call note name args
  | member _ receiver name => member note receiver name
  | ident _ symbol => ident note symbol
  | literal _ text => literal note text

end Term

end LambdaQuery
