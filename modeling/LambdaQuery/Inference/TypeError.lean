import LambdaQuery.Catalog
import LambdaQuery.Hint
import LambdaQuery.Term

/-!
Type errors. Inference stops at the first one. It names the kind of node to blame and where that
node stands.
-/

namespace LambdaQuery

/-- What the type of an expression can be required to be. -/
inductive Requirement where
  | number | sequence | array | optional | lambda
  /-- A type with some property. -/
  | owner
deriving DecidableEq, Repr

def Requirement.describe : Requirement → String
  | number => "a number"
  | sequence => "a sequence"
  | array => "an array"
  | optional => "an optional value"
  | lambda => "a lambda"
  | owner => "a type with properties"

inductive TypeFault where
  | notALambda
  /-- Nothing gives a literal a type. -/
  | untypedLiteral (text : String)
  /-- Nothing gives an expression a type. -/
  | untyped
  | mismatch (expected found : Ty)
  | shapeMismatch (expected : Requirement) (found : Ty)
  /-- Two things are required that exclude each other. -/
  | overconstrained (first second : Requirement)
  | notArithmetic (ty : Ty)
  | invalidLiteral (error : LiteralError)
  | nullNotAllowed (ty : Ty)
  | incompatibleOperands (op : Operator) (left right : Ty)
  | unsupportedOperator (op : Operator) (ty : Ty)
  | missingProperty (ty : Ty) (name : String)
  | noMatchingFunction (name : String) (args : List Hint)
  | ambiguousCall (name : String) (candidates : List String)
  /-- The catalog does not know a type. -/
  | unknownType (ty : Ty)

namespace TypeFault

/-- A code that stays the same when a message changes. -/
def code : TypeFault → String
  | notALambda => "T0001"
  | untypedLiteral _ => "T0002"
  | untyped => "T0003"
  | mismatch .. => "T0004"
  | shapeMismatch .. => "T0005"
  | overconstrained .. => "T0006"
  | notArithmetic _ => "T0007"
  | invalidLiteral _ => "T0008"
  | nullNotAllowed _ => "T0009"
  | incompatibleOperands .. => "T0010"
  | unsupportedOperator .. => "T0011"
  | missingProperty .. => "T0012"
  | noMatchingFunction .. => "T0013"
  | ambiguousCall .. => "T0014"
  | unknownType _ => "T0015"

def message : TypeFault → String
  | notALambda => "query must be a lambda"
  | untypedLiteral text => "cannot infer a type for the literal `" ++ text ++ "`"
  | untyped => "cannot infer a type for this expression"
  | mismatch expected found => "expected " ++ expected.toString ++ ", found " ++ found.toString
  | shapeMismatch expected found =>
    "expected " ++ expected.describe ++ ", found " ++ found.toString
  | overconstrained first second =>
    "a value cannot be both " ++ first.describe ++ " and " ++ second.describe
  | notArithmetic ty => "expected a number, found " ++ ty.toString
  | invalidLiteral error => error.message
  | nullNotAllowed ty => "`null` is not a valid " ++ ty.toString
  | incompatibleOperands op left right =>
    "cannot apply `" ++ op.symbol ++ "` to " ++ left.toString ++ " and " ++ right.toString
  | unsupportedOperator op ty =>
    "operator `" ++ op.symbol ++ "` is not defined for " ++ ty.toString
  | missingProperty ty name => "type " ++ ty.toString ++ " has no property `" ++ name ++ "`"
  | noMatchingFunction name args =>
    "no function `" ++ name ++ "` takes (" ++ ", ".intercalate (args.map Hint.toString) ++ ")"
  | ambiguousCall name candidates =>
    "call to `" ++ name ++ "` matches " ++ Nat.repr candidates.length ++ " overloads"
  | unknownType ty => "type " ++ ty.toString ++ " is not described by the catalog"

/-- What could be done about it. -/
def help : TypeFault → Option String
  | notALambda => some "write the query as `x => ...`"
  | untypedLiteral _ => some "compare or combine the literal with a typed expression"
  | ambiguousCall _ candidates => some ("candidates: " ++ ", ".intercalate candidates)
  | nullNotAllowed ty => some ("use `" ++ ty.toString ++ "?` to allow null")
  | _ => none

end TypeFault

structure TypeError where
  fault : TypeFault
  node : NodeTag
  span : Span

/-- What is written under the blamed node in a report. -/
def TypeError.label (e : TypeError) : String :=
  match e.fault with
  | .mismatch _ found | .shapeMismatch _ found =>
    "this " ++ e.node.describe ++ " is " ++ found.toString
  | .missingProperty _ name => "no `" ++ name ++ "` here"
  | .noMatchingFunction .. | .ambiguousCall .. => "in this call"
  | .incompatibleOperands _ left right =>
    left.toString ++ " and " ++ right.toString ++ " have no common type"
  | _ => "in this " ++ e.node.describe

end LambdaQuery
