import LambdaQuery.Operator
import LambdaQuery.Record
import LambdaQuery.Ty
import LambdaQuery.Calendar.Date

/-!
Compiled expressions and the values they compute. The two belong together: an expression holds
the values of its constants, and a function value is an expression together with the values of
the parameters around it.

What a host function computes is named, not given as code, so that expressions are plain data.
-/

namespace LambdaQuery

/-- One variant of an enum. Variants are ordered by ordinal. -/
structure EnumValue where
  enumName : String
  name : String
  ordinal : Nat
deriving DecidableEq, Repr

/-- The parameter of a compiled lambda. The number tells parameters apart; the name is for
display. -/
structure Param where
  id : Nat
  name : String
  ty : Ty
deriving DecidableEq, Repr

/-- What a host function computes from its arguments. The first argument of a method is the value
it is called on. -/
inductive Body (V : Type) where
  /-- The number of characters of a text. -/
  | length
  | startsWith | endsWith | includes
  /-- Where a text first occurs in another, counted in characters; -1 if nowhere. -/
  | indexOf
  | toLower | toUpper | trim
  /-- The order of two texts as -1, 0 or 1; null comes first. -/
  | compareTexts
  /-- The texts one after the other; null counts as empty. -/
  | concat
  | year | month | day
  | hasValue | valueOf
  /-- The first argument, or the second if the first is null. -/
  | orElse
  | count | isNonempty
  /-- Whether some element, or every element, passes a test. -/
  | anyPasses | allPass
  | countPassing
  /-- Whether a value is among the elements. -/
  | member
  | filter | map
  /-- The sum of the elements, from a zero that is whole or not. -/
  | sumWhole | sumFloat
  /-- The first of the least, or of the greatest, elements. -/
  | least | greatest
  | absWhole | absFloat
  /-- The same value whatever the arguments. -/
  | constant (value : V)
  /-- The argument at a place. -/
  | argument (index : Nat)
  /-- The list of all arguments. -/
  | pack
  /-- Twice a whole number, wrapping around at 64 bits. -/
  | double
  /-- The second argument applied to the first. -/
  | apply
  /-- Always fails, as on an empty sequence. -/
  | fail
deriving Repr

/-- How a call is written: `receiver.name(args)` or `name(args)`. -/
inductive CallStyle where
  | method | free
deriving DecidableEq, Repr

structure HostFunction (V : Type) where
  name : String
  style : CallStyle
  body : Body V
deriving Repr

/-- How a property is read from its instance. -/
inductive Getter (V : Type) where
  /-- The field of a record of the same name. -/
  | field
  | computed (function : HostFunction V)
deriving Repr

structure Property (V : Type) where
  name : String
  ty : Ty
  getter : Getter V
deriving Repr

/-- Values, with functions of type `F`. -/
inductive Data (F : Type) where
  | null
  | bool (b : Bool)
  | int (n : Int64)
  | float (x : Float)
  | string (s : String)
  | date (d : Date)
  | enum (e : EnumValue)
  | list (items : List (Data F))
  | record (r : Record (Data F))
  | function (f : F)

mutual
/-- A lambda and the values of the parameters around it, the innermost first. -/
structure Closure where
  param : Param
  body : Expr
  env : List (Nat × Data Closure)

inductive Expr where
  | param (p : Param)
  | constant (value : Data Closure) (ty : Ty)
  | property (receiver : Expr) (property : Property (Data Closure))
  | binary (op : Operator) (left right : Expr) (ty : Ty)
  | call (function : HostFunction (Data Closure)) (args : List Expr) (ty : Ty)
  /-- An implicit conversion. -/
  | convert (operand : Expr) (ty : Ty)
  | lambda (param : Param) (body : Expr)
end

/-- The values of compiled expressions. -/
abbrev Value := Data Closure

instance : Inhabited Value := ⟨.null⟩

instance : Inhabited Expr := ⟨.constant .null .string⟩

/-- A compiled query. -/
structure LambdaExpr where
  param : Param
  body : Expr

namespace Expr

def ty : Expr → Ty
  | param p => p.ty
  | constant _ ty | binary _ _ _ ty | call _ _ ty | convert _ ty => ty
  | property _ p => p.ty
  | lambda p body => .lambda [p.ty] (ty body)

/-- The expression as one of the given type; nothing is done if it has that type. -/
def convertTo (e : Expr) (ty : Ty) : Expr :=
  if e.ty = ty then e else convert e ty

end Expr

namespace LambdaExpr

def resultTy (l : LambdaExpr) : Ty :=
  l.body.ty

def ty (l : LambdaExpr) : Ty :=
  .lambda [l.param.ty] l.resultTy

end LambdaExpr

end LambdaQuery
