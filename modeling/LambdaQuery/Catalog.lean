import LambdaQuery.Shape
import LambdaQuery.Value

/-!
Catalogs: what the compiler asks about types. A catalog describes each type it knows by the
members, the literals and the operators of the type.
-/

namespace LambdaQuery

/-- A method of a type. The parameters leave out the value it is called on. -/
structure Method where
  name : String
  params : List Shape
  result : Shape
  function : HostFunction Value

/-- Why a text is no literal of a type. -/
inductive LiteralFault where
  | notBool | notInt | notFloat | notDate
  | noVariant
  /-- The type has no literals. -/
  | noLiterals
deriving DecidableEq, Repr

def LiteralFault.message : LiteralFault → String
  | notBool => "expected `true` or `false`"
  | notInt => "not an integer in range"
  | notFloat => "not a decimal number"
  | notDate => "expected a YYYY-MM-DD date"
  | noVariant => "no such variant"
  | noLiterals => "the type has no literal syntax"

structure LiteralError where
  ty : Ty
  text : String
  fault : LiteralFault
deriving DecidableEq, Repr

def LiteralError.message (e : LiteralError) : String :=
  "`" ++ e.text ++ "` is not a valid " ++ e.ty.toString ++ " literal: " ++ e.fault.message

/-- The type of an operation on operands of one type. -/
def Operator.resultTy (op : Operator) (operands : Ty) : Ty :=
  if op.kind = .arithmetic then operands else .bool

/-- What a catalog says of one type. -/
structure TypeInfo where
  ty : Ty
  properties : List (Property Value)
  methods : List Method
  /-- Read a literal other than `null`. -/
  parse : String → Except LiteralError Value
  /-- Write a value. -/
  stringify : Value → String
  /-- Whether an operator is defined on two operands of the type. -/
  supports : Operator → Bool
  /-- The expression for an operator on two operands of the type. -/
  binary : Operator → Expr → Expr → Option Expr

namespace TypeInfo

/-- A type whose values are written as they are displayed, and whose operators are applied as they
stand. -/
def plain (ty : Ty) (properties : List (Property Value)) (methods : List Method)
    (parse : String → Except LiteralError Value) (supports : Operator → Bool) : TypeInfo where
  ty := ty
  properties := properties
  methods := methods
  parse := parse
  stringify := Data.toString
  supports := supports
  binary := fun op left right =>
    if supports op then some (.binary op left right (op.resultTy ty)) else none

/-- Names are compared up to ASCII case. -/
def property? (i : TypeInfo) (name : String) : Option (Property Value) :=
  i.properties.find? fun p => Text.sameName p.name name

/-- All methods of a name, up to ASCII case. -/
def methodsNamed (i : TypeInfo) (name : String) : List Method :=
  i.methods.filter fun m => Text.sameName m.name name

/-- A value as an expression. -/
def constant (i : TypeInfo) (v : Value) : Expr :=
  .constant v i.ty

end TypeInfo

structure Catalog where
  /-- What is said of a type, unless it is unknown. -/
  describe : Ty → Option TypeInfo
  /-- The type that is written so, unless it is unknown. -/
  lookup : String → Option Ty

/-- The catalog with every description changed. -/
def Catalog.mapInfo (c : Catalog) (f : TypeInfo → TypeInfo) : Catalog :=
  { c with describe := fun ty => (c.describe ty).map f }

end LambdaQuery
