import LambdaQuery.Value
import LambdaQuery.Ty.Text
import LambdaQuery.Text.Quoted

/-!
Compiled expressions as text.
-/

namespace LambdaQuery

/-- Operators as they are written in a compiled expression, where equality is doubled. -/
def Operator.compiledSymbol : Operator → String
  | .eq => "=="
  | op => op.symbol

namespace Expr

/-- A constant; texts are quoted. -/
def constantChars : Value → List Char
  | .string s => (Text.quoteString s).toList
  | v => v.chars

mutual
def chars : Expr → List Char
  | param p => p.name.toList
  | constant v _ => constantChars v
  | property receiver p => chars receiver ++ '.' :: p.name.toList
  | binary op left right _ =>
    '(' :: chars left ++ ' ' :: op.compiledSymbol.toList ++ ' ' :: chars right ++ [')']
  | call function args _ =>
    match function.style, args with
    | .method, receiver :: rest =>
      chars receiver ++ '.' :: function.name.toList ++ '(' :: charsAll rest ++ [')']
    | _, args => function.name.toList ++ '(' :: charsAll args ++ [')']
  | convert operand ty => "Convert(".toList ++ chars operand ++ ", ".toList ++ ty.chars ++ [')']
  | lambda p body => p.name.toList ++ " => ".toList ++ chars body

def charsAll : List Expr → List Char
  | [] => []
  | [e] => chars e
  | e :: rest => chars e ++ ", ".toList ++ charsAll rest
end

def toString (e : Expr) : String :=
  String.ofList e.chars

end Expr

def LambdaExpr.toString (l : LambdaExpr) : String :=
  (Expr.lambda l.param l.body).toString

end LambdaQuery
