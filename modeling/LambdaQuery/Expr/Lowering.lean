import LambdaQuery.Inference.Typed

/-!
Compiled expressions from typed queries. Conversions are made explicit, operators are built as the
catalog says and calls as their overloads say.
-/

namespace LambdaQuery

inductive LoweringFault where
  /-- A parameter is used outside its lambda. -/
  | unboundParameter (name : String)
  /-- The catalog does not know a type. -/
  | unknownType (ty : Ty)
  /-- The catalog does not build an operator. -/
  | unsupportedOperator (op : Operator) (ty : Ty)
  /-- A call or a member stands for nothing, or a literal has no value. -/
  | missingBinding
  /-- An overload does not take so many arguments. -/
  | arityMismatch (name : String) (found : Nat)
deriving DecidableEq, Repr

structure LoweringError where
  fault : LoweringFault
  span : Span
deriving DecidableEq, Repr

/-- A code that stays the same when a message changes. -/
def LoweringFault.code : LoweringFault → String
  | unboundParameter _ => "G0001"
  | unknownType _ => "G0002"
  | unsupportedOperator .. => "G0003"
  | missingBinding => "G0004"
  | arityMismatch .. => "G0005"

def LoweringFault.message : LoweringFault → String
  | unboundParameter name => "parameter `" ++ name ++ "` is used outside its lambda"
  | unknownType ty => "type " ++ ty.toString ++ " is not described by the catalog"
  | unsupportedOperator op ty => "cannot build `" ++ op.symbol ++ "` for " ++ ty.toString
  | missingBinding => "node was not resolved by inference"
  | arityMismatch name found =>
    "`" ++ name ++ "` cannot be lowered with " ++ Nat.repr found ++ " argument(s)"

/-- The name of the parameter with a number: `a` to `z`, then `a2` to `z2`, and so on. -/
def Param.nameOf (id : Nat) : String :=
  let letter := Char.ofNat ('a'.toNat + id % 26)
  String.ofList (letter :: if id / 26 = 0 then [] else Number.writeNat (id / 26 + 1))

/-- The parameters made so far: the next number, and what each symbol became, the latest first. -/
structure ParamSupply where
  next : Nat
  made : List (Symbol × Param)

namespace ParamSupply

def start : ParamSupply := ⟨0, []⟩

/-- The parameter that a binder becomes. -/
def param (p : ParamSupply) (b : Binder Typed) : Param :=
  ⟨p.next, Param.nameOf p.next, b.note.ty⟩

/-- What is made after a binder. -/
def bind (p : ParamSupply) (b : Binder Typed) : ParamSupply :=
  ⟨p.next + 1, (b.symbol, p.param b) :: p.made⟩

end ParamSupply

namespace Expr

def fault {α : Type} (n : Typed) (fault : LoweringFault) : Except LoweringError α :=
  .error ⟨fault, n.span⟩

def describe (catalog : Catalog) (n : Typed) (ty : Ty) : Except LoweringError TypeInfo :=
  match catalog.describe ty with
  | some info => .ok info
  | none => fault n (.unknownType ty)

/-- The body of a lambda of the given type. -/
def lambdaBody (body : Expr) (ty : Ty) : Expr :=
  match ty with
  | .lambda _ result => body.convertTo result
  | _ => body

/-- The expression for an operator; both operands are converted to their common type. -/
def ofBinary (catalog : Catalog) (n : Typed) (op : Operator) (leftTy rightTy : Ty)
    (left right : Expr) : Except LoweringError Expr :=
  match leftTy.common? rightTy with
  | none => fault n (.unsupportedOperator op leftTy)
  | some common => do
    let info ← describe catalog n common
    match info.binary op (left.convertTo common) (right.convertTo common) with
    | some e => return e
    | none => fault n (.unsupportedOperator op common)

/-- The expression for a call with converted arguments. -/
def ofCall (n : Typed) (o : Overload) (argTys : List Ty) (args : List Expr) :
    Except LoweringError Expr :=
  match o.build? args ((o.resultTy? argTys).getD n.ty) with
  | some e => .ok e
  | none => fault n (.arityMismatch o.name args.length)

mutual
/-- The expression for a node, and the parameters made by then. Every node is converted to the
type that inference found for it. -/
def ofTyped (catalog : Catalog) : Term Typed → ParamSupply →
    Except LoweringError (Expr × ParamSupply)
  | .lambda n binder body, p => do
    let (body, p') ← ofTyped catalog body (p.bind binder)
    return ((lambda (p.param binder) (lambdaBody body n.ty)).convertTo n.ty, p')
  | .ident n symbol, p =>
    match p.made.lookup symbol with
    | some made => return ((param made).convertTo n.ty, p)
    | none => fault n (.unboundParameter symbol.name)
  | .literal n _, p =>
    match n.binding with
    | .constant value => do
      let info ← describe catalog n n.ty
      return ((info.constant value).convertTo n.ty, p)
    | _ => fault n .missingBinding
  | .binary n op left right, p => do
    let (l, p) ← ofTyped catalog left p
    let (r, p) ← ofTyped catalog right p
    let e ← ofBinary catalog n op left.note.ty right.note.ty l r
    return (e.convertTo n.ty, p)
  | .call n _ args, p =>
    match n.binding with
    | .function o params => do
      let (converted, p) ← ofArgs catalog args params p
      let e ← ofCall n o (args.map (·.note.ty)) converted
      return (e.convertTo n.ty, p)
    | _ => fault n .missingBinding
  | .member n receiver _, p =>
    match n.binding with
    | .function o (ty :: _) => do
      let (r, p) ← ofTyped catalog receiver p
      let e ← ofCall n o [receiver.note.ty] [r.convertTo ty]
      return (e.convertTo n.ty, p)
    | .function o [] => do
      let e ← ofCall n o [receiver.note.ty] []
      return (e.convertTo n.ty, p)
    | _ => fault n .missingBinding

/-- The arguments, each converted to its parameter's type. -/
def ofArgs (catalog : Catalog) : List (Term Typed) → List Ty → ParamSupply →
    Except LoweringError (List Expr × ParamSupply)
  | t :: rest, ty :: types, p => do
    let (e, p) ← ofTyped catalog t p
    let (es, p) ← ofArgs catalog rest types p
    return (e.convertTo ty :: es, p)
  | _, _, p => return ([], p)
end

end Expr

/-- The compiled form of a typed query. -/
def LambdaExpr.ofTyped (catalog : Catalog) : Term Typed → Except LoweringError LambdaExpr
  | .lambda n binder body => do
    let (body, _) ← Expr.ofTyped catalog body (ParamSupply.start.bind binder)
    return ⟨ParamSupply.start.param binder, Expr.lambdaBody body n.ty⟩
  | t => Expr.fault t.note .missingBinding

end LambdaQuery
