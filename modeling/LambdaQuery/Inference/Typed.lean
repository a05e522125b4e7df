import LambdaQuery.Inference.Work

/-!
Typed queries: every node has its type, and literals, calls and members have what they stand for.
-/

namespace LambdaQuery

/-- What a node stands for. -/
inductive Binding where
  /-- Nothing but itself. -/
  | none
  /-- The value of a literal. -/
  | constant (value : Value)
  /-- The overload of a call or a member, and the types that the arguments convert to. -/
  | function (overload : Overload) (params : List Ty)

structure Typed where
  span : Span
  ty : Ty
  binding : Binding

namespace Solver

/-- The value of a literal of known type. -/
def literalValue (catalog : Catalog) (s : Solver) (slot : Nat) (ty : Ty) :
    Option String → Except TypeError Value
  | none => if ty.acceptsNull then .ok .null else .error (s.blame slot (.nullNotAllowed ty))
  | some text =>
    match catalog.describe ty with
    | none => .error (s.blame slot (.unknownType ty))
    | some info => (info.parse text).mapError fun e => s.blame slot (.invalidLiteral e)

/-- An operator has to be defined on the type that both operands convert to. -/
def checkOperator (catalog : Catalog) (s : Solver) (slot : Nat) (op : Operator) (left right : Ty) :
    Except TypeError Unit :=
  match left.common? right with
  | none => .error (s.blame slot (.incompatibleOperands op left right))
  | some ty =>
    match catalog.describe ty with
    | none => .error (s.blame slot (.unknownType ty))
    | some info =>
      if info.supports op then .ok () else .error (s.blame slot (.unsupportedOperator op ty))

/-- The type of a slot, if inference found one. -/
def typeOf (s : Solver) (slot : Nat) (fault : TypeFault) : Except TypeError Ty :=
  match s.known? slot with
  | some ty => .ok ty
  | none => .error (s.blame slot fault)

/-- The overload that was found for a node, with the parameter types for its arguments. -/
def functionBinding (s : Solver) (slot : Nat) (args : List Ty) : Except TypeError Binding :=
  match s.overload? slot with
  | some o => .ok (.function o (o.paramTys args))
  | none => .error (s.blame slot .untyped)

mutual
/-- Put the types into the tree. `binders` are the slots of the parameters. -/
def typed (catalog : Catalog) (s : Solver) (binders : List (Symbol × Nat)) :
    Term Slotted → Except TypeError (Term Typed)
  | .lambda n param body => do
    let body ← typed catalog s binders body
    let paramTy ← s.typeOf param.note.slot .untyped
    let ty ← s.typeOf n.slot .untyped
    return .lambda ⟨n.span, ty, .none⟩ ⟨param.symbol, ⟨param.note.span, paramTy, .none⟩⟩ body
  | .binary n op left right => do
    let left ← typed catalog s binders left
    let right ← typed catalog s binders right
    s.checkOperator catalog n.slot op left.note.ty right.note.ty
    let ty ← s.typeOf n.slot .untyped
    return .binary ⟨n.span, ty, .none⟩ op left right
  | .call n name args => do
    let args ← typedAll catalog s binders args
    let ty ← s.typeOf n.slot .untyped
    let binding ← s.functionBinding n.slot (args.map (·.note.ty))
    return .call ⟨n.span, ty, binding⟩ name args
  | .member n receiver name => do
    let receiver ← typed catalog s binders receiver
    let ty ← s.typeOf n.slot .untyped
    let binding ← s.functionBinding n.slot [receiver.note.ty]
    return .member ⟨n.span, ty, binding⟩ receiver name
  | .ident n symbol => do
    let ty ← s.typeOf ((binders.lookup symbol).getD n.slot) .untyped
    return .ident ⟨n.span, ty, .none⟩ symbol
  | .literal n text => do
    let ty ← s.typeOf n.slot (.untypedLiteral (text.getD "null"))
    let value ← s.literalValue catalog n.slot ty text
    return .literal ⟨n.span, ty, .constant value⟩ text

def typedAll (catalog : Catalog) (s : Solver) (binders : List (Symbol × Nat)) :
    List (Term Slotted) → Except TypeError (List (Term Typed))
  | [] => return []
  | t :: rest => do
    let t ← typed catalog s binders t
    let rest ← typedAll catalog s binders rest
    return t :: rest
end

end Solver

end LambdaQuery
