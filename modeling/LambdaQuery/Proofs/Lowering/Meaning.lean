import LambdaQuery.Evaluation
import LambdaQuery.Proofs.Typing

/-!
# What a typed query means

The rules say what comes of a typed query without compiling it. Parameters are looked up by their
symbols. Of a function only its behaviour is said: a lambda means every function value that, applied
to an argument, does what the body of the lambda does with the argument for the parameter.

Where a value is to be of another type than it has, it is converted. What that does to a value is
left open in the rules.
-/

namespace LambdaQuery

open Evaluation

/-- What comes of an evaluation, for each depth to which applications may nest. -/
abbrev Behaviour := Nat → Except EvalError Value

/-- Parameters with their types and values, the innermost first. -/
abbrev Valuables := List (Symbol × (Ty × Value))

/-- How a value of one type becomes one of another. -/
abbrev Conversion := (source target : Ty) → Value → Value

namespace Conversion

/-- Whole numbers become others where the type asks for that, unless the value was to be of that
type already. -/
def implicit : Conversion := fun source target v =>
  if source = target then v else v.widen target

/-- Whole numbers become others wherever the type asks for that. -/
def eager : Conversion := fun _ target v =>
  v.widen target

end Conversion

/-- An operator on the operands of a type. The right operand of a logical operator is looked at only
if the left one does not decide. Texts are ordered and joined as texts. -/
def Ty.operate (common : Ty) (op : Operator) (left right : Except EvalError Value) :
    Except EvalError Value :=
  match op.kind with
  | .logical => do
    let a ← (← left).asBool
    if a = (op == .and) then
      let b ← (← right).asBool
      .ok (.bool b)
    else
      .ok (.bool a)
  | kind => do
    let a ← left
    let b ← right
    match common, kind with
    | .string, .ordering =>
      let order ← compareTexts a b
      .ok (.bool (orderHolds op order))
    | .string, .arithmetic =>
      let joined ← concatTexts [a, b]
      .ok (.string joined)
    | _, _ => applyOperator op a b

/-- What a name that was resolved does with its arguments, unless it only says what to build. A
property is read from its only argument. -/
def Lowering.act? : Lowering → Option (List Value → Behaviour)
  | property p => some fun args depth => readProperty (applyClosure depth) p (args.headD .null)
  | function f => some fun args depth => runFunction (applyClosure depth) f args
  | custom _ => none

mutual
inductive Means (convert : Conversion) : Valuables → Term Typed → Behaviour → Prop
  | ident {σ : Valuables} {note : Typed} {symbol : Symbol} {ty : Ty} {v : Value} :
    σ.lookup symbol = some (ty, v) →
      Means convert σ (.ident note symbol) fun _ => .ok (convert ty note.ty v)
  | literal {σ : Valuables} {note : Typed} {text : Option String} {v : Value} :
    note.binding = .constant v →
      Means convert σ (.literal note text) fun _ => .ok (convert note.ty note.ty v)
  | lambda {σ : Valuables} {note : Typed} {param : Binder Typed} {body : Term Typed} {c : Closure} :
    (∀ v, Means convert ((param.symbol, (param.note.ty, v)) :: σ) body
        fun depth => applyClosure (depth + 1) c v) →
      Means convert σ (.lambda note param body) fun _ =>
        .ok (convert (.lambda [param.note.ty] body.ty) note.ty (.function c))
  | binary {σ : Valuables} {note : Typed} {op : Operator} {left right : Term Typed}
    {l r : Behaviour} {common : Ty} : Means convert σ left l → Means convert σ right r →
      left.ty.common? right.ty = some common →
      Means convert σ (.binary note op left right) fun depth => do
        let v ← common.operate op ((l depth).map (convert left.ty common))
          ((r depth).map (convert right.ty common))
        .ok (convert (op.resultTy common) note.ty v)
  | call {σ : Valuables} {note : Typed} {name : String} {args : List (Term Typed)} {o : Overload}
    {params : List Ty} {act : List Value → Behaviour} {values : Nat → Except EvalError (List Value)} :
    note.binding = .function o params → o.lowering.act? = some act →
      MeansAll convert σ args params values →
      Means convert σ (.call note name args) fun depth => do
        let v ← act (← values depth) depth
        .ok (convert ((o.resultTy? (args.map Term.ty)).getD note.ty) note.ty v)
  | member {σ : Valuables} {note : Typed} {receiver : Term Typed} {name : String} {o : Overload}
    {params : List Ty} {act : List Value → Behaviour} {values : Nat → Except EvalError (List Value)} :
    note.binding = .function o params → o.lowering.act? = some act →
      MeansAll convert σ [receiver] params values →
      Means convert σ (.member note receiver name) fun depth => do
        let v ← act (← values depth) depth
        .ok (convert ((o.resultTy? [receiver.ty]).getD note.ty) note.ty v)

/-- Arguments from left to right, each converted to the type of its parameter. -/
inductive MeansAll (convert : Conversion) :
    Valuables → List (Term Typed) → List Ty → (Nat → Except EvalError (List Value)) → Prop
  | nil {σ : Valuables} : MeansAll convert σ [] [] fun _ => .ok []
  | cons {σ : Valuables} {t : Term Typed} {rest : List (Term Typed)} {ty : Ty} {types : List Ty}
    {first : Behaviour} {others : Nat → Except EvalError (List Value)} :
    Means convert σ t first → MeansAll convert σ rest types others →
      MeansAll convert σ (t :: rest) (ty :: types) fun depth => do
        let v ← first depth
        let vs ← others depth
        .ok (convert t.ty ty v :: vs)
end

end LambdaQuery
