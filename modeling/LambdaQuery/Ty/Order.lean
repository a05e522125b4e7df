import LambdaQuery.Ty

/-!
Which values can stand for which. A value converts to its own type, an `Int` to `Float`, a value
to its optional, and a sequence to the enumerable of its elements.
-/

namespace LambdaQuery.Ty

/-- Whether a value of type `source` can be used where `target` is expected. -/
def assignable (target source : Ty) : Bool :=
  target == source ||
    match target, source with
    | optional target, optional source => assignable target source
    | optional target, source => assignable target source
    | float, int => true
    | enumerable element, source => source.element? == some element
    | _, _ => false

/-- The type that both operands of an operator convert to. -/
def common? (a b : Ty) : Option Ty :=
  if assignable a b then some a
  else if assignable b a then some b
  else
    match a, b with
    | optional a, optional b => (common? a b).map orNull
    | optional a, b => (common? a b).map orNull
    | a, optional b => (common? a b).map orNull
    | _, _ => none
termination_by sizeOf a + sizeOf b

end LambdaQuery.Ty
