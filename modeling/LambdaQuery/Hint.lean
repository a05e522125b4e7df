import LambdaQuery.Shape

/-!
What is known of a type that is still being inferred: the type itself, or the demands made on it
so far. Hints let an overload be chosen before every argument has a type.
-/

namespace LambdaQuery

mutual
inductive Hint where
  | known (ty : Ty)
  | unknown (demands : List Demand)
deriving Repr

/-- One thing that is known of a type that is not known yet. -/
inductive Demand where
  | arithmetic
  | enumerableOf (element : Hint)
  | arrayOf (element : Hint)
  | optionalOf (inner : Hint)
  | lambda (params : List Hint) (result : Hint)
  | property (name : String) (hint : Hint)
deriving Repr
end

/-- How well a signature fits. -/
inductive Fit where
  | no
  /-- It fits after an implicit conversion. -/
  | loose
  | exact
deriving DecidableEq, Repr

def Fit.name : Fit → String
  | no => "No"
  | loose => "Loose"
  | exact => "Exact"

def Fit.rank : Fit → Nat
  | no => 0
  | loose => 1
  | exact => 2

/-- The worse of two fits. -/
def Fit.min (a b : Fit) : Fit :=
  if b.rank < a.rank then b else a

namespace Shape

/-- The shape without the optionals around it. -/
def peel : Shape → Shape
  | optional inner => inner.peel
  | s => s

end Shape

namespace Hint

/-- Nothing is known. -/
def nothing : Hint := unknown []

def known? : Hint → Option Ty
  | known ty => some ty
  | unknown _ => none

mutual
/-- Whether something of which this much is known may be passed where the shape is expected. -/
def fitsParam : Hint → Shape → Bindings → Bool × Bindings
  | known ty, s, b => s.accepts ty b
  | unknown demands, s, b => allFit demands s b

/-- Whether every demand allows the shape, up to the first that does not. -/
def allFit : List Demand → Shape → Bindings → Bool × Bindings
  | [], _, b => (true, b)
  | d :: rest, s, b =>
    match demandFits d s b with
    | (true, b) => allFit rest s b
    | (false, b) => (false, b)

/-- Whether a demand allows the shape. A plain value converts to its optional, so that optionals
around the shape are passed over unless the demand is for one. -/
def demandFits : Demand → Shape → Bindings → Bool × Bindings
  | .property .., _, b => (true, b)
  | .arithmetic, s, b =>
    match s.peel with
    | .generic .. => (true, b)
    | .concrete ty => (ty.isArithmetic, b)
    | _ => (false, b)
  | .enumerableOf h, s, b =>
    match s.peel with
    | .generic _ arithmetic => (!arithmetic, b)
    | .concrete ty =>
      match ty.element? with
      | some e => fitsParam h (.concrete e) b
      | none => (false, b)
    | .enumerable e | .array e => fitsParam h e b
    | _ => (false, b)
  | .arrayOf h, s, b =>
    match s.peel with
    | .generic _ arithmetic => (!arithmetic, b)
    | .concrete (.array e) => fitsParam h (.concrete e) b
    | .enumerable e | .array e => fitsParam h e b
    | _ => (false, b)
  | .optionalOf h, s, b =>
    match s with
    | .generic .. => (true, b)
    | .concrete ty => fitsParam h (.concrete ty.underlying) b
    | .optional inner => fitsParam h inner b
    | _ => (false, b)
  | .lambda params result, s, b =>
    match s.peel with
    | .generic _ arithmetic => (!arithmetic, b)
    | .concrete (.lambda types ty) =>
      if types.length = params.length then
        match allFitEach params (types.map .concrete) b with
        | (true, b) => fitsParam result (.concrete ty) b
        | (false, b) => (false, b)
      else
        (false, b)
    | .lambda shapes shape =>
      if shapes.length = params.length then
        match allFitEach params shapes b with
        | (true, b) => fitsParam result shape b
        | (false, b) => (false, b)
      else
        (false, b)
    | _ => (false, b)

/-- Each hint against the shape at its place, up to the first that does not fit. -/
def allFitEach : List Hint → List Shape → Bindings → Bool × Bindings
  | h :: hints, s :: shapes, b =>
    match fitsParam h s b with
    | (true, b) => allFitEach hints shapes b
    | (false, b) => (false, b)
  | _, _, b => (true, b)
end

/-- How well a result of the shape can be used where this much is known of what is expected. Only
an exact match binds variables. -/
def fitsResult (h : Hint) (s : Shape) (b : Bindings) : Fit × Bindings :=
  match h with
  | known ty =>
    match s.isMatch ty b with
    | (true, b) => (.exact, b)
    | (false, _) =>
      match s.instantiate? b with
      | some result => (if ty.assignable result then .loose else .no, b)
      | none => (.no, b)
  | unknown _ =>
    match fitsParam h s b with
    | (true, b) => (.exact, b)
    | (false, b) => (.no, b)

mutual
def chars : Hint → List Char
  | known ty => ty.chars
  | unknown demands => demandsChars false demands

/-- The first demand that says something of the structure; failing that, whether a number is
demanded. -/
def demandsChars (number : Bool) : List Demand → List Char
  | [] => if number then "number".toList else ['_']
  | .arithmetic :: rest => demandsChars true rest
  | .property .. :: rest => demandsChars number rest
  | .enumerableOf h :: _ => "Enumerable<".toList ++ chars h ++ ['>']
  | .arrayOf h :: _ => chars h ++ "[]".toList
  | .optionalOf h :: _ => chars h ++ ['?']
  | .lambda params result :: _ => '(' :: charsAll params ++ ") => ".toList ++ chars result

def charsAll : List Hint → List Char
  | [] => []
  | [h] => chars h
  | h :: rest => chars h ++ ", ".toList ++ charsAll rest
end

def toString (h : Hint) : String :=
  String.ofList h.chars

end Hint

end LambdaQuery
