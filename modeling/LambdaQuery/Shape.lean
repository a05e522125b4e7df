import LambdaQuery.Ty.Order
import LambdaQuery.Ty.Text

/-!
Shapes: types with holes, for the parameters and results of functions. A hole is a generic
variable of one signature; wherever it occurs in the signature it stands for the same type.
-/

namespace LambdaQuery

inductive Shape where
  | concrete (ty : Ty)
  /-- A variable, which may be restricted to numbers. -/
  | generic (index : Nat) (arithmetic : Bool)
  /-- Any sequence of such elements. -/
  | enumerable (element : Shape)
  | array (element : Shape)
  | optional (inner : Shape)
  | lambda (params : List Shape) (result : Shape)
deriving Repr, Inhabited

/-- The types that the variables of a signature stand for so far. -/
structure Bindings where
  entries : List (Nat × Ty)
deriving Repr, DecidableEq

namespace Bindings

def empty : Bindings := ⟨[]⟩

def get? (b : Bindings) (index : Nat) : Option Ty :=
  b.entries.lookup index

/-- Let a variable stand for a type. A variable that stands for a type already is only compared. -/
def bind (b : Bindings) (index : Nat) (ty : Ty) : Bool × Bindings :=
  match b.get? index with
  | some bound => (bound == ty, b)
  | none => (true, ⟨(index, ty) :: b.entries⟩)

end Bindings

namespace Shape

mutual
/-- One more than the largest variable that occurs; zero if none does. -/
def genericCount : Shape → Nat
  | concrete _ => 0
  | generic index _ => index + 1
  | enumerable s | array s | optional s => genericCount s
  | lambda params result => max (genericCountAll params) (genericCount result)

def genericCountAll : List Shape → Nat
  | [] => 0
  | s :: rest => max (genericCount s) (genericCountAll rest)
end

mutual
/-- Whether a type has the shape, either as it is or, if `converting`, after an implicit
conversion. Variables that meet a type are bound to it, and stay bound if a later part fails. -/
def fits (converting : Bool) : Shape → Ty → Bindings → Bool × Bindings
  | concrete expected, ty, b => (if converting then expected.assignable ty else expected == ty, b)
  | generic index arithmetic, ty, b =>
    if arithmetic && !ty.isArithmetic then (false, b) else b.bind index ty
  | enumerable element, ty, b =>
    match ty.element? with
    | some e => fits false element e b
    | none => (false, b)
  | array element, .array e, b => fits false element e b
  | optional inner, .optional ty, b => fits false inner ty b
  | optional inner, ty, b => if converting then fits false inner ty b else (false, b)
  | lambda params result, .lambda types ty, b =>
    if params.length = types.length then
      match fitsAll params types b with
      | (true, b) => fits true result ty b
      | (false, b) => (false, b)
    else
      (false, b)
  | _, _, b => (false, b)

/-- The parameters of a lambda, each as it is, up to the first that fails. -/
def fitsAll : List Shape → List Ty → Bindings → Bool × Bindings
  | s :: shapes, ty :: types, b =>
    match fits false s ty b with
    | (true, b) => fitsAll shapes types b
    | (false, b) => (false, b)
  | _, _, b => (true, b)
end

/-- Whether a value of the type can be passed where the shape is expected. -/
def accepts (s : Shape) (ty : Ty) (b : Bindings) : Bool × Bindings :=
  fits true s ty b

/-- Whether the type has exactly the shape. -/
def isMatch (s : Shape) (ty : Ty) (b : Bindings) : Bool × Bindings :=
  fits false s ty b

mutual
/-- The type, once every variable in it stands for one. -/
def instantiate? (b : Bindings) : Shape → Option Ty
  | concrete ty => some ty
  | generic index _ => b.get? index
  | enumerable s => (instantiate? b s).map .enumerable
  | array s => (instantiate? b s).map .array
  | optional s => (instantiate? b s).map .orNull
  | lambda params result =>
    match instantiateAll? b params, instantiate? b result with
    | some types, some ty => some (.lambda types ty)
    | _, _ => none

def instantiateAll? (b : Bindings) : List Shape → Option (List Ty)
  | [] => some []
  | s :: rest =>
    match instantiate? b s, instantiateAll? b rest with
    | some ty, some types => some (ty :: types)
    | _, _ => none
end

/-- Variables are named by capitals from `T` on. -/
def genericName (index : Nat) : Char :=
  Char.ofNat ('T'.toNat + index)

mutual
def chars : Shape → List Char
  | concrete ty => ty.chars
  | generic index arithmetic =>
    genericName index :: if arithmetic then ": arithmetic".toList else []
  | enumerable s => "Enumerable<".toList ++ chars s ++ ['>']
  | array s => chars s ++ "[]".toList
  | optional s => chars s ++ ['?']
  | lambda params result => '(' :: charsAll params ++ ") => ".toList ++ chars result

def charsAll : List Shape → List Char
  | [] => []
  | [s] => chars s
  | s :: rest => chars s ++ ", ".toList ++ charsAll rest
end

def toString (s : Shape) : String :=
  String.ofList s.chars

end Shape

end LambdaQuery
