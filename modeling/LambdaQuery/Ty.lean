/-!
The types of the query language. Records and enums go by their names; a schema says what is in
them.
-/

namespace LambdaQuery

inductive Ty where
  | bool | int | float | string | date
  | enum (name : String)
  | record (name : String)
  /-- A value or null. -/
  | optional (inner : Ty)
  | list (element : Ty)
  | array (element : Ty)
  /-- Any sequence. -/
  | enumerable (element : Ty)
  | lambda (params : List Ty) (result : Ty)
deriving Repr, Inhabited

namespace Ty

mutual
/-- Whether two types are the same. -/
def same : Ty → Ty → Bool
  | bool, bool | int, int | float, float | string, string | date, date => true
  | enum a, enum b | record a, record b => a == b
  | optional a, optional b | list a, list b | array a, array b | enumerable a, enumerable b =>
    same a b
  | lambda ps r, lambda qs s => sameAll ps qs && same r s
  | _, _ => false

def sameAll : List Ty → List Ty → Bool
  | [], [] => true
  | a :: as, b :: bs => same a b && sameAll as bs
  | _, _ => false
end

mutual
theorem same_iff (a b : Ty) : same a b = true ↔ a = b := by
  cases a with
  | optional a | list a | array a | enumerable a => cases b <;> simp [same, same_iff a]
  | lambda ps r => cases b <;> simp [same, sameAll_iff ps, same_iff r]
  | _ => cases b <;> simp [same]

theorem sameAll_iff (as bs : List Ty) : sameAll as bs = true ↔ as = bs := by
  cases as with
  | nil => cases bs <;> simp [sameAll]
  | cons a as => cases bs <;> simp [sameAll, same_iff a, sameAll_iff as]
end

instance : DecidableEq Ty := fun a b => decidable_of_iff _ (same_iff a b)

/-- The type with null added; nothing is added twice. -/
def orNull : Ty → Ty
  | optional inner => optional inner
  | ty => optional ty

/-- The type without null, as far as it was added. -/
def underlying : Ty → Ty
  | optional inner => inner
  | ty => ty

/-- What an optional type adds null to. -/
def inner? : Ty → Option Ty
  | optional inner => some inner
  | _ => none

/-- The type of the elements of a sequence. -/
def element? : Ty → Option Ty
  | list e | array e | enumerable e => some e
  | _ => none

/-- The parameters and the result of a lambda. -/
def signature? : Ty → Option (List Ty × Ty)
  | lambda params result => some (params, result)
  | _ => none

def isOptional : Ty → Bool
  | optional _ => true
  | _ => false

def isEnum : Ty → Bool
  | enum _ => true
  | _ => false

/-- Types whose values are copied and not referred to. -/
def isValueType : Ty → Bool
  | bool | int | float | date | enum _ | optional _ => true
  | _ => false

/-- Whether null is a value of the type. -/
def acceptsNull : Ty → Bool
  | bool | int | float | date | enum _ => false
  | _ => true

/-- Numbers, and numbers or null. -/
def isArithmetic (ty : Ty) : Bool :=
  match ty.underlying with
  | int | float => true
  | _ => false

end Ty

end LambdaQuery
