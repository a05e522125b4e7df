import LambdaQuery.Expr
import LambdaQuery.Ty.Text

/-!
Schemas: the records and enums that a host declares. Names are told apart by case. A name that is
declared both as a record and as an enum denotes the record.
-/

namespace LambdaQuery

structure Schema where
  /-- The fields of each record, in order. -/
  records : List (String × List (String × Ty))
  /-- The variants of each enum, in the order of their ordinals. -/
  enums : List (String × List String)
deriving Repr

namespace Schema

def empty : Schema := ⟨[], []⟩

/-- Add a record, in place of one of the same name. -/
def addRecord (s : Schema) (name : String) (fields : List (String × Ty)) : Schema :=
  { s with records := (name, fields) :: s.records }

/-- Add an enum, in place of one of the same name. -/
def addEnum (s : Schema) (name : String) (variants : List String) : Schema :=
  { s with enums := (name, variants) :: s.enums }

def fields? (s : Schema) (name : String) : Option (List (String × Ty)) :=
  s.records.lookup name

def variants? (s : Schema) (name : String) : Option (List String) :=
  s.enums.lookup name

/-- The type that a name denotes. -/
def resolve (s : Schema) (name : String) : Option Ty :=
  if (s.fields? name).isSome then some (.record name)
  else if (s.variants? name).isSome then some (.enum name)
  else none

/-- The values of an enum, numbered from zero. -/
def enumValues? (s : Schema) (name : String) : Option (List EnumValue) :=
  (s.variants? name).map fun variants =>
    variants.zipIdx.map fun (variant, ordinal) => ⟨name, variant, ordinal⟩

mutual
/-- Whether every name in a type is declared, and null is added only to value types. -/
def knows (s : Schema) : Ty → Bool
  | .bool | .int | .float | .string | .date => true
  | .record name => (s.fields? name).isSome
  | .enum name => (s.variants? name).isSome
  | .optional inner => inner.isValueType && knows s inner
  | .list e | .array e | .enumerable e => knows s e
  | .lambda params result => knowsAll s params && knows s result

def knowsAll (s : Schema) : List Ty → Bool
  | [] => true
  | ty :: rest => knows s ty && knowsAll s rest
end

end Schema

end LambdaQuery
