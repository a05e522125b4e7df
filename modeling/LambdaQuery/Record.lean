import LambdaQuery.Text.Caseless

/-!
Records: a type name and fields in the order in which they were first set. Field names are told
apart up to ASCII case.
-/

namespace LambdaQuery

structure Record (V : Type) where
  type : String
  fields : List (String × V)
deriving Repr

namespace Record

variable {V : Type}

/-- A record without fields. -/
def new (type : String) : Record V := ⟨type, []⟩

/-- The fields after one is set. A field that is there keeps its place and its spelling. -/
def setField (name : String) (value : V) : List (String × V) → List (String × V)
  | [] => [(name, value)]
  | (field, old) :: rest =>
    if Text.sameName field name then (field, value) :: rest
    else (field, old) :: setField name value rest

def set (r : Record V) (name : String) (value : V) : Record V :=
  { r with fields := setField name value r.fields }

def get? (r : Record V) (name : String) : Option V :=
  (r.fields.find? fun field => Text.sameName field.1 name).map Prod.snd

end Record

end LambdaQuery
