import LambdaQuery.Schema
import LambdaQuery.Toml.Reader

/-!
Schemas as TOML. A table `records` holds a table of fields for each record, with the types as they
are written; a table `enums` holds a list of variants for each enum. Records, enums and fields are
taken in the order of their names. Anything else in the document is ignored.
-/

namespace LambdaQuery

inductive SchemaError where
  /-- The text is no document, or `records` or `enums` is not made as it should be. -/
  | malformed
  | fieldType (record field : String) (error : Ty.TextError)
  /-- One name is both a record and an enum. -/
  | duplicateName (name : String)
  | emptyEnum (name : String)
deriving DecidableEq, Repr

def SchemaError.message : SchemaError → String
  | malformed => "invalid schema TOML"
  | fieldType record field error => "field `" ++ record ++ "." ++ field ++ "`: " ++ error.message
  | duplicateName name => "`" ++ name ++ "` is declared as both a record and an enum"
  | emptyEnum name => "enum `" ++ name ++ "` has no variants"

namespace Schema

/-- What a document declares, in the order of names. -/
structure Declarations where
  records : List (String × List (String × String))
  enums : List (String × List String)

/-- The table at a key, read by a rule for its values; nothing if there is no such key. -/
def section? {α : Type} (read : Toml → Option α) (key : String) (entries : Toml.Entries) :
    Option (List (String × α)) :=
  match entries.lookup key with
  | none => some []
  | some t => (t.mapOf? read).map Toml.sortByKey

def Declarations.ofToml? (entries : Toml.Entries) : Option Declarations := do
  let fields (t : Toml) := (t.mapOf? Toml.string?).map Toml.sortByKey
  let variants (t : Toml) := t.array?.bind (Toml.readAll Toml.string?)
  return ⟨← section? fields "records" entries, ← section? variants "enums" entries⟩

/-- The fields of a record with their types. -/
def readFields (resolve : String → Option Ty) (record : String) :
    List (String × String) → Except SchemaError (List (String × Ty))
  | [] => .ok []
  | (field, text) :: rest => do
    let ty ← (Ty.ofText resolve text).mapError (.fieldType record field)
    return (field, ty) :: (← readFields resolve record rest)

def readRecords (resolve : String → Option Ty) :
    List (String × List (String × String)) → Except SchemaError (List (String × List (String × Ty)))
  | [] => .ok []
  | (record, fields) :: rest => do
    let fields ← readFields resolve record fields
    return (record, fields) :: (← readRecords resolve rest)

/-- The type that a name denotes among declarations. -/
def Declarations.resolve (d : Declarations) (name : String) : Option Ty :=
  if (d.records.lookup name).isSome then some (.record name)
  else if (d.enums.lookup name).isSome then some (.enum name)
  else none

/-- A schema from the text of a document. Names that clash are reported first, then enums without
variants, then types. -/
def ofToml (text : String) : Except SchemaError Schema :=
  match (Toml.ofText? text).bind Declarations.ofToml? with
  | none => .error .malformed
  | some d =>
    match d.records.find? fun (name, _) => (d.enums.lookup name).isSome with
    | some (name, _) => .error (.duplicateName name)
    | none =>
      match d.enums.find? fun (_, variants) => variants.isEmpty with
      | some (name, _) => .error (.emptyEnum name)
      | none => do
        let records ← readRecords d.resolve d.records
        return ⟨records, d.enums⟩

end Schema

end LambdaQuery
