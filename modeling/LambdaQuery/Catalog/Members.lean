import LambdaQuery.Catalog

/-!
The members of texts, dates, optionals and sequences.
-/

namespace LambdaQuery

namespace Property

/-- A field of a record. -/
def ofField (name : String) (ty : Ty) : Property Value :=
  ⟨name, ty, .field⟩

/-- A property that is computed from its instance. -/
def ofBody (name : String) (ty : Ty) (body : Body Value) : Property Value :=
  ⟨name, ty, .computed ⟨name, .method, body⟩⟩

end Property

def Method.ofBody (name : String) (params : List Shape) (result : Shape) (body : Body Value) :
    Method :=
  ⟨name, params, result, ⟨name, .method, body⟩⟩

structure Members where
  properties : List (Property Value)
  methods : List Method

namespace Members

def none : Members := ⟨[], []⟩

def ofString : Members where
  properties := [.ofBody "Length" .int .length]
  methods := [
    .ofBody "StartsWith" [.concrete .string] (.concrete .bool) .startsWith,
    .ofBody "EndsWith" [.concrete .string] (.concrete .bool) .endsWith,
    .ofBody "Contains" [.concrete .string] (.concrete .bool) .includes,
    .ofBody "ToLower" [] (.concrete .string) .toLower,
    .ofBody "ToUpper" [] (.concrete .string) .toUpper,
    .ofBody "Trim" [] (.concrete .string) .trim,
    .ofBody "IndexOf" [.concrete .string] (.concrete .int) .indexOf]

def ofDate : Members where
  properties := [.ofBody "Year" .int .year, .ofBody "Month" .int .month, .ofBody "Day" .int .day]
  methods := []

def ofOptional (inner : Ty) : Members where
  properties := [.ofBody "HasValue" .bool .hasValue, .ofBody "Value" inner .valueOf]
  methods := [.ofBody "GetValueOrDefault" [.concrete inner] (.concrete inner) .orElse]

/-- Sums and extremes, for numbers that cannot be null. -/
def aggregates (element : Ty) : List Method :=
  let total (sum : Body Value) : List Method := [
    .ofBody "Sum" [] (.concrete element) sum,
    .ofBody "Min" [] (.concrete element) .least,
    .ofBody "Max" [] (.concrete element) .greatest]
  match element with
  | .int => total .sumWhole
  | .float => total .sumFloat
  | _ => []

/-- A function applied to each element; it decides what the new elements are. -/
def select (element : Ty) : Method :=
  .ofBody "Select" [.lambda [.concrete element] (.generic 0 false)] (.enumerable (.generic 0 false))
    .map

def ofSequence (element : Ty) : Members where
  properties := [.ofBody "Count" .int .count]
  methods :=
    let test : Shape := .lambda [.concrete element] (.concrete .bool)
    [ .ofBody "Any" [] (.concrete .bool) .isNonempty,
      .ofBody "Any" [test] (.concrete .bool) .anyPasses,
      .ofBody "All" [test] (.concrete .bool) .allPass,
      .ofBody "Count" [] (.concrete .int) .count,
      .ofBody "Count" [test] (.concrete .int) .countPassing,
      .ofBody "Contains" [.concrete element] (.concrete .bool) .member,
      .ofBody "Where" [test] (.concrete (.enumerable element)) .filter,
      select element ] ++ aggregates element

end Members

end LambdaQuery
