import LambdaQuery.Options
import LambdaQuery.Toml.Reader

/-!
Options as TOML. What is not given stays as it is by default, and nothing else may be given.
-/

namespace LambdaQuery.Options

/-- A natural number up to a bound. -/
def number? (max : Nat) (t : Toml) : Option Nat := do
  let n ← t.integer?
  if 0 ≤ n && n ≤ max then some n.toNat else none

/-- Change one option. -/
def set? (o : Options) (key : String) (value : Toml) : Option Options :=
  match key with
  | "max_depth" => (number? (UInt32.size - 1) value).map fun n => { o with maxDepth := n }
  | "standard_functions" => value.boolean?.map fun b => { o with standardFunctions := b }
  | "max_input_len" => (number? (Nat.pow 2 63 - 1) value).map fun n => { o with maxLength := n }
  | _ => none

def setAll? (o : Options) : Toml.Entries → Option Options
  | [] => some o
  | (key, value) :: rest => (o.set? key value).bind fun o => setAll? o rest

/-- Options from the text of a document. -/
def ofToml? (text : String) : Option Options :=
  (Toml.ofText? text).bind standard.setAll?

end LambdaQuery.Options
