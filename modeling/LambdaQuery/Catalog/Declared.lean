import LambdaQuery.Catalog.Members
import LambdaQuery.Schema
import LambdaQuery.Number.Reading
import LambdaQuery.Text.Quoted

/-!
The catalog of a schema: every type whose names the schema declares.
-/

namespace LambdaQuery

/-- The variant with the ordinal that a text is, or else the one with that name. -/
def EnumValue.ofText? (variants : List EnumValue) (text : String) : Option EnumValue :=
  match Number.readOrdinal? text.toList with
  | some ordinal => variants.find? fun v => v.ordinal == ordinal
  | none => variants.find? fun v => Text.sameName v.name text

namespace Schema

/-- Read a literal of a type that null was not added to. -/
def readLiteral (s : Schema) (ty : Ty) (text : String) : Except LiteralFault Value :=
  match ty with
  | .bool =>
    if text = "true" then .ok (.bool true)
    else if text = "false" then .ok (.bool false)
    else .error .notBool
  | .int =>
    match Number.readInt64? text.toList with
    | some n => .ok (.int n)
    | none => .error .notInt
  | .float =>
    match Number.readFloat? text.toList with
    | some x => .ok (.float x)
    | none => .error .notFloat
  | .string => .ok (.string text)
  | .date =>
    match Date.ofChars? text.toList with
    | some d => .ok (.date d)
    | none => .error .notDate
  | .enum name =>
    match s.enumValues? name with
    | some variants =>
      match EnumValue.ofText? variants text with
      | some v => .ok (.enum v)
      | none => .error .noVariant
    | none => .error .noLiterals
  | _ => .error .noLiterals

def members (s : Schema) : Ty → Members
  | .optional inner => .ofOptional inner
  | .record name => ⟨((s.fields? name).getD []).map fun (field, ty) => .ofField field ty, []⟩
  | .string => .ofString
  | .date => .ofDate
  | .list e | .array e | .enumerable e => .ofSequence e
  | _ => .none

end Schema

namespace Ty

/-- Whether an operator is defined on two operands of the type. Logic is for `Bool` alone; apart
from that, null does not matter. -/
def supports (ty : Ty) (op : Operator) : Bool :=
  match op.kind with
  | .logical => ty == .bool
  | .equality =>
    match ty.underlying with
    | .lambda .. => false
    | _ => true
  | .ordering =>
    match ty.underlying with
    | .int | .float | .string | .date | .enum _ => true
    | _ => false
  | .arithmetic =>
    match ty.underlying with
    | .int | .float => true
    | .string => op == .add
    | _ => false

/-- The expression for an operator on two operands of the type. Texts are put in order and joined
by functions of their own. -/
def binary? (ty : Ty) (op : Operator) (left right : Expr) : Option Expr :=
  if ty.supports op then
    match ty, op.kind with
    | .string, .ordering =>
      let order := Expr.call ⟨"String.Compare", .free, .compareTexts⟩ [left, right] .int
      some (.binary op order (.constant (.int 0) .int) .bool)
    | .string, .arithmetic =>
      some (.call ⟨"String.Concat", .free, .concat⟩ [left, right] .string)
    | _, _ => some (.binary op left right (op.resultTy ty))
  else
    none

end Ty

namespace Schema

/-- What is said of a type, known or not. -/
def info (s : Schema) (ty : Ty) : TypeInfo where
  ty := ty
  properties := (s.members ty).properties
  methods := (s.members ty).methods
  parse := fun text => (s.readLiteral ty.underlying text).mapError fun fault => ⟨ty, text, fault⟩
  stringify := fun v =>
    match v with
    | .string text => Text.quoteString text
    | v => v.toString
  supports := ty.supports
  binary := ty.binary?

def catalog (s : Schema) : Catalog where
  describe := fun ty => if s.knows ty then some (s.info ty) else none
  lookup := fun text =>
    match Ty.ofText s.resolve text with
    | .ok ty => if s.knows ty then some ty else none
    | .error _ => none

end Schema

end LambdaQuery
