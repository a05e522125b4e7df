import LambdaQuery.Evaluation
import LambdaQuery.Schema
import LambdaQuery.Ty.Order

/-!
# Values of a type

What it is for a value to conform to a type of a schema. Functions conform by what they do: applied
to what conforms to the type of the parameter, they come to a result that conforms to the type of
the result, or to one of a few errors that no type rules out.
-/

namespace LambdaQuery

/-- Errors that the values of a query can be to blame for, and not its types. -/
def EvalError.Harmless : EvalError → Prop
  | nullReference _ | divisionByZero | overflow _ | functionOverflow _ | emptySequence _ => True
  | typeMismatch expected found => expected = .function ∧ found = .null
  | missingField .. | unboundParameter _ | missingArgument .. | nestedTooDeep => False

/-- A result that is as it should be, or a harmless error. -/
def Safe {α : Type} (Q : α → Prop) : Except EvalError α → Prop
  | .ok a => Q a
  | .error e => e.Harmless

theorem Safe.mono {α : Type} {Q Q' : α → Prop} {outcome : Except EvalError α}
    (h : Safe Q outcome) (imp : ∀ a, Q a → Q' a) : Safe Q' outcome := by
  cases outcome with
  | ok a => exact imp a h
  | error e => exact h

/-- Beyond some depth of nesting the outcome is always the same, and it is safe. -/
def Settles {α : Type} (f : Nat → Except EvalError α) (Q : α → Prop) : Prop :=
  ∃ depth outcome, (∀ n, depth ≤ n → f n = outcome) ∧ Safe Q outcome

namespace Settles

variable {α β : Type} {f : Nat → Except EvalError α} {Q : α → Prop} {R : β → Prop}

theorem const {outcome : Except EvalError α} (h : Safe Q outcome) : Settles (fun _ => outcome) Q :=
  ⟨0, outcome, fun _ _ => rfl, h⟩

theorem pure {a : α} (h : Q a) : Settles (fun _ => .ok a) Q :=
  const h

theorem error {e : EvalError} (h : e.Harmless) : Settles (fun _ => .error e) Q :=
  const h

theorem bind {g : α → Nat → Except EvalError β} (first : Settles f Q)
    (next : ∀ a, Q a → Settles (g a) R) : Settles (fun n => f n >>= fun a => g a n) R := by
  obtain ⟨depth, outcome, same, isSafe⟩ := first
  cases outcome with
  | error e =>
    refine ⟨depth, .error e, fun n le => ?_, isSafe⟩
    show (f n >>= fun a => g a n) = .error e
    rw [same n le]
    rfl
  | ok a =>
    obtain ⟨depth', outcome', same', isSafe'⟩ := next a isSafe
    refine ⟨max depth depth', outcome', fun n le => ?_, isSafe'⟩
    show (f n >>= fun a => g a n) = outcome'
    rw [same n (Nat.le_trans (Nat.le_max_left ..) le)]
    exact same' n (Nat.le_trans (Nat.le_max_right ..) le)

theorem map {g : α → β} (h : Settles f Q) (next : ∀ a, Q a → R (g a)) :
    Settles (fun n => f n >>= fun a => .ok (g a)) R :=
  h.bind fun a isQ => pure (next a isQ)

end Settles

namespace Ty

mutual
/-- Null is added to no type twice. -/
def Proper : Ty → Prop
  | bool | int | float | string | date | enum _ | record _ => True
  | optional inner => inner.isOptional = false ∧ Proper inner
  | list e | array e | enumerable e => Proper e
  | lambda params result => ProperAll params ∧ Proper result

def ProperAll : List Ty → Prop
  | [] => True
  | ty :: rest => Proper ty ∧ ProperAll rest
end

theorem Proper.underlying {ty : Ty} (h : ty.Proper) :
    ty.underlying.Proper ∧ ty.underlying.isOptional = false := by
  cases ty with
  | optional inner => exact ⟨h.2, h.1⟩
  | _ => exact ⟨h, rfl⟩

/-- There are no functions in the values of the type. -/
def FirstOrder : Ty → Prop
  | bool | int | float | string | date | enum _ | record _ => True
  | optional t | list t | array t | enumerable t => FirstOrder t
  | lambda .. => False

end Ty

namespace Schema

/-- The declared fields of a record. -/
def declared (s : Schema) (name : String) : List (String × Ty) :=
  (s.fields? name).getD []

/-- Every declared field has a type of a kind. -/
def Fields (s : Schema) (P : Ty → Prop) : Prop :=
  ∀ name, ∀ field ∈ s.declared name, P field.2

/-- The values of the types that fields may have. A record has all declared fields, and may have
others. -/
inductive Stores (s : Schema) : Ty → Value → Prop
  | bool (b : Bool) : Stores s .bool (.bool b)
  | int (n : Int64) : Stores s .int (.int n)
  | float (x : Float) : Stores s .float (.float x)
  | date (d : Date) : Stores s .date (.date d)
  | enum {name : String} {variants : List EnumValue} {e : EnumValue} :
    s.enumValues? name = some variants → e ∈ variants → Stores s (.enum name) (.enum e)
  | noString : Stores s .string .null
  | string (text : String) : Stores s .string (.string text)
  | noValue (ty : Ty) : Stores s (.optional ty) .null
  | value {ty : Ty} {v : Value} : Stores s ty v → Stores s (.optional ty) v
  | noSequence {ty element : Ty} : ty.element? = some element → Stores s ty .null
  | sequence {ty element : Ty} {items : List Value} : ty.element? = some element →
    (∀ v ∈ items, Stores s element v) → Stores s ty (.list items)
  | noRecord (name : String) : Stores s (.record name) .null
  | record {name : String} {r : Record Value} :
    (∀ field ∈ s.declared name, (r.get? field.1).isSome = true) →
    (∀ field ∈ s.declared name, ∀ v, r.get? field.1 = some v → Stores s field.2 v) →
      Stores s (.record name) (.record r)

end Schema

open Evaluation in
/-- A value conforms to a type. -/
def Conforms (s : Schema) : Ty → Value → Prop
  | .bool, v => ∃ b, v = .bool b
  | .int, v => ∃ n, v = .int n
  | .float, v => ∃ x, v = .float x
  | .date, v => ∃ d, v = .date d
  | .enum name, v => ∃ e variants, v = .enum e ∧ s.enumValues? name = some variants ∧ e ∈ variants
  | .string, v => v = .null ∨ ∃ text, v = .string text
  | .optional ty, v => v = .null ∨ Conforms s ty v
  | .list element, v | .array element, v | .enumerable element, v =>
    v = .null ∨ ∃ items, v = .list items ∧ ∀ x ∈ items, Conforms s element x
  | .record name, v => v = .null ∨ ∃ r, v = .record r ∧
      ∀ field ∈ s.declared name, ∃ x, r.get? field.1 = some x ∧ s.Stores field.2 x
  | .lambda [param] result, v => v = .null ∨ ∃ c, v = .function c ∧
      ∀ x, Conforms s param x → Settles (fun depth => applyClosure depth c x) (Conforms s result)
  | .lambda _ _, v => v = .null

section

variable {s : Schema} {ty : Ty} {v : Value}

theorem conforms_sequence {element : Ty} (h : ty.element? = some element) :
    Conforms s ty v ↔ v = .null ∨ ∃ items, v = .list items ∧ ∀ x ∈ items, Conforms s element x := by
  cases ty <;> cases h <;> rfl

theorem conforms_null (h : ty.acceptsNull = true) : Conforms s ty .null := by
  cases ty with
  | lambda params result => cases params with
    | nil => rfl
    | cons param rest => cases rest with
      | nil => exact .inl rfl
      | cons => rfl
  | bool | int | float | date | enum _ => cases h
  | _ => exact .inl rfl

/-- What is stored conforms to its type. -/
theorem Schema.Stores.conforms (h : s.Stores ty v) : Conforms s ty v := by
  induction h with
  | bool b => exact ⟨b, rfl⟩
  | int n => exact ⟨n, rfl⟩
  | float x => exact ⟨x, rfl⟩
  | date d => exact ⟨d, rfl⟩
  | @enum name variants e isEnum mem => exact ⟨e, variants, rfl, isEnum, mem⟩
  | noString => exact .inl rfl
  | string text => exact .inr ⟨text, rfl⟩
  | noValue => exact .inl rfl
  | value _ ih => exact .inr ih
  | noSequence isSequence => exact (conforms_sequence isSequence).2 (.inl rfl)
  | sequence isSequence _ ih => exact (conforms_sequence isSequence).2 (.inr ⟨_, rfl, ih⟩)
  | noRecord => exact .inl rfl
  | record there stored ih =>
    refine .inr ⟨_, rfl, fun field mem => ?_⟩
    obtain ⟨x, isField⟩ := Option.isSome_iff_exists.1 (there field mem)
    exact ⟨x, isField, stored field mem x isField⟩

theorem Conforms.stores : ∀ {ty : Ty} {v : Value}, ty.FirstOrder → Conforms s ty v → s.Stores ty v
  | .bool, _, _, ⟨b, isBool⟩ => isBool ▸ .bool b
  | .int, _, _, ⟨n, isInt⟩ => isInt ▸ .int n
  | .float, _, _, ⟨x, isFloat⟩ => isFloat ▸ .float x
  | .date, _, _, ⟨d, isDate⟩ => isDate ▸ .date d
  | .enum _, _, _, ⟨_, _, isValue, isEnum, mem⟩ => isValue ▸ .enum isEnum mem
  | .string, _, _, .inl isNull => isNull ▸ .noString
  | .string, _, _, .inr ⟨text, isText⟩ => isText ▸ .string text
  | .optional ty, _, _, .inl isNull => isNull ▸ .noValue ty
  | .optional _, _, first, .inr inside => .value (Conforms.stores first inside)
  | .list _, _, _, .inl isNull | .array _, _, _, .inl isNull | .enumerable _, _, _, .inl isNull =>
    isNull ▸ .noSequence rfl
  | .list _, _, first, .inr ⟨_, isList, each⟩ | .array _, _, first, .inr ⟨_, isList, each⟩
  | .enumerable _, _, first, .inr ⟨_, isList, each⟩ =>
    isList ▸ .sequence rfl fun x mem => Conforms.stores first (each x mem)
  | .record name, _, _, .inl isNull => isNull ▸ .noRecord name
  | .record _, _, _, .inr ⟨_, isRecord, stored⟩ => by
    subst isRecord
    refine .record (fun field mem => ?_) fun field mem v isField => ?_
    · obtain ⟨x, isField, _⟩ := stored field mem
      simp [isField]
    · obtain ⟨x, isField', stores⟩ := stored field mem
      cases isField.symm.trans isField'
      exact stores

/-- Null conforms to a record type, and so does a record whose declared fields do. -/
theorem conforms_record_iff (fields : s.Fields Ty.FirstOrder) {name : String} :
    Conforms s (.record name) v ↔ v = .null ∨ ∃ r, v = .record r ∧
      ∀ field ∈ s.declared name, ∃ x, r.get? field.1 = some x ∧ Conforms s field.2 x := by
  constructor
  · rintro (isNull | ⟨r, isRecord, stored⟩)
    · exact .inl isNull
    · refine .inr ⟨r, isRecord, fun field mem => ?_⟩
      obtain ⟨x, isField, stores⟩ := stored field mem
      exact ⟨x, isField, stores.conforms⟩
  · rintro (isNull | ⟨r, isRecord, conforming⟩)
    · exact .inl isNull
    · refine .inr ⟨r, isRecord, fun field mem => ?_⟩
      obtain ⟨x, isField, conforms⟩ := conforming field mem
      exact ⟨x, isField, conforms.stores (fields name field mem)⟩

/-! Conversions. -/

/-- Whole numbers are no values of a type that holds others. -/
theorem widen_of_conforms (h : Conforms s ty v) : v.widen ty = v := by
  cases v with
  | int n =>
    cases ty with
    | float =>
      obtain ⟨x, isFloat⟩ := h
      cases isFloat
    | optional inner =>
      cases inner with
      | float =>
        rcases h with isNull | ⟨x, isFloat⟩
        · cases isNull
        · cases isFloat
      | _ => rfl
    | _ => rfl
  | _ => rfl

theorem widen_optional (h : ty.isOptional = false) : v.widen (.optional ty) = v.widen ty := by
  cases v with
  | int n => cases ty <;> first | rfl | cases h
  | _ => rfl

theorem Conforms.underlying (h : Conforms s ty v) : v = .null ∨ Conforms s ty.underlying v := by
  cases ty with
  | optional inner => exact h
  | _ => exact .inr h

theorem assignable_optional {inner source : Ty}
    (h : (Ty.optional inner).assignable source = true) :
    .optional inner = source ∨ inner.assignable source.underlying = true := by
  unfold Ty.assignable at h
  rcases Bool.or_eq_true_iff.1 h with same | converts
  · exact .inl (by simpa using same)
  · cases source <;> exact .inr converts

/-- Apart from optionals, only whole numbers and sequences convert to other types. -/
theorem eq_or_of_assignable {target source : Ty} (plain : target.isOptional = false)
    (h : target.assignable source = true) :
    target = source ∨ target = .float ∧ source = .int ∨
      ∃ element, target = .enumerable element ∧ source.element? = some element := by
  unfold Ty.assignable at h
  rcases Bool.or_eq_true_iff.1 h with same | converts
  · exact .inl (by simpa using same)
  · right
    split at converts
    · cases plain
    · cases plain
    · exact .inl ⟨rfl, rfl⟩
    · exact .inr ⟨_, rfl, by simpa using converts⟩
    · cases converts

/-- A value converts to every type that its own can be used for. -/
theorem Conforms.widen : ∀ {target source : Ty}, target.Proper →
    target.assignable source = true → Conforms s source v → Conforms s target (v.widen target)
  | .optional inner, source, proper, converts, h => by
    rcases assignable_optional converts with rfl | inside
    · rwa [widen_of_conforms h]
    · rw [widen_optional proper.1]
      rcases h.underlying with rfl | conforms
      · exact .inl rfl
      · exact .inr (Conforms.widen proper.2 inside conforms)
  | .bool, _, _, converts, h | .int, _, _, converts, h | .float, _, _, converts, h
  | .string, _, _, converts, h | .date, _, _, converts, h | .enum _, _, _, converts, h
  | .record _, _, _, converts, h | .list _, _, _, converts, h | .array _, _, _, converts, h
  | .enumerable _, _, _, converts, h | .lambda .., _, _, converts, h => by
    rcases eq_or_of_assignable rfl converts with rfl | ⟨isFloat, rfl⟩ | ⟨element, isSeq, isElement⟩
    · rwa [widen_of_conforms h]
    · obtain ⟨n, rfl⟩ := h
      rw [isFloat]
      exact ⟨n.toFloat, rfl⟩
    · rw [isSeq]
      rcases (conforms_sequence isElement).1 h with rfl | ⟨items, rfl, each⟩
      · exact .inl rfl
      · exact .inr ⟨items, rfl, each⟩

end

end LambdaQuery
