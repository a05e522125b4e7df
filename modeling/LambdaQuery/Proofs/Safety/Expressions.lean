import LambdaQuery.Proofs.Safety.Overloads

/-!
# Expressions that come to a value of their type

What is put together from expressions that come to values of their types, as the types allow it,
comes to a value of its own type or to a harmless error.
-/

namespace LambdaQuery

open Evaluation

variable {s : Schema}

/-- With these values for its parameters, an expression comes to a value of its type. -/
def Expr.Settled (s : Schema) (env : Env) (e : Expr) : Prop :=
  Settles (fun depth => evalWith (applyClosure depth) e env) (Conforms s e.ty)

namespace Expr

variable {env : Env} {e left right : Expr} {ty : Ty}

theorem settled_convertTo (h : e.Settled s env) (converts : e.ty.Converts s ty) :
    (e.convertTo ty).Settled s env := by
  unfold convertTo
  split
  · exact h
  · exact h.map converts

/-- Arguments come to values of their types, one after the other. -/
theorem settles_evalAll {types : List Ty} {es : List Expr}
    (h : List.Forall₂ (fun ty e => e.ty = ty ∧ e.Settled s env) types es) :
    Settles (fun depth => evalAllWith (applyClosure depth) es env)
      (List.Forall₂ (Conforms s) types) := by
  induction h with
  | nil => exact .pure .nil
  | cons first _ ih =>
    obtain ⟨rfl, settled⟩ := first
    exact Settles.bind settled fun v onFirst => ih.map fun vs onRest => .cons onFirst onRest

theorem settled_call {f : HostFunction Value} {types : List Ty} {es : List Expr} {result : Ty}
    (sound : f.body.Sound s types result)
    (h : List.Forall₂ (fun ty e => e.ty = ty ∧ e.Settled s env) types es) :
    (call f es result).Settled s env :=
  (settles_evalAll h).bind fun vs conform => sound f.name vs conform

/-- What an overload is built into comes to a value of its result type. -/
theorem settled_build {o : Overload} {types : List Ty} {result : Ty} {es : List Expr}
    (sound : o.lowering.Sound s types result)
    (h : List.Forall₂ (fun ty e => e.ty = ty ∧ e.Settled s env) types es)
    (built : o.build? es result = some e) : e.Settled s env ∧ e.ty = result := by
  unfold Overload.build? at built
  cases isLowering : o.lowering with
  | property p =>
    rw [isLowering] at sound built
    obtain ⟨isResult, instanceTy, rfl, reads⟩ := sound
    cases h with
    | cons first rest =>
      cases rest
      cases built
      obtain ⟨rfl, settled⟩ := first
      refine ⟨?_, isResult⟩
      subst isResult
      exact Settles.bind settled reads
  | function f =>
    rw [isLowering] at sound built
    cases built
    exact ⟨settled_call sound h, rfl⟩
  | custom _ =>
    rw [isLowering] at sound
    exact sound.elim

/-! Operators. -/

theorem settled_operands {Q : Value → Prop} {op : Operator} (strict : op.kind ≠ .logical)
    (onLeft : left.Settled s env) (onRight : right.Settled s env)
    (applies : ∀ a b, Conforms s left.ty a → Conforms s right.ty b → Safe Q (applyOperator op a b)) :
    Settles (fun depth => evalWith (applyClosure depth) (.binary op left right ty) env) Q := by
  have run (depth : Nat) : evalWith (applyClosure depth) (.binary op left right ty) env =
      (evalWith (applyClosure depth) left env >>= fun a =>
        evalWith (applyClosure depth) right env >>= fun b => applyOperator op a b) := by
    cases op <;> first | rfl | exact absurd rfl strict
  simp only [run]
  exact Settles.bind onLeft fun a isLeft => Settles.bind onRight fun b isRight =>
    .const (applies a b isLeft isRight)

theorem settled_logical {op : Operator} (logical : op.kind = .logical) (onLeft : left.Settled s env)
    (onRight : right.Settled s env) (isLeft : left.ty = .bool) (isRight : right.ty = .bool) :
    (binary op left right .bool).Settled s env := by
  have run (depth : Nat) : evalWith (applyClosure depth) (.binary op left right .bool) env =
      (evalWith (applyClosure depth) left env >>= fun v => v.asBool >>= fun a =>
        if a = (op == .and) then
          evalWith (applyClosure depth) right env >>= fun w => w.asBool >>= fun b => .ok (.bool b)
        else .ok (.bool a)) := by
    cases op <;> first | rfl | cases logical
  show Settles (fun depth => evalWith (applyClosure depth) (.binary op left right .bool) env)
    (Conforms s .bool)
  simp only [run]
  refine Settles.bind onLeft fun v conforms => ?_
  rw [isLeft] at conforms
  obtain ⟨a, rfl⟩ := conforms
  show Settles (fun depth => if a = (op == .and) then
      evalWith (applyClosure depth) right env >>= fun w => w.asBool >>= fun b => .ok (Data.bool b)
    else .ok (Data.bool a)) (Conforms s .bool)
  by_cases decides : a = (op == .and)
  · simp only [if_pos decides]
    refine Settles.bind onRight fun w conforms => ?_
    rw [isRight] at conforms
    obtain ⟨b, rfl⟩ := conforms
    exact .pure ⟨b, rfl⟩
  · simp only [if_neg decides]
    exact .pure ⟨a, rfl⟩

theorem safe_equality {op : Operator} (equality : op.kind = .equality) (a b : Value) :
    Safe (Conforms s .bool) (applyOperator op a b) := by
  unfold applyOperator
  rw [equality]
  exact ⟨_, rfl⟩

theorem safe_ordering {op : Operator} (ordering : op.kind = .ordering) (a b : Value) :
    Safe (Conforms s .bool) (applyOperator op a b) := by
  unfold applyOperator
  rw [ordering]
  cases a.compare? b <;> exact ⟨_, rfl⟩

theorem safe_arithmetic_operator {op : Operator} (kind : op.kind = .arithmetic)
    (number : ty.isArithmetic = true) {a b : Value} (isLeft : Conforms s ty a)
    (isRight : Conforms s ty b) : Safe (Conforms s ty) (applyOperator op a b) := by
  unfold applyOperator
  rw [kind]
  exact safe_arithmetic op number isLeft isRight

/-- A known type with arithmetic is that of texts or one of numbers. -/
theorem isArithmetic_of_supports {op : Operator} (kind : op.kind = .arithmetic)
    (known : s.knows ty = true) (supported : ty.supports op = true) (notText : ty ≠ .string) :
    ty.isArithmetic = true := by
  unfold Ty.supports at supported
  rw [kind] at supported
  cases ty with
  | int | float => rfl
  | string => exact absurd rfl notText
  | optional inner =>
    cases inner with
    | int | float => rfl
    | string => cases known
    | _ => cases supported
  | _ => cases supported

/-- Texts are compared by a function, and its answer with zero. -/
theorem settled_textOrder {op : Operator} (kind : op.kind = .ordering)
    (onLeft : left.Settled s env) (onRight : right.Settled s env) (isLeft : left.ty = .string)
    (isRight : right.ty = .string) :
    (binary op (call ⟨"String.Compare", .free, .compareTexts⟩ [left, right] .int)
      (constant (.int 0) .int) .bool).Settled s env :=
  settled_operands (by simp [kind])
    (settled_call Body.sound_compareTexts (.cons ⟨isLeft, onLeft⟩ (.cons ⟨isRight, onRight⟩ .nil)))
    (.pure ⟨0, rfl⟩) fun a b _ _ => safe_ordering kind a b

/-- An operator on a type other than that of texts is applied to its operands. -/
theorem settled_applied {op : Operator} {common : Ty} (known : s.knows common = true)
    (supported : common.supports op = true)
    (notText : common = .string → op.kind ≠ .ordering ∧ op.kind ≠ .arithmetic)
    (onLeft : left.Settled s env) (onRight : right.Settled s env) (isLeft : left.ty = common)
    (isRight : right.ty = common) :
    (binary op left right (op.resultTy common)).Settled s env := by
  cases kind : op.kind with
  | logical =>
    have isBool : common = .bool := by simpa [Ty.supports, kind] using supported
    subst isBool
    have result : op.resultTy .bool = .bool := by simp [Operator.resultTy]
    rw [result]
    exact settled_logical kind onLeft onRight isLeft isRight
  | equality =>
    have result : op.resultTy common = .bool := by simp [Operator.resultTy, kind]
    rw [result]
    exact settled_operands (by simp [kind]) onLeft onRight fun a b _ _ => safe_equality kind a b
  | ordering =>
    have result : op.resultTy common = .bool := by simp [Operator.resultTy, kind]
    rw [result]
    exact settled_operands (by simp [kind]) onLeft onRight fun a b _ _ => safe_ordering kind a b
  | arithmetic =>
    have result : op.resultTy common = common := by simp [Operator.resultTy, kind]
    have number : common.isArithmetic = true := by
      refine isArithmetic_of_supports kind known supported fun isText => ?_
      exact (notText isText).2 kind
    rw [result]
    refine settled_operands (by simp [kind]) onLeft onRight fun a b onA onB => ?_
    rw [isLeft] at onA
    rw [isRight] at onB
    exact safe_arithmetic_operator kind number onA onB

/-- An operator that a known type supports comes to a value of the type of its result. -/
theorem settled_binary {op : Operator} {common : Ty} (known : s.knows common = true)
    (onLeft : left.Settled s env) (onRight : right.Settled s env) (isLeft : left.ty = common)
    (isRight : right.ty = common) (built : common.binary? op left right = some e) :
    e.Settled s env ∧ e.ty = op.resultTy common := by
  unfold Ty.binary? at built
  split at built
  · rename_i supported
    split at built
    · rename_i kind
      cases built
      exact ⟨settled_textOrder kind onLeft onRight isLeft isRight, by simp [Operator.resultTy, kind, ty]⟩
    · rename_i kind
      cases built
      exact ⟨settled_call Body.sound_concat
          (.cons ⟨isLeft, onLeft⟩ (.cons ⟨isRight, onRight⟩ .nil)),
        by simp [Operator.resultTy, kind, ty]⟩
    · rename_i notOrdered notJoined
      cases built
      exact ⟨settled_applied known supported (fun isText => ⟨notOrdered isText, notJoined isText⟩)
        onLeft onRight isLeft isRight, rfl⟩
  · cases built

end Expr

end LambdaQuery
