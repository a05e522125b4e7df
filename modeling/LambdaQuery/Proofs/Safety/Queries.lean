import LambdaQuery.Proofs.Inference.Soundness
import LambdaQuery.Proofs.Lowering.Relation
import LambdaQuery.Proofs.Safety.Expressions
import Mathlib

/-!
# Well-typed queries do not go wrong

A query that compiles, applied to a value of the root type, comes to a value of its result type or
to a harmless error.
-/

namespace LambdaQuery

open Evaluation

/-! Types that null was added to at most once. -/

namespace Ty

variable {a b c : Ty}

theorem common?_plain (plain : a.isOptional = false) (plain' : b.isOptional = false)
    (h : a.common? b = some c) : (c = a ∨ c = b) ∧ c.assignable a = true ∧ c.assignable b = true := by
  unfold common? at h
  split at h
  · cases h
    exact ⟨.inl rfl, assignable_refl a, by assumption⟩
  split at h
  · cases h
    exact ⟨.inr rfl, by assumption, assignable_refl b⟩
  · split at h
    · cases plain
    · cases plain
    · cases plain'
    · cases h

theorem optional_assignable {inner source : Ty} (h : inner.assignable source.underlying = true) :
    (optional inner).assignable source = true := by
  unfold assignable
  refine Bool.or_eq_true_iff.2 (.inr ?_)
  cases source <;> exact h

theorem orNull_plain (plain : a.isOptional = false) : a.orNull = .optional a := by
  cases a <;> first | rfl | cases plain

/-- The common type of two operands is one that both convert to. -/
theorem common?_proper (proper : a.Proper) (proper' : b.Proper) (h : a.common? b = some c) :
    c.Proper ∧ c.assignable a = true ∧ c.assignable b = true := by
  unfold common? at h
  split at h
  · cases h
    exact ⟨proper, assignable_refl a, by assumption⟩
  split at h
  · cases h
    exact ⟨proper', by assumption, assignable_refl b⟩
  · obtain ⟨inner, isInner, rfl⟩ : ∃ inner, a.underlying.common? b.underlying = some inner ∧
        inner.orNull = c := by
      split at h
      · simpa [underlying] using h
      · simpa [underlying] using h
      · simpa [underlying] using h
      · cases h
    obtain ⟨innerProper, plain⟩ := proper.underlying
    obtain ⟨innerProper', plain'⟩ := proper'.underlying
    obtain ⟨among, fromLeft, fromRight⟩ := common?_plain plain plain' isInner
    have once : inner.isOptional = false ∧ inner.Proper := by
      rcases among with rfl | rfl
      · exact ⟨plain, innerProper⟩
      · exact ⟨plain', innerProper'⟩
    rw [orNull_plain once.1]
    exact ⟨once, optional_assignable fromLeft, optional_assignable fromRight⟩

theorem properAll_iff {types : List Ty} : ProperAll types ↔ ∀ ty ∈ types, ty.Proper := by
  induction types with
  | nil => simp [ProperAll]
  | cons ty rest ih => simp [ProperAll, ih]

theorem Proper.orNull {ty : Ty} (h : ty.Proper) : ty.orNull.Proper := by
  cases ty with
  | optional inner => exact h
  | _ => exact ⟨rfl, h⟩

theorem Proper.element {ty element : Ty} (h : ty.Proper) (isElement : ty.element? = some element) :
    element.Proper := by
  cases ty <;> cases isElement <;> exact h

end Ty

namespace Schema

variable {s : Schema}

theorem properties_proper (fields : s.Fields Ty.Proper) {ty : Ty} (proper : ty.Proper) :
    ∀ p ∈ (s.members ty).properties, p.ty.Proper := by
  cases ty with
  | string | date | list _ | array _ | enumerable _ =>
    simp [members, Members.ofString, Members.ofDate, Members.ofSequence, Property.ofBody, Ty.Proper]
  | optional inner =>
    have innerProper : inner.Proper := proper.2
    simp [members, Members.ofOptional, Property.ofBody, innerProper, Ty.Proper]
  | record name =>
    intro p mem
    obtain ⟨field, isField, rfl⟩ := List.mem_map.1 mem
    exact fields name field isField
  | _ => simp [members, Members.none]

/-- Inference adds null to no type twice. -/
theorem closed_proper (fields : s.Fields Ty.Proper) : s.catalog.Closed Ty.Proper where
  bool := trivial
  int := trivial
  float := trivial
  string := trivial
  array h := h
  enumerable h := h
  orNull h := h.orNull
  lambda types result := ⟨Ty.properAll_iff.2 types, result⟩
  common proper proper' h := (Ty.common?_proper proper proper' h).1
  element h isElement := h.element isElement
  underlying h := h.underlying.1
  param h mem := Ty.properAll_iff.1 h.1 _ mem
  result h := h.2
  property {ty name p} proper h := by
    obtain ⟨info, described, found⟩ := Option.bind_eq_some_iff.1 h
    obtain ⟨_, rfl⟩ := describe_eq_some described
    exact properties_proper fields proper p (List.mem_of_find?_eq_some found)

theorem ofText?_mem {variants : List EnumValue} {text : String} {e : EnumValue}
    (h : EnumValue.ofText? variants text = some e) : e ∈ variants := by
  unfold EnumValue.ofText? at h
  split at h <;> exact List.mem_of_find?_eq_some h

/-- A literal of a type is a value of it. -/
theorem conforms_readLiteral {ty : Ty} {text : String} {v : Value}
    (h : s.readLiteral ty text = .ok v) : Conforms s ty v := by
  unfold readLiteral at h
  cases ty with
  | bool =>
    dsimp only at h
    split at h
    · cases h
      exact ⟨true, rfl⟩
    split at h
    · cases h
      exact ⟨false, rfl⟩
    · cases h
  | int | float | date =>
    dsimp only at h
    split at h
    · cases h
      exact ⟨_, rfl⟩
    · cases h
  | string =>
    cases h
    exact .inr ⟨text, rfl⟩
  | enum name =>
    dsimp only at h
    split at h
    · rename_i variants isEnum
      split at h
      · rename_i e isVariant
        cases h
        exact ⟨e, variants, rfl, isEnum, ofText?_mem isVariant⟩
      · cases h
    · cases h
  | _ => cases h

theorem conforms_literal {ty : Ty} {text : Option String} {v : Value}
    (h : Literal.WellTyped s.catalog ty text v) : Conforms s ty v := by
  cases text with
  | none =>
    obtain ⟨rfl, acceptsNull⟩ := h
    exact conforms_null acceptsNull
  | some text =>
    obtain ⟨info, described, parsed⟩ := h
    obtain ⟨_, rfl⟩ := describe_eq_some described
    have inside : Conforms s ty.underlying v := by
      cases read : s.readLiteral ty.underlying text with
      | ok v' =>
        simp only [info, read] at parsed
        cases parsed
        exact conforms_readLiteral read
      | error fault =>
        simp only [info, read] at parsed
        cases parsed
    cases ty with
    | optional inner => exact .inr inside
    | _ => exact inside

end Schema

/-! Queries. -/

variable {s : Schema}

/-- Every parameter in scope has a value of its type. -/
def Parameters.Provided (s : Schema) (ρ : Parameters) (env : Env) : Prop :=
  ∀ symbol param, ρ.lookup symbol = some param →
    ∃ v, env.lookup param.id = some v ∧ Conforms s param.ty v

theorem Parameters.Provided.cons {ρ : Parameters} {env : Env} (h : ρ.Provided s env)
    {symbol : Symbol} {param : Param} (new : ∀ entry ∈ ρ, entry.2.id ≠ param.id) {v : Value}
    (conforms : Conforms s param.ty v) :
    Provided s ((symbol, param) :: ρ) ((param.id, v) :: env) := by
  intro wanted found isFound
  rcases lookup_bound new isFound with ⟨_, rfl⟩ | ⟨_, isOuter, different⟩
  · exact ⟨v, by simp, conforms⟩
  · obtain ⟨w, isValue, onValue⟩ := h _ _ isOuter
    exact ⟨w, by rw [List.lookup_cons, different]; exact isValue, onValue⟩

/-- What settles with one level of nesting less settles. -/
theorem Settles.of_succ {α : Type} {f g : Nat → Except EvalError α} {Q : α → Prop}
    (h : Settles f Q) (same : ∀ n, g (n + 1) = f n) : Settles g Q := by
  obtain ⟨depth, outcome, settled, isSafe⟩ := h
  refine ⟨depth + 1, outcome, fun n le => ?_, isSafe⟩
  obtain ⟨m, rfl⟩ : ∃ m, n = m + 1 := ⟨n - 1, by omega⟩
  rw [same]
  exact settled m (by omega)

theorem Term.TypesIn.ty {P : Ty → Prop} {t : Term Typed} (h : t.TypesIn P) : P t.ty := by
  cases t with
  | ident | literal => exact h
  | _ => exact h.1

theorem Term.TypesInAll.ty {P : Ty → Prop} {ts : List (Term Typed)} (h : TypesInAll P ts) :
    ∀ ty ∈ ts.map Term.ty, P ty := by
  induction ts with
  | nil => simp
  | cons t rest ih => exact List.forall_mem_cons.2 ⟨TypesIn.ty h.1, ih h.2⟩

/-- What an operator gives can be used as the type of its node. -/
theorem Operator.WellTyped.assignable {op : Operator} {catalog : Catalog} {left right ty common : Ty}
    (h : op.WellTyped catalog left right ty) (isCommon : left.common? right = some common) :
    ty.assignable (op.resultTy common) = true := by
  unfold WellTyped at h
  unfold resultTy
  cases kind : op.kind with
  | logical =>
    simp only [kind] at h
    exact h.2.2
  | equality | ordering =>
    simp only [kind] at h
    obtain ⟨_, _, assignable⟩ := h
    exact assignable
  | arithmetic =>
    simp only [kind] at h
    obtain ⟨_, joins, assignable⟩ := h
    cases isCommon.symm.trans joins.1
    exact assignable

open Shape in
mutual
/-- A well-typed query comes to a value of its type, as long as its parameters have values of
theirs. -/
theorem Lowers.settled {options : Options} : ∀ {t : Term Typed} {ρ : Parameters} {e : Expr}
    {env : Env}, Lowers s.catalog ρ t e →
    WellTyped s.catalog (Compiler.withOptions s.catalog options).resolver ρ.types t →
    t.TypesIn Ty.Proper → ρ.Provided s env → e.Settled s env
  | .lambda note binder body, ρ, _, env, @Lowers.lambda _ _ _ _ _ param e isParam new onBody,
    .lambda wellTyped isLambda, types, provided => by
    rw [onBody.lambdaBody_eq isLambda]
    have sameTy : (Expr.lambda param e).ty = note.ty := by
      rw [isLambda, ← isParam, ← onBody.ty_eq]
      rfl
    rw [← isParam] at wellTyped
    have isClosure : (Expr.lambda param e).Settled s env :=
      .pure (.inr ⟨⟨param, e, env⟩, rfl, fun x conforms =>
        (onBody.settled wellTyped types.2.2 (provided.cons new conforms)).of_succ fun _ => rfl⟩)
    exact Expr.settled_convertTo isClosure (sameTy ▸ converts_self _)
  | .binary .., _, _, _, .binary onLeft onRight isCommon described built,
    .binary wellTyped wellTyped' joins, types, provided => by
    obtain ⟨proper, properLeft, properRight⟩ := types
    obtain ⟨known, rfl⟩ := Schema.describe_eq_some described
    obtain ⟨properCommon, fromLeft, fromRight⟩ :=
      Ty.common?_proper properLeft.ty properRight.ty isCommon
    have left := Expr.settled_convertTo (onLeft.settled wellTyped properLeft provided)
      (onLeft.ty_eq ▸ Ty.converts_of_assignable properCommon fromLeft)
    have right := Expr.settled_convertTo (onRight.settled wellTyped' properRight provided)
      (onRight.ty_eq ▸ Ty.converts_of_assignable properCommon fromRight)
    obtain ⟨settled, isTy⟩ := Expr.settled_binary known left right (Expr.ty_convertTo ..)
      (Expr.ty_convertTo ..) built
    exact Expr.settled_convertTo settled
      (isTy ▸ Ty.converts_of_assignable proper (joins.assignable isCommon))
  | .call .., _, _, _, .call bound onArgs built, .call wellTyped bound' fits, types, provided => by
    cases bound.symm.trans bound'
    have runs := fits.runs (Term.TypesInAll.ty types.2) types.1
    obtain ⟨settled, isTy⟩ := Expr.settled_build runs.lowering
      (onArgs.settled wellTyped types.2 provided runs.converts) built
    exact Expr.settled_convertTo settled (isTy ▸ runs.result)
  | .member .., _, _, _, .member bound onReceiver built, .member wellTyped bound' fits, types,
    provided => by
    cases bound.symm.trans bound'
    have runs := fits.runs (by simpa using types.2.ty) types.1
    have converts := runs.converts
    have sound := runs.lowering
    generalize Overload.paramTys _ _ = params at onReceiver converts sound
    cases onReceiver with
    | cons onReceiver rest =>
      cases rest
      cases converts with
      | cons converts _ =>
        have operand := Expr.settled_convertTo (onReceiver.settled wellTyped types.2 provided)
          (onReceiver.ty_eq ▸ converts)
        obtain ⟨settled, isTy⟩ := Expr.settled_build sound
          (.cons ⟨Expr.ty_convertTo .., operand⟩ .nil) built
        exact Expr.settled_convertTo settled (isTy ▸ runs.result)
  | .ident .., _, _, env, @Lowers.ident _ _ _ _ param isParam, .ident found, _, provided => by
    obtain ⟨_, isParam', sameTy⟩ := Parameters.lookup_types found
    cases isParam.symm.trans isParam'
    obtain ⟨v, isValue, conforms⟩ := provided _ _ isParam
    have isSettled : (Expr.param param).Settled s env := by
      have run (depth : Nat) : evalWith (applyClosure depth) (.param param) env = .ok v := by
        simp [evalWith, isValue]
      unfold Expr.Settled
      simp only [run]
      exact .pure conforms
    exact Expr.settled_convertTo isSettled (sameTy ▸ converts_self _)
  | .literal note _, _, _, env, @Lowers.literal _ _ _ _ value _ bound described,
    .literal bound' wellTyped, _, _ => by
    cases bound.symm.trans bound'
    obtain ⟨_, rfl⟩ := Schema.describe_eq_some described
    have isConstant : (Expr.constant value note.ty).Settled s env :=
      .pure (Schema.conforms_literal wellTyped)
    exact Expr.settled_convertTo isConstant (converts_self _)

theorem LowersAll.settled {options : Options} : ∀ {ts : List (Term Typed)} {ρ : Parameters}
    {types : List Ty} {es : List Expr} {env : Env}, LowersAll s.catalog ρ ts types es →
    WellTypedAll s.catalog (Compiler.withOptions s.catalog options).resolver ρ.types ts →
    Term.TypesInAll Ty.Proper ts → ρ.Provided s env →
    List.Forall₂ (Ty.Converts s) (ts.map Term.ty) types →
    List.Forall₂ (fun ty e => e.ty = ty ∧ Expr.Settled s env e) types es
  | [], _, _, _, _, .nil, _, _, _, _ => .nil
  | _ :: _, _, _, _, _, .cons first rest, .cons wellTyped wellTyped', types, provided,
    .cons converts converts' =>
    .cons ⟨Expr.ty_convertTo .., Expr.settled_convertTo
        (first.settled wellTyped types.1 provided) (first.ty_eq ▸ converts)⟩
      (rest.settled wellTyped' types.2 provided converts')
end

/-! The compiler. -/

namespace Compiler

variable {c : Compiler} {text : String} {root : Ty} {expected : Option Ty}

theorem ofText_of_parse {query : Term Span} (h : c.parse text = .ok query) :
    Term.ofText c.options.maxDepth text = .ok query := by
  simp only [parse] at h
  split at h
  · cases h
  · split at h
    · cases h
      assumption
    · cases h
    · cases h

theorem ok_of_mapError {ε ε' α : Type} {x : Except ε α} {f : ε → ε'} {a : α}
    (h : x.mapError f = .ok a) : x = .ok a := by
  cases x with
  | ok a' => simpa [Except.mapError] using h
  | error e => cases h

/-- A query compiles if it can be read, is given types, and is lowered. -/
theorem build_ok {l : LambdaExpr} (h : c.build text root expected = .ok l) :
    ∃ query t, Term.ofText c.options.maxDepth text = .ok query ∧
      (LambdaQuery.infer c.catalog c.resolver query root expected).outcome = .ok t ∧
      LambdaExpr.ofTyped c.catalog t = .ok l := by
  obtain ⟨t, checked, lowered⟩ := ok_of_bind h
  obtain ⟨inferred, isInferred, typed⟩ := ok_of_bind checked
  obtain ⟨query, parsed, isInfer⟩ := ok_of_bind isInferred
  cases isInfer
  exact ⟨query, t, ofText_of_parse parsed, ok_of_mapError typed, ok_of_mapError lowered⟩

end Compiler

theorem rowSchema_fields {P : Ty → Prop} (onLow : P .int) (onTags : P (.list .int)) :
    rowSchema.Fields P := by
  intro name field mem
  have isRow : field = ("Low", .int) ∨ field = ("Tags", .list .int) := by
    simp only [Schema.declared, Schema.fields?, rowSchema, Schema.addRecord, Schema.empty,
      List.lookup_cons, List.lookup_nil] at mem
    split at mem
    · simpa using mem
    · cases mem
  rcases isRow with rfl | rfl
  · exact onLow
  · exact onTags

theorem rowSchema_proper : rowSchema.Fields Ty.Proper :=
  rowSchema_fields trivial trivial

/-- A row whose second number is above its limit. -/
def rowValue : Value :=
  .record ⟨"Row", [("Low", .int 3), ("Tags", .list [.int 1, .int 5])]⟩

theorem conforms_rowValue : Conforms rowSchema (.record "Row") rowValue := by
  refine .inr ⟨_, rfl, ?_⟩
  have declared : rowSchema.declared "Row" = [("Low", .int), ("Tags", .list .int)] := by decide
  rw [declared]
  simp only [List.forall_mem_cons]
  refine ⟨⟨.int 3, by cbv, .int 3⟩, ⟨.list [.int 1, .int 5], by cbv, .sequence rfl ?_⟩, by simp⟩
  intro v mem
  rcases List.mem_pair.1 mem with rfl | rfl
  · exact .int 1
  · exact .int 5

end LambdaQuery
