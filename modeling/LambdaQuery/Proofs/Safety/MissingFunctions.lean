import LambdaQuery.Proofs.Safety.Functions

/-!
# Queries that miss a function

A query that passes the checks can ask for a function and find null only if it has a null in the
place of a function: the checks take null for a function, as they take it for a text or a sequence.
-/

namespace LambdaQuery

open Evaluation

/-! ## Literals -/

namespace Term

mutual
/-- The literals of a typed query, from left to right. -/
def literals : Term Typed → List Typed
  | lambda _ _ body => literals body
  | binary _ _ left right => literals left ++ literals right
  | call _ _ args => literalsAll args
  | member _ receiver _ => literals receiver
  | ident .. => []
  | literal note _ => [note]

def literalsAll : List (Term Typed) → List Typed
  | [] => []
  | t :: rest => literals t ++ literalsAll rest
end

end Term

/-- No literal but null has the type of a function. -/
theorem Literal.WellTyped.eq_null {s : Schema} {ty : Ty} {text : Option String} {v : Value}
    (h : Literal.WellTyped s.catalog ty text v) (isFunction : ty.signature? ≠ none) :
    text = none ∧ v = .null := by
  cases text with
  | none => exact ⟨rfl, h.1⟩
  | some text =>
    obtain ⟨info, described, parsed⟩ := h
    obtain ⟨_, rfl⟩ := Schema.describe_eq_some described
    cases ty with
    | lambda params result => cases parsed
    | _ => exact absurd rfl isFunction

/-- A literal has a function wherever its type says so, unless it is a null for a function. -/
theorem Literal.WellTyped.applicable {s : Schema} {ty : Ty} {text : Option String} {v : Value}
    (h : Literal.WellTyped s.catalog ty text v) (notFunction : ty.signature? = none) :
    Applicable ty v := by
  cases text with
  | none =>
    obtain ⟨rfl, _⟩ := h
    cases ty with
    | lambda params result => cases notFunction
    | optional inner => exact .inl rfl
    | list e | array e | enumerable e => nofun
    | _ => trivial
  | some text =>
    -- Only types without functions have literals with a text.
    obtain ⟨info, described, parsed⟩ := h
    obtain ⟨_, rfl⟩ := Schema.describe_eq_some described
    cases ty with
    | optional inner =>
      cases inner with
      | optional _ | list _ | array _ | enumerable _ | record _ | lambda _ _ => cases parsed
      | _ => exact .inr trivial
    | list _ | array _ | enumerable _ | lambda _ _ => cases parsed
    | _ => trivial

mutual
theorem WellTyped.null_of_function {s : Schema} {resolver : Resolver} : ∀ {Γ : Context}
    {t : Term Typed}, WellTyped s.catalog resolver Γ t → ∀ n ∈ t.literals, n.ty.signature? ≠ none →
      n ∈ t.nulls ∧ n.binding = .constant .null
  | _, _, .lambda onBody _, n, mem, isFunction => onBody.null_of_function n mem isFunction
  | _, _, .binary onLeft onRight _, n, mem, isFunction => by
    rcases List.mem_append.1 mem with inLeft | inRight
    · obtain ⟨isNull, bound⟩ := onLeft.null_of_function n inLeft isFunction
      exact ⟨List.mem_append_left _ isNull, bound⟩
    · obtain ⟨isNull, bound⟩ := onRight.null_of_function n inRight isFunction
      exact ⟨List.mem_append_right _ isNull, bound⟩
  | _, _, .call onArgs _ _, n, mem, isFunction => onArgs.null_of_function n mem isFunction
  | _, _, .member onReceiver _ _, n, mem, isFunction => onReceiver.null_of_function n mem isFunction
  | _, _, .ident _, _, mem, _ => by cases mem
  | _, .literal note text, .literal bound wellTyped, n, mem, isFunction => by
    cases List.mem_singleton.1 mem
    obtain ⟨rfl, rfl⟩ := wellTyped.eq_null isFunction
    exact ⟨List.mem_singleton_self _, bound⟩

theorem WellTypedAll.null_of_function {s : Schema} {resolver : Resolver} : ∀ {Γ : Context}
    {ts : List (Term Typed)}, WellTypedAll s.catalog resolver Γ ts →
    ∀ n ∈ Term.literalsAll ts, n.ty.signature? ≠ none →
      n ∈ Term.nullsAll ts ∧ n.binding = .constant .null
  | _, _, .nil, _, mem, _ => by cases mem
  | _, _, .cons first rest, n, mem, isFunction => by
    rcases List.mem_append.1 mem with inFirst | inRest
    · obtain ⟨isNull, bound⟩ := first.null_of_function n inFirst isFunction
      exact ⟨List.mem_append_left _ isNull, bound⟩
    · obtain ⟨isNull, bound⟩ := rest.null_of_function n inRest isFunction
      exact ⟨List.mem_append_right _ isNull, bound⟩
end

/-! ## Expressions -/

/-- With these values for its parameters, an expression comes to a value with the functions of its
type and does not miss one on the way. -/
def Expr.Apt (env : Env) (e : Expr) : Prop :=
  ∀ depth, Unblocked (Applicable e.ty) (evalWith (applyClosure depth) e env)

namespace Expr

variable {env : Env} {e left right : Expr} {ty : Ty}

theorem apt_convertTo (h : e.Apt env) (converts : e.ty.Widens ty ∨
    ∃ element, e.ty = .enumerable element ∧ ty.element? = some element) :
    (e.convertTo ty).Apt env := by
  unfold convertTo
  split
  · exact h
  · exact fun depth => (h depth).bind fun _ applicable => applicable.convert converts

theorem unblocked_evalAll {types : List Ty} {es : List Expr} (depth : Nat)
    (h : List.Forall₂ (fun ty e => e.ty = ty ∧ e.Apt env) types es) :
    Unblocked (List.Forall₂ Applicable types) (evalAllWith (applyClosure depth) es env) := by
  induction h with
  | nil => exact .nil
  | cons first _ ih =>
    obtain ⟨rfl, apt⟩ := first
    exact (apt depth).bind fun _ onFirst => ih.bind fun _ onRest => .cons onFirst onRest

theorem apt_build {o : Overload} {types : List Ty} {result : Ty} {es : List Expr}
    (apt : o.lowering.Apt types result)
    (h : List.Forall₂ (fun ty e => e.ty = ty ∧ e.Apt env) types es)
    (built : o.build? es result = some e) : e.Apt env ∧ e.ty = result := by
  unfold Overload.build? at built
  cases isLowering : o.lowering with
  | property p =>
    rw [isLowering] at apt built
    obtain ⟨rfl, instanceTy, rfl, reads⟩ := apt
    cases h with
    | cons first rest =>
      cases rest
      cases built
      obtain ⟨rfl, onReceiver⟩ := first
      exact ⟨fun depth => (onReceiver depth).bind fun v => reads v depth, rfl⟩
  | function f =>
    rw [isLowering] at apt built
    cases built
    exact ⟨fun depth => (unblocked_evalAll depth h).bind fun vs => apt f.name vs depth, rfl⟩
  | custom _ =>
    rw [isLowering] at apt
    exact apt.elim

theorem unblocked_wholeArithmetic (op : Operator) (a b : Int64) :
    Unblocked (fun _ => True) (wholeArithmetic op a b : Except EvalError Value) := by
  unfold wholeArithmetic
  cases op with
  | add | sub | mul => exact Body.unblocked_wholeOr (by nofun) _
  | _ =>
    dsimp only
    split
    · nofun
    · exact Body.unblocked_wholeOr (by nofun) _

theorem unblocked_applyOperator (op : Operator) (a b : Value) :
    Unblocked (fun _ => True) (applyOperator op a b) := by
  have onNumbers : Unblocked (fun _ => True) (arithmetic op a b) := by
    unfold arithmetic
    split
    · trivial
    · trivial
    · exact unblocked_wholeArithmetic op _ _
    · exact (Body.unblocked_asFloat _).bind fun _ _ =>
        (Body.unblocked_asFloat _).bind fun _ _ => trivial
  unfold applyOperator
  split
  · trivial
  · split <;> trivial
  · exact onNumbers
  · exact onNumbers

/-- No operator asks for a function. -/
theorem unblocked_operate {Q R : Value → Prop} (common : Ty) (op : Operator)
    {l r : Except EvalError Value} (onLeft : Unblocked Q l) (onRight : Unblocked R r) :
    Unblocked (fun _ => True) (common.operate op l r) := by
  unfold Ty.operate
  split
  · refine onLeft.bind fun v _ => (Body.unblocked_asBool v).bind fun a _ => ?_
    split
    · exact onRight.bind fun w _ => (Body.unblocked_asBool w).bind fun _ _ => trivial
    · trivial
  · refine onLeft.bind fun v _ => onRight.bind fun w _ => ?_
    split
    · exact (Body.unblocked_compareTexts v w).bind fun _ _ => trivial
    · exact (Body.unblocked_concatTexts [v, w]).bind fun _ _ => trivial
    · exact unblocked_applyOperator op v w

/-- What an operator gives has no functions in it. -/
theorem firstOrder_resultTy {common : Ty} {op : Operator} (supported : common.supports op = true) :
    (op.resultTy common).FirstOrder := by
  cases kind : op.kind with
  | arithmetic =>
    have result : op.resultTy common = common := by simp [Operator.resultTy, kind]
    rw [result]
    simp only [Ty.supports, kind] at supported
    cases common with
    | optional inner => cases inner <;> trivial
    | _ => trivial
  | _ =>
    have result : op.resultTy common = .bool := by simp [Operator.resultTy, kind]
    rw [result]
    trivial

theorem apt_binary {op : Operator} {common : Ty} (onLeft : left.Apt env) (onRight : right.Apt env)
    (built : common.binary? op left right = some e) : e.Apt env := by
  intro depth
  have supported : common.supports op = true := by
    unfold Ty.binary? at built
    split at built
    · assumption
    · cases built
  rw [eval_binary? built, ty_binary? built]
  exact (unblocked_operate common op (onLeft depth) (onRight depth)).mono fun v _ =>
    .of_firstOrder _ (firstOrder_resultTy supported) v

end Expr

/-! ## Queries -/

/-- Every parameter in scope has a value with the functions of its type. -/
def Parameters.Furnished (ρ : Parameters) (env : Env) : Prop :=
  ∀ symbol param, ρ.lookup symbol = some param →
    ∃ v, env.lookup param.id = some v ∧ Applicable param.ty v

theorem Parameters.Furnished.cons {ρ : Parameters} {env : Env} (h : ρ.Furnished env)
    {symbol : Symbol} {param : Param} (new : ∀ entry ∈ ρ, entry.2.id ≠ param.id) {v : Value}
    (applicable : Applicable param.ty v) :
    Furnished ((symbol, param) :: ρ) ((param.id, v) :: env) := by
  intro wanted found isFound
  rcases lookup_bound new isFound with ⟨_, rfl⟩ | ⟨_, isOuter, different⟩
  · exact ⟨v, by simp, applicable⟩
  · obtain ⟨w, isValue, onValue⟩ := h _ _ isOuter
    exact ⟨w, by rw [List.lookup_cons, different]; exact isValue, onValue⟩

theorem Overload.Widens.result_converts {o : Overload} {args : List Ty} {ty : Ty}
    (h : o.Widens args ty) : ((o.resultTy? args).getD ty).Widens ty ∨
      ∃ element, (o.resultTy? args).getD ty = .enumerable element ∧ ty.element? = some element := by
  rcases h.result with widens | ⟨_, element, -, -, isResult, isElement⟩
  · exact .inl widens
  · exact .inr ⟨element, by rw [isResult, Option.getD_some], isElement⟩

mutual
/-- A well-typed query whose literals are no functions does not miss a function, as long as its
parameters have the functions of their types. -/
theorem Lowers.apt {s : Schema} {options : Options} (fields : s.Fields Ty.FirstOrder) :
    ∀ {t : Term Typed} {ρ : Parameters} {e : Expr} {env : Env}, Lowers s.catalog ρ t e →
    WellTyped s.catalog (Compiler.withOptions s.catalog options).resolver ρ.types t →
    (∀ n ∈ t.literals, n.ty.signature? = none) → ρ.Furnished env → e.Apt env
  | .lambda note binder body, ρ, _, env, @Lowers.lambda _ _ _ _ _ param e isParam new onBody,
    .lambda wellTyped isLambda, literals, furnished => by
    rw [onBody.lambdaBody_eq isLambda]
    have sameTy : (Expr.lambda param e).ty = note.ty := by
      rw [isLambda, ← isParam, ← onBody.ty_eq]
      rfl
    rw [← isParam] at wellTyped
    have isClosure : (Expr.lambda param e).Apt env := fun _ =>
      ⟨⟨param, e, env⟩, rfl, fun x applicable depth => by
        cases depth with
        | zero => nofun
        | succ depth =>
          exact onBody.apt fields wellTyped literals (furnished.cons new applicable) depth⟩
    exact Expr.apt_convertTo isClosure (.inl (sameTy ▸ Ty.widens_self _))
  | .binary .., _, _, _, .binary onLeft onRight isCommon described built,
    .binary wellTyped wellTyped' joins, literals, furnished => by
    obtain ⟨inLeft, inRight⟩ := List.forall_mem_append.1 literals
    obtain ⟨_, rfl⟩ := Schema.describe_eq_some described
    obtain ⟨fromLeft, fromRight⟩ := Ty.common?_flat isCommon
    have left := Expr.apt_convertTo (onLeft.apt fields wellTyped inLeft furnished)
      (.inl (onLeft.ty_eq ▸ fromLeft))
    have right := Expr.apt_convertTo (onRight.apt fields wellTyped' inRight furnished)
      (.inl (onRight.ty_eq ▸ fromRight))
    refine Expr.apt_convertTo (Expr.apt_binary left right built) (.inl ?_)
    rw [Expr.ty_binary? built]
    exact Ty.widens_of_assignable (joins.assignable isCommon)
  | .call .., _, _, _, .call bound onArgs built, .call wellTyped bound' fits, literals,
    furnished => by
    cases bound.symm.trans bound'
    obtain ⟨_, -, resolved⟩ := fits.offered
    have apt := (Resolver.offered_of_resolve? resolved).1.apt fields fits
    obtain ⟨isApt, isTy⟩ := Expr.apt_build apt
      (onArgs.apt fields wellTyped literals furnished fits.widens.params) built
    exact Expr.apt_convertTo isApt (isTy ▸ fits.widens.result_converts)
  | .member .., _, _, _, .member bound onReceiver built, .member wellTyped bound' fits, literals,
    furnished => by
    cases bound.symm.trans bound'
    obtain ⟨_, -, resolved⟩ := fits.offered
    have apt := (Resolver.offered_of_resolve? resolved).1.apt fields fits
    have params := fits.widens.params
    generalize Overload.paramTys _ _ = types at onReceiver params apt
    cases onReceiver with
    | cons onReceiver rest =>
      cases rest
      cases params with
      | cons widens _ =>
        have receiver := Expr.apt_convertTo (onReceiver.apt fields wellTyped literals furnished)
          (.inl (onReceiver.ty_eq ▸ widens))
        obtain ⟨isApt, isTy⟩ := Expr.apt_build apt
          (.cons ⟨Expr.ty_convertTo .., receiver⟩ .nil) built
        exact Expr.apt_convertTo isApt (isTy ▸ fits.widens.result_converts)
  | .ident .., _, _, env, @Lowers.ident _ _ _ _ param isParam, .ident found, _, furnished => by
    obtain ⟨_, isParam', sameTy⟩ := Parameters.lookup_types found
    cases isParam.symm.trans isParam'
    obtain ⟨v, isValue, applicable⟩ := furnished _ _ isParam
    have isApt : (Expr.param param).Apt env := fun depth => by
      simp only [evalWith, isValue]
      exact applicable
    exact Expr.apt_convertTo isApt (.inl (sameTy ▸ Ty.widens_self _))
  | .literal note _, _, _, env, @Lowers.literal _ _ _ _ value _ bound described,
    .literal bound' wellTyped, literals, _ => by
    cases bound.symm.trans bound'
    obtain ⟨_, rfl⟩ := Schema.describe_eq_some described
    have isApt : (Expr.constant value note.ty).Apt env := fun _ =>
      wellTyped.applicable (literals note (List.mem_singleton_self note))
    exact Expr.apt_convertTo isApt (.inl (Ty.widens_self _))

theorem LowersAll.apt {s : Schema} {options : Options} (fields : s.Fields Ty.FirstOrder) :
    ∀ {ts : List (Term Typed)} {ρ : Parameters} {types : List Ty} {es : List Expr} {env : Env},
    LowersAll s.catalog ρ ts types es →
    WellTypedAll s.catalog (Compiler.withOptions s.catalog options).resolver ρ.types ts →
    (∀ n ∈ Term.literalsAll ts, n.ty.signature? = none) → ρ.Furnished env →
    List.Forall₂ Ty.Widens (ts.map Term.ty) types →
    List.Forall₂ (fun ty e => e.ty = ty ∧ Expr.Apt env e) types es
  | [], _, _, _, _, .nil, _, _, _, _ => .nil
  | _ :: _, _, _, _, _, .cons first rest, .cons wellTyped wellTyped', literals, furnished,
    .cons widens widens' => by
    obtain ⟨inFirst, inRest⟩ := List.forall_mem_append.1 literals
    exact .cons ⟨Expr.ty_convertTo .., Expr.apt_convertTo (first.apt fields wellTyped inFirst furnished)
      (.inl (first.ty_eq ▸ widens))⟩ (rest.apt fields wellTyped' inRest furnished widens')
end

/-- What is built for a query was made from the body of what checking gave for it. -/
theorem Compiler.lowers_of_build {schema : Schema} {options : Options} {text : String} {root : Ty}
    {expected : Option Ty} {t : Term Typed} {l : LambdaExpr}
    (checked : (withOptions schema.catalog options).check text root expected = .ok t)
    (built : (withOptions schema.catalog options).build text root expected = .ok l) :
    ∃ note binder body, t = .lambda note binder body ∧ l.param.ty = root ∧
      WellTyped schema.catalog (withOptions schema.catalog options).resolver
        (Parameters.types [(binder.symbol, l.param)]) body ∧
      Lowers schema.catalog [(binder.symbol, l.param)] body l.body := by
  have lowered : LambdaExpr.ofTyped schema.catalog t = .ok l := by
    unfold build at built
    rw [checked] at built
    exact ok_of_mapError built
  obtain ⟨inferred, isInferred, typed⟩ := ok_of_bind checked
  obtain ⟨query, parsed, isInfer⟩ := ok_of_bind isInferred
  cases isInfer
  obtain ⟨high, inScope⟩ := Term.scoped_of_ofText (ofText_of_parse parsed)
  have closed := schema.catalog.closed_true
  have sound := soundlyTyped_of_infer closed (Resolver.respects_withOptions closed options)
    (Resolver.plain_withOptions schema options) inScope trivial (fun _ _ => trivial)
    (ok_of_mapError typed)
  obtain ⟨note, binder, body, rfl, isParam, wellTyped, lowers⟩ :=
    LambdaExpr.lowers_of_ofTyped sound.wellTyped (sound.symbols_rising inScope) lowered
  obtain ⟨_, _, _, isLambda, isRoot, _⟩ := sound.isLambda
  cases isLambda
  have context : Parameters.types [(binder.symbol, l.param)] = [(binder.symbol, binder.note.ty)] := by
    simp [Parameters.types, isParam]
  exact ⟨note, binder, body, rfl, isParam.trans isRoot, context ▸ wellTyped, lowers⟩

/-- A query that passes the checks has nulls for the only literals of a function type. If it has none,
no value that it is applied to makes it find anything else where it asks for a function. -/
theorem function_missing_only_for_null {schema : Schema} (fields : schema.Fields Ty.FirstOrder)
    {options : Options} {text : String} {root : Ty} {expected : Option Ty} {t : Term Typed}
    (first : root.FirstOrder)
    (checked : (Compiler.withOptions schema.catalog options).check text root expected = .ok t) :
    (∀ n ∈ t.literals, n.ty.signature? ≠ none → n ∈ t.nulls ∧ n.binding = .constant .null) ∧
    ((∀ n ∈ t.literals, n.ty.signature? = none) →
      ∀ l, (Compiler.withOptions schema.catalog options).build text root expected = .ok l →
        ∀ depth v found, l.invoke depth v ≠ .error (.typeMismatch .function found)) := by
  refine ⟨(Compiler.check_hinges checked).1.null_of_function, fun literals l built depth v => ?_⟩
  obtain ⟨note, binder, body, rfl, isRoot, wellTyped, lowers⟩ := Compiler.lowers_of_build checked built
  have furnished : Parameters.Furnished [(binder.symbol, l.param)] [(l.param.id, v)] := by
    have none : Parameters.Furnished [] [] := fun _ _ found => by cases found
    refine none.cons (by simp) ?_
    rw [isRoot]
    exact .of_firstOrder root first v
  have outcome : Unblocked (Applicable l.body.ty) (l.invoke depth v) :=
    lowers.apt fields wellTyped literals furnished depth
  intro found mismatch
  rw [mismatch] at outcome
  exact outcome found rfl

theorem exists_ok_of_toOption {ε α β : Type} {x : Except ε α} {f : α → β} {b : β}
    (h : x.toOption.map f = some b) : ∃ a, x = .ok a ∧ f a = b := by
  cases x with
  | ok a => exact ⟨a, rfl, Option.some.inj h⟩
  | error e => cases h

/-- A query whose only literal is a number always finds its test. -/
theorem function_missing_only_for_null_row : ∃ t l,
    (Compiler.withOptions rowSchema.catalog .standard).check "p => Any(p.Tags, t => t > 3)"
      (.record "Row") none = .ok t ∧
    (∀ n ∈ t.literals, n.ty.signature? = none) ∧
    (Compiler.withOptions rowSchema.catalog .standard).build "p => Any(p.Tags, t => t > 3)"
      (.record "Row") none = .ok l ∧
    ∀ depth v found, l.invoke depth v ≠ .error (.typeMismatch .function found) := by
  obtain ⟨t, checked, types⟩ : ∃ t, (Compiler.withOptions rowSchema.catalog .standard).check
      "p => Any(p.Tags, t => t > 3)" (.record "Row") none = .ok t ∧
        t.literals.map Typed.ty = [.int] := by
    refine exists_ok_of_toOption ?_
    simp only [Compiler.check, Compiler.infer, infer, Inference.run, Inference.work,
      Inference.solve_eq_solveBy 4]
    cbv
  have literals : ∀ n ∈ t.literals, n.ty.signature? = none := by
    intro n mem
    have isInt : n.ty = .int := by simpa [types] using List.mem_map_of_mem (f := Typed.ty) mem
    rw [isInt]
    rfl
  obtain ⟨l, built⟩ : ∃ l, (Compiler.withOptions rowSchema.catalog .standard).build
      "p => Any(p.Tags, t => t > 3)" (.record "Row") none = .ok l := by
    refine exists_ok_of_isOk ?_
    simp only [Compiler.build, Compiler.check, Compiler.infer, infer, Inference.run, Inference.work,
      Inference.solve_eq_solveBy 4]
    cbv
  have noFunctions : (Ty.record "Row").FirstOrder := trivial
  exact ⟨t, l, checked, literals, built, (function_missing_only_for_null
    (rowSchema_fields trivial trivial) noFunctions checked).2 literals l built⟩

/-- Null passes for a test, and is found to be none when it is asked for. -/
theorem null_taken_for_test : ∃ t l,
    (Compiler.withOptions rowSchema.catalog .standard).check "p => Any(p.Tags, null)"
      (.record "Row") none = .ok t ∧
    t.literals.map Typed.ty = [.lambda [.int] .bool] ∧
    (Compiler.withOptions rowSchema.catalog .standard).build "p => Any(p.Tags, null)"
      (.record "Row") none = .ok l ∧
    l.invoke 1 rowValue = .error (.typeMismatch .function .null) := by
  obtain ⟨t, checked, types⟩ : ∃ t, (Compiler.withOptions rowSchema.catalog .standard).check
      "p => Any(p.Tags, null)" (.record "Row") none = .ok t ∧
        t.literals.map Typed.ty = [.lambda [.int] .bool] := by
    refine exists_ok_of_toOption ?_
    simp only [Compiler.check, Compiler.infer, infer, Inference.run, Inference.work,
      Inference.solve_eq_solveBy 4]
    cbv
  obtain ⟨l, built, outcome⟩ : ∃ l, (Compiler.withOptions rowSchema.catalog .standard).build
      "p => Any(p.Tags, null)" (.record "Row") none = .ok l ∧
        l.invoke 1 rowValue = .error (.typeMismatch .function .null) := by
    refine exists_ok_of_toOption ?_
    simp only [Compiler.build, Compiler.check, Compiler.infer, infer, Inference.run, Inference.work,
      Inference.solve_eq_solveBy 4]
    cbv
  exact ⟨t, l, checked, types, built, outcome⟩

end LambdaQuery
