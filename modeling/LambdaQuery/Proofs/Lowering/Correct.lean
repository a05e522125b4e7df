import LambdaQuery.Proofs.Inference.Soundness
import LambdaQuery.Proofs.Lowering.Meaning
import LambdaQuery.Proofs.Lowering.Relation
import Mathlib

/-!
# Compiled queries mean what the typed queries mean

The numbered parameters of an expression take the values that the symbols of the query have, and
every part of the expression does what the rules say of the part of the query it was made from.
-/

namespace LambdaQuery

open Evaluation

/-- Each parameter in scope has one value, by its number and by its symbol. -/
def Parameters.Carries (ρ : Parameters) (σ : Valuables) (env : Env) : Prop :=
  ∀ symbol param, ρ.lookup symbol = some param →
    ∃ v, env.lookup param.id = some v ∧ σ.lookup symbol = some (param.ty, v)

theorem Parameters.Carries.cons {ρ : Parameters} {σ : Valuables} {env : Env} (h : ρ.Carries σ env)
    {symbol : Symbol} {param : Param} (new : ∀ entry ∈ ρ, entry.2.id ≠ param.id) (v : Value) :
    Carries ((symbol, param) :: ρ) ((symbol, (param.ty, v)) :: σ) ((param.id, v) :: env) := by
  intro wanted found isFound
  rcases lookup_bound new isFound with ⟨isNew, rfl⟩ | ⟨isOld, isOuter, different⟩
  · exact ⟨v, by simp, by simp [List.lookup_cons, isNew]⟩
  · obtain ⟨w, isValue, isValue'⟩ := h _ _ isOuter
    exact ⟨w, by rw [List.lookup_cons, different]; exact isValue,
      by rw [List.lookup_cons, isOld]; exact isValue'⟩

namespace Expr

variable {call : Closure → Value → Except EvalError Value} {env : Env} {e left right : Expr}

theorem eval_convertTo (e : Expr) (ty : Ty) : evalWith call (e.convertTo ty) env =
    (evalWith call e env).map (Conversion.implicit e.ty ty) := by
  unfold convertTo
  by_cases same : e.ty = ty
  · have stays : Conversion.implicit e.ty ty = id := by
      funext v
      simp [Conversion.implicit, same]
    rw [if_pos same, stays]
    cases evalWith call e env <;> rfl
  · have widens : Conversion.implicit e.ty ty = Data.widen ty := by
      funext v
      simp [Conversion.implicit, same]
    rw [if_neg same, widens, evalWith]
    cases evalWith call e env <;> rfl

theorem compare?_orderNumber (order : Ordering) :
    (.int (orderNumber order) : Value).compare? (.int 0) = some order := by
  cases order <;> decide

theorem applyOperator_orderNumber {op : Operator} (kind : op.kind = .ordering) (order : Ordering) :
    applyOperator op (.int (orderNumber order) : Value) (.int 0) = .ok (.bool (orderHolds op order)) := by
  unfold applyOperator
  rw [kind]
  simp only [compare?_orderNumber]

/-- Apart from texts, an operator is applied to the values of its operands. -/
theorem operate_of_not_text {common : Ty} {op : Operator}
    (notText : common = .string → op.kind ≠ .ordering ∧ op.kind ≠ .arithmetic)
    (strict : op.kind ≠ .logical) (l r : Except EvalError Value) :
    common.operate op l r = (do applyOperator op (← l) (← r)) := by
  unfold Ty.operate
  cases kind : op.kind with
  | logical => exact absurd kind strict
  | equality => cases common <;> rfl
  | ordering | arithmetic =>
    cases common with
    | string => simp [kind] at notText
    | _ => rfl

/-- An operator is built into what it does. -/
theorem eval_binary? {common : Ty} {op : Operator} (built : common.binary? op left right = some e) :
    evalWith call e env = common.operate op (evalWith call left env) (evalWith call right env) := by
  unfold Ty.binary? at built
  split at built
  · split at built
    · rename_i kind _
      cases built
      simp only [evalWith, evalAllWith, Ty.operate, kind]
      cases evalWith call left env with
      | error e => rfl
      | ok a =>
        cases evalWith call right env with
        | error e => rfl
        | ok b =>
          show ((compareTexts a b >>= fun order => .ok (.int (orderNumber order))) >>= fun answer =>
            applyOperator op answer (.int 0)) =
              (compareTexts a b >>= fun order => .ok (.bool (orderHolds op order)))
          cases compareTexts a b with
          | error e => rfl
          | ok order => exact applyOperator_orderNumber kind order
    · rename_i kind _
      cases built
      simp only [evalWith, evalAllWith, Ty.operate, kind]
      cases evalWith call left env with
      | error e => rfl
      | ok a =>
        cases evalWith call right env with
        | error e => rfl
        | ok b => rfl
    · rename_i notOrdered notJoined
      cases built
      by_cases logical : op.kind = .logical
      · simp only [evalWith, Ty.operate, logical]
      · rw [operate_of_not_text (fun isText => ⟨notOrdered isText, notJoined isText⟩) logical]
        cases kind : op.kind with
        | logical => exact absurd kind logical
        | _ => simp only [evalWith, kind]
  · cases built

theorem ty_binary? {common : Ty} {op : Operator} (built : common.binary? op left right = some e) :
    e.ty = op.resultTy common := by
  unfold Ty.binary? at built
  split at built
  · split at built
    · rename_i kind _
      cases built
      simp [Operator.resultTy, kind, ty]
    · rename_i kind _
      cases built
      simp [Operator.resultTy, kind, ty]
    · cases built
      rfl
  · cases built

end Expr

theorem Means.congr {convert : Conversion} {σ : Valuables} {t : Term Typed} {r r' : Behaviour}
    (h : Means convert σ t r) (same : ∀ depth, r' depth = r depth) : Means convert σ t r' := by
  have equal : r' = r := funext same
  rwa [equal]

/-- Expressions do what arguments mean if the first does and the others do. -/
theorem MeansAll.convertTo_cons {σ : Valuables} {t : Term Typed} {ts : List (Term Typed)} {ty : Ty}
    {types : List Ty} {e : Expr} {es : List Expr} {env : Env} (sameTy : e.ty = t.ty)
    (first : Means .implicit σ t fun depth => evalWith (applyClosure depth) e env)
    (rest : MeansAll .implicit σ ts types fun depth => evalAllWith (applyClosure depth) es env) :
    MeansAll .implicit σ (t :: ts) (ty :: types)
      fun depth => evalAllWith (applyClosure depth) (e.convertTo ty :: es) env := by
  have each (depth : Nat) : evalAllWith (applyClosure depth) (e.convertTo ty :: es) env =
      (evalWith (applyClosure depth) e env >>= fun v =>
        evalAllWith (applyClosure depth) es env >>= fun vs =>
          .ok (Conversion.implicit t.ty ty v :: vs)) := by
    rw [evalAllWith, Expr.eval_convertTo, sameTy]
    cases evalWith (applyClosure depth) e env <;> rfl
  simp only [each]
  exact .cons first rest

namespace Overload

variable {schema : Schema} {r : Request} {o : Overload}

/-- Whatever a name stands for, it does something with its arguments. -/
theorem Offered.act? (h : Offered schema.catalog r o) : ∃ act, o.lowering.act? = some act := by
  cases h with
  | property _ _ _ => exact ⟨_, rfl⟩
  | method _ _ _ _ => exact ⟨_, rfl⟩
  | standard _ isStandard =>
    simp only [Resolver.standardFunctions, List.mem_cons] at isStandard
    rcases isStandard with rfl | rfl | rfl | rfl | isNone
    · exact ⟨_, rfl⟩
    · exact ⟨_, rfl⟩
    · exact ⟨_, rfl⟩
    · exact ⟨_, rfl⟩
    · cases isNone

/-- The type of a property is that of the overload's result. -/
theorem Offered.property_ty (h : Offered schema.catalog r o) {p : Property Value}
    (isProperty : o.lowering = .property p) (args : List Ty) : o.resultTy? args = some p.ty := by
  cases h with
  | property _ _ _ =>
    cases isProperty
    rfl
  | method _ _ _ _ => cases isProperty
  | standard _ isStandard =>
    simp only [Resolver.standardFunctions, List.mem_cons] at isStandard
    rcases isStandard with rfl | rfl | rfl | rfl | isNone
    · cases isProperty
    · cases isProperty
    · cases isProperty
    · cases isProperty
    · cases isNone

/-- A use of a name is built into what the name does, and has the type of its result. -/
theorem Offered.build? (h : Offered schema.catalog r o) {args : List Ty} {es : List Expr} {ty : Ty}
    {e : Expr} (built : o.build? es ((o.resultTy? args).getD ty) = some e)
    {act : List Value → Behaviour} (acts : o.lowering.act? = some act) (env : Env) :
    e.ty = (o.resultTy? args).getD ty ∧ ∀ depth, evalWith (applyClosure depth) e env =
      (evalAllWith (applyClosure depth) es env >>= fun vs => act vs depth) := by
  unfold Overload.build? at built
  cases isLowering : o.lowering with
  | property p =>
    rw [isLowering] at built acts
    cases acts
    match es with
    | [receiver] =>
      cases built
      refine ⟨by rw [h.property_ty isLowering]; rfl, fun depth => ?_⟩
      simp only [evalWith, evalAllWith]
      cases evalWith (applyClosure depth) receiver env <;> rfl
    | [] => cases built
    | _ :: _ :: _ => cases built
  | function f =>
    rw [isLowering] at built acts
    cases built
    cases acts
    exact ⟨rfl, fun depth => rfl⟩
  | custom _ =>
    rw [isLowering] at acts
    cases acts

theorem Offered.eval_convertTo (h : Offered schema.catalog r o) {args : List Ty} {es : List Expr}
    {ty : Ty} {e : Expr} (built : o.build? es ((o.resultTy? args).getD ty) = some e)
    {act : List Value → Behaviour} (acts : o.lowering.act? = some act) (env : Env) (depth : Nat) :
    evalWith (applyClosure depth) (e.convertTo ty) env =
      (evalAllWith (applyClosure depth) es env >>= fun vs => act vs depth >>= fun v =>
        .ok (Conversion.implicit ((o.resultTy? args).getD ty) ty v)) := by
  obtain ⟨isTy, evaluates⟩ := h.build? built acts env
  rw [Expr.eval_convertTo, evaluates, isTy]
  cases evalAllWith (applyClosure depth) es env with
  | error e => rfl
  | ok vs =>
    show (act vs depth).map _ = (act vs depth >>= _)
    cases act vs depth <;> rfl

end Overload

mutual
theorem Lowers.means {schema : Schema} {options : Options} : ∀ {t : Term Typed} {ρ : Parameters}
    {e : Expr} {σ : Valuables} {env : Env}, Lowers schema.catalog ρ t e →
    WellTyped schema.catalog (Compiler.withOptions schema.catalog options).resolver ρ.types t →
    ρ.Carries σ env → Means .implicit σ t fun depth => evalWith (applyClosure depth) e env
  | .lambda note binder body, _, _, σ, env, @Lowers.lambda _ _ _ _ _ param e isParam new onBody,
    .lambda wellTyped isLambda, carries => by
    rw [onBody.lambdaBody_eq isLambda]
    rw [← isParam] at wellTyped
    have closure : Means .implicit σ (.lambda note binder body) fun _ =>
        .ok (Conversion.implicit (.lambda [binder.note.ty] body.ty) note.ty
          (.function ⟨param, e, env⟩)) := by
      refine .lambda fun v => ?_
      rw [← isParam]
      exact onBody.means wellTyped (carries.cons new v)
    refine closure.congr fun depth => ?_
    rw [Expr.eval_convertTo, evalWith, Expr.ty, isParam, onBody.ty_eq]
    rfl
  | .binary .., _, _, _, _, .binary onLeft onRight isCommon described built,
    .binary wellTyped wellTyped' joins, carries => by
    obtain ⟨_, rfl⟩ := Schema.describe_eq_some described
    refine (Means.binary (onLeft.means wellTyped carries) (onRight.means wellTyped' carries)
      isCommon).congr fun depth => ?_
    rw [Expr.eval_convertTo, Expr.eval_binary? built, Expr.ty_binary? built, Expr.eval_convertTo,
      Expr.eval_convertTo, onLeft.ty_eq, onRight.ty_eq]
    rfl
  | .call .., _, _, _, env, .call bound onArgs built, .call wellTyped bound' fits, carries => by
    cases bound.symm.trans bound'
    obtain ⟨_, _, resolved⟩ := fits.offered
    have offered := (Resolver.offered_of_resolve? resolved).1
    obtain ⟨act, acts⟩ := offered.act?
    exact (Means.call bound acts (onArgs.means wellTyped carries)).congr
      (offered.eval_convertTo built acts env)
  | .member .., _, _, _, env, .member bound onArgs built, .member wellTyped bound' fits,
    carries => by
    cases bound.symm.trans bound'
    obtain ⟨_, _, resolved⟩ := fits.offered
    have offered := (Resolver.offered_of_resolve? resolved).1
    obtain ⟨act, acts⟩ := offered.act?
    refine (Means.member bound acts ?_).congr (offered.eval_convertTo built acts env)
    generalize Overload.paramTys _ _ = params at onArgs
    cases onArgs with
    | cons onReceiver rest =>
      cases rest
      exact .convertTo_cons onReceiver.ty_eq (onReceiver.means wellTyped carries) .nil
  | .ident .., _, _, _, env, @Lowers.ident _ _ _ _ param isParam, .ident found, carries => by
    obtain ⟨v, isValue, isValue'⟩ := carries _ _ isParam
    refine (Means.ident isValue').congr fun depth => ?_
    rw [Expr.eval_convertTo, evalWith, isValue]
    rfl
  | .literal .., _, _, _, _, .literal bound described, .literal bound' _, _ => by
    obtain ⟨_, rfl⟩ := Schema.describe_eq_some described
    refine (Means.literal bound).congr fun depth => ?_
    rw [Expr.eval_convertTo]
    rfl

theorem LowersAll.means {schema : Schema} {options : Options} : ∀ {ts : List (Term Typed)}
    {ρ : Parameters} {types : List Ty} {es : List Expr} {σ : Valuables} {env : Env},
    LowersAll schema.catalog ρ ts types es →
    WellTypedAll schema.catalog (Compiler.withOptions schema.catalog options).resolver ρ.types ts →
    ρ.Carries σ env →
    MeansAll .implicit σ ts types fun depth => evalAllWith (applyClosure depth) es env
  | [], _, _, _, _, _, .nil, _, _ => .nil
  | _ :: _, _, _, _, _, _, .cons first rest, .cons wellTyped wellTyped', carries =>
    .convertTo_cons first.ty_eq (first.means wellTyped carries) (rest.means wellTyped' carries)
end

/-- A compiled query does what the typed query means: conversions happen where the type of a value
changes, and nowhere else. -/
theorem invoke_means (schema : Schema) (options : Options) {limit : Nat} {text : String}
    {query : Term Span} (parsed : Term.ofText limit text = .ok query) (root : Ty)
    (expected : Option Ty) {t : Term Typed}
    (inferred : (infer schema.catalog (Compiler.withOptions schema.catalog options).resolver query
      root expected).outcome = .ok t) {l : LambdaExpr}
    (lowered : LambdaExpr.ofTyped schema.catalog t = .ok l) :
    ∃ note param body, t = .lambda note param body ∧
      ∀ v, Means .implicit [(param.symbol, (param.note.ty, v))] body fun depth => l.invoke depth v := by
  obtain ⟨high, inScope⟩ := Term.scoped_of_ofText parsed
  have closed := schema.catalog.closed_true
  have sound := soundlyTyped_of_infer closed (Resolver.respects_withOptions closed options)
    (Resolver.plain_withOptions schema options) inScope trivial (fun _ _ => trivial) inferred
  obtain ⟨note, param, body, isLambda, isParam, wellTyped, lowers⟩ :=
    LambdaExpr.lowers_of_ofTyped sound.wellTyped (sound.symbols_rising inScope) lowered
  refine ⟨note, param, body, isLambda, fun v => ?_⟩
  have none : Parameters.Carries [] [] [] := fun _ _ found => by cases found
  have carries : Parameters.Carries [(param.symbol, l.param)] [(param.symbol, (l.param.ty, v))]
      [(l.param.id, v)] := none.cons (by simp) v
  rw [← isParam] at wellTyped ⊢
  exact lowers.means wellTyped carries

theorem lower_row : ∃ t l, (infer rowSchema.catalog
      (Compiler.withOptions rowSchema.catalog .standard).resolver rowQuery (.record "Row")
        (some .bool)).outcome = .ok t ∧
    LambdaExpr.ofTyped rowSchema.catalog t = .ok l := by
  have succeeds : ((infer rowSchema.catalog
      (Compiler.withOptions rowSchema.catalog .standard).resolver rowQuery (.record "Row")
        (some .bool)).outcome.toOption.bind fun t =>
          (LambdaExpr.ofTyped rowSchema.catalog t).toOption).isSome = true := by
    simp only [infer, Inference.run, Inference.work, Inference.solve_eq_solveBy 4]
    cbv
  obtain ⟨t, inferred⟩ := infer_row
  rw [inferred] at succeeds
  cases lowered : LambdaExpr.ofTyped rowSchema.catalog t with
  | ok l => exact ⟨t, l, inferred, lowered⟩
  | error e =>
    simp only [Except.toOption, Option.bind, lowered] at succeeds
    cases succeeds

theorem invoke_means_row : ∃ t l, Term.ofText 64 "p => Any(p.Tags, t => t > p.Low)" = .ok rowQuery ∧
    (infer rowSchema.catalog (Compiler.withOptions rowSchema.catalog .standard).resolver rowQuery
      (.record "Row") (some .bool)).outcome = .ok t ∧
    LambdaExpr.ofTyped rowSchema.catalog t = .ok l ∧
    ∃ note param body, t = .lambda note param body ∧
      ∀ v, Means .implicit [(param.symbol, (param.note.ty, v))] body fun depth => l.invoke depth v := by
  obtain ⟨t, l, inferred, lowered⟩ := lower_row
  exact ⟨t, l, ofText_row, inferred, lowered, invoke_means rowSchema .standard ofText_row
    (.record "Row") (some .bool) inferred lowered⟩

/-- The query that hands back its argument. -/
def sameQuery : Term Span :=
  .lambda ⟨0, 6⟩ ⟨⟨0, "x"⟩, ⟨0, 1⟩⟩ (.ident ⟨5, 6⟩ ⟨0, "x"⟩)

def sameTyped : Term Typed :=
  .lambda ⟨⟨0, 6⟩, .lambda [.float] .float, .none⟩ ⟨⟨0, "x"⟩, ⟨⟨0, 1⟩, .float, .none⟩⟩
    (.ident ⟨⟨5, 6⟩, .float, .none⟩ ⟨0, "x"⟩)

/-- A whole number where another was promised is left alone: nothing converts it, since its type does
not change. -/
theorem same_not_means_eager : ∃ l, Term.ofText 64 "x => x" = .ok sameQuery ∧
    (infer Schema.empty.catalog (Compiler.withOptions Schema.empty.catalog .standard).resolver
      sameQuery .float none).outcome = .ok sameTyped ∧
    LambdaExpr.ofTyped Schema.empty.catalog sameTyped = .ok l ∧
    ¬ ∃ note param body, sameTyped = .lambda note param body ∧
      Means .eager [(param.symbol, (param.note.ty, .int 5))] body
        fun depth => l.invoke depth (.int 5) := by
  refine ⟨_, by cbv, ?_, rfl, ?_⟩
  · simp only [infer, Inference.run, Inference.work, Inference.solve_eq_solveBy 4]
    cbv
  · rintro ⟨note, param, body, isLambda, means⟩
    cases isLambda
    generalize isBehaviour : (fun depth => _) = behaviour at means
    cases means with
    | ident found =>
      cases found
      have asked := congrFun isBehaviour 0
      cases asked

end LambdaQuery
