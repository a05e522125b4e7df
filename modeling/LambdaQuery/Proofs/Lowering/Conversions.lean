import LambdaQuery.Proofs.Lowering.Correct
import LambdaQuery.Proofs.Lowering.Success

/-!
# The conversions of a compiled query

A compiled query converts a value only where its type changes, and to a type that values of its own
type can be used as. There are two exceptions. What is mapped from a sequence is said to be of any
type of sequences with the same elements; and an optional of an optional counts as one optional.
-/

namespace LambdaQuery

namespace Ty

/-- The type with null added at most once on the outside. -/
def flat : Ty → Ty
  | optional inner => (flat inner).orNull
  | ty => ty

variable {a b c source target : Ty}

theorem underlying_orNull (ty : Ty) : ty.orNull.underlying = ty.underlying := by
  cases ty <;> rfl

theorem flat_underlying_plain (ty : Ty) : ty.flat.underlying.isOptional = false := by
  fun_induction flat ty with
  | case1 inner ih => rwa [underlying_orNull]
  | case2 ty plain =>
    cases ty with
    | optional inner => exact absurd rfl (plain inner)
    | _ => rfl

/-- A type that is not an optional of an optional is flat. -/
theorem flat_eq_self (once : ∀ t, source ≠ .optional (.optional t)) : source.flat = source := by
  cases source with
  | optional inner =>
    cases inner with
    | optional t => exact absurd rfl (once t)
    | _ => rfl
  | _ => rfl

theorem eq_optional (h : source.isOptional = true) : ∃ inner, source = .optional inner := by
  cases source <;> first | exact ⟨_, rfl⟩ | cases h

theorem underlying_of_plain (plain : source.isOptional = false) : source.underlying = source := by
  cases source <;> first | rfl | cases plain

theorem optional_assignable_iff :
    (optional target).assignable source = true ↔ target.assignable source.underlying = true := by
  refine ⟨fun h => ?_, optional_assignable⟩
  unfold assignable at h
  rcases Bool.or_eq_true_iff.1 h with same | inside
  · rw [← eq_of_beq same]
    exact assignable_refl target
  · cases source <;> exact inside

/-- A value that may be null is not used where null has no place. -/
theorem plain_of_assignable (plain : target.isOptional = false)
    (h : target.assignable source = true) : source.isOptional = false := by
  unfold assignable at h
  cases source with
  | optional inner => cases target <;> simp [element?, isOptional] at h plain
  | _ => rfl

theorem orNull_assignable_orNull (h : target.assignable source = true) :
    target.orNull.assignable source.orNull = true := by
  cases isOptional : target.isOptional with
  | false =>
    rw [orNull_plain isOptional, optional_assignable_iff, underlying_orNull,
      underlying_of_plain (plain_of_assignable isOptional h)]
    exact h
  | true =>
    obtain ⟨inner, rfl⟩ := eq_optional isOptional
    rw [orNull, optional_assignable_iff, underlying_orNull]
    exact optional_assignable_iff.1 h

theorem orNull_assignable (h : target.assignable source = true) :
    target.orNull.assignable source = true := by
  have withNull := orNull_assignable_orNull h
  cases source with
  | optional inner => exact withNull
  | _ =>
    obtain ⟨inner, same⟩ : ∃ inner, target.orNull = .optional inner :=
      eq_optional (by cases target <;> rfl)
    rw [same, optional_assignable_iff] at withNull ⊢
    exact withNull

/-- What a type can be used as, it can also be used as when its nulls count once. -/
theorem assignable_flat (h : target.assignable source = true) :
    target.assignable source.flat = true := by
  fun_induction flat source generalizing target with
  | case1 inner ih =>
    cases isOptional : target.isOptional with
    | false => cases plain_of_assignable isOptional h
    | true =>
      obtain ⟨t, rfl⟩ := eq_optional isOptional
      have inside := ih (optional_assignable_iff.1 h)
      rw [optional_assignable_iff, underlying_orNull]
      cases isOptional' : t.isOptional with
      | false =>
        rw [underlying_of_plain (plain_of_assignable isOptional' inside)]
        exact inside
      | true =>
        obtain ⟨t', rfl⟩ := eq_optional isOptional'
        rw [optional_assignable_iff] at inside ⊢
        rwa [underlying_of_plain (flat_underlying_plain inner)]
  | case2 => exact h

/-- Two operands can be used as their common type, null counting once. -/
theorem common?_flat {a b c : Ty} (h : a.common? b = some c) :
    c.assignable a.flat = true ∧ c.assignable b.flat = true := by
  fun_induction common? a b generalizing c with
  | case1 a b fromRight =>
    cases h
    exact ⟨assignable_flat (assignable_refl a), assignable_flat fromRight⟩
  | case2 a b _ fromLeft =>
    cases h
    exact ⟨assignable_flat fromLeft, assignable_flat (assignable_refl b)⟩
  | case3 a b _ _ ih =>
    obtain ⟨inner, isInner, rfl⟩ := Option.map_eq_some_iff.1 h
    exact ⟨orNull_assignable_orNull (ih isInner).1, orNull_assignable_orNull (ih isInner).2⟩
  | case4 a b _ _ _ ih =>
    obtain ⟨inner, isInner, rfl⟩ := Option.map_eq_some_iff.1 h
    exact ⟨orNull_assignable_orNull (ih isInner).1, orNull_assignable (ih isInner).2⟩
  | case5 a b _ _ _ ih =>
    obtain ⟨inner, isInner, rfl⟩ := Option.map_eq_some_iff.1 h
    exact ⟨orNull_assignable (ih isInner).1, orNull_assignable_orNull (ih isInner).2⟩
  | case6 => cases h

/-- Values of one type can be used as another, null counting once. -/
def Widens (source target : Ty) : Prop :=
  target.assignable source.flat = true

theorem widens_of_assignable (h : target.assignable source = true) : source.Widens target :=
  assignable_flat h

theorem widens_self (ty : Ty) : ty.Widens ty :=
  widens_of_assignable (assignable_refl ty)

theorem widens_orNull_underlying (ty : Ty) : ty.Widens ty.underlying.orNull := by
  cases ty with
  | optional inner =>
    exact orNull_assignable_orNull (assignable_flat (assignable_refl inner))
  | _ => exact orNull_assignable (assignable_refl _)

end Ty

/-! Signatures of the members of a schema and of the standard functions. -/

/-- A type, or a test of values of a type. -/
def Shape.Firm (shape : Shape) : Prop :=
  (∃ ty, shape = .concrete ty) ∨ ∃ element, shape = .lambda [.concrete element] (.concrete .bool)

/-- The signature has no variables. -/
def Method.Firm (m : Method) : Prop :=
  (∀ shape ∈ m.params, shape.Firm) ∧ ∃ result, m.result = .concrete result

/-- The signature has no variables. -/
def Overload.Firm (o : Overload) : Prop :=
  (∀ shape ∈ o.params, shape.Firm) ∧ ∃ result, o.result = .concrete result

namespace Members

theorem aggregates_firm (element : Ty) : ∀ m ∈ aggregates element, m.Firm := by
  unfold aggregates
  split <;> simp [Method.Firm, Method.ofBody]

theorem ofSequence_firm (element : Ty) :
    ∀ m ∈ (ofSequence element).methods, m.Firm ∨ m = select element := by
  refine List.forall_mem_append.2 ⟨?_, fun m mem => .inl (aggregates_firm element m mem)⟩
  simp [Method.Firm, Shape.Firm, Method.ofBody]

end Members

theorem Schema.methods_firm (schema : Schema) (ty : Ty) : ∀ m ∈ (schema.members ty).methods,
    m.Firm ∨ ∃ element, m = Members.select element := by
  cases ty with
  | string | optional _ =>
    simp [members, Members.ofString, Members.ofOptional, Method.Firm, Shape.Firm, Method.ofBody]
  | list e | array e | enumerable e =>
    exact fun m mem => (Members.ofSequence_firm e m mem).imp_right fun isSelect => ⟨e, isSelect⟩
  | _ => simp [members, Members.none, Members.ofDate]

namespace Overload

open Shape

variable {schema : Schema} {r : Request} {o : Overload}

/-- Only mapping and coalescing have variables in their signatures. -/
theorem Offered.firm (h : Offered schema.catalog r o) :
    o.Firm ∨ (∃ receiver element, o = ofMethod receiver (Members.select element)) ∨
      o = Resolver.coalesce := by
  cases h with
  | property _ _ _ => exact .inl (by simp [Firm, Shape.Firm, ofProperty])
  | @method ty _ _ m _ _ described isMethod =>
    obtain ⟨_, rfl⟩ := Schema.describe_eq_some described
    rcases schema.methods_firm ty m isMethod with ⟨params, result⟩ | ⟨element, rfl⟩
    · exact .inl ⟨List.forall_mem_cons.2 ⟨.inl ⟨ty, rfl⟩, params⟩, result⟩
    · exact .inr (.inl ⟨ty, element, rfl⟩)
  | standard _ isStandard =>
    simp only [Resolver.standardFunctions, List.mem_cons] at isStandard
    rcases isStandard with rfl | rfl | rfl | rfl | isNone
    · exact .inl (by simp [Firm, Shape.Firm, Resolver.free])
    · exact .inl (by simp [Firm, Shape.Firm, Resolver.free])
    · exact .inl (by simp [Firm, Shape.Firm, Resolver.free])
    · exact .inr (.inr rfl)
    · cases isNone

/-- Used with arguments of these types for a result of the given type, an overload takes the
arguments as something they can be used as. The same holds of its result, or else the result is
mapped from a sequence and taken for another sequence. -/
structure Widens (o : Overload) (args : List Ty) (ty : Ty) : Prop where
  params : List.Forall₂ Ty.Widens args (o.paramTys args)
  result : ((o.resultTy? args).getD ty).Widens ty ∨ ∃ f element, o.lowering = .function f ∧
    f.body = .map ∧ o.resultTy? args = some (.enumerable element) ∧ ty.element? = some element

theorem firm_widens {shape : Shape} (firm : shape.Firm) {source : Ty} {b b' : Bindings}
    (accepts : shape.accepts source b = (true, b')) (bound : Bindings) :
    source.Widens ((shape.instantiate? bound).getD source) := by
  rcases firm with ⟨ty, rfl⟩ | ⟨element, rfl⟩
  · exact Ty.widens_of_assignable (Prod.mk.inj accepts).1
  · obtain ⟨given, rfl, isBool⟩ := lambda_accepts accepts
    cases Ty.eq_bool_of_assignable (Prod.mk.inj isBool).1
    exact Ty.widens_self _

theorem firm_widens_all {shapes : List Shape} {args : List Ty} {b : Bindings}
    (firm : ∀ shape ∈ shapes, shape.Firm) (arity : shapes.length = args.length)
    (accepted : ∀ p ∈ shapes.zip args, p.1.accepts p.2 b = (true, b)) (bound : Bindings) :
    List.Forall₂ Ty.Widens args
      ((shapes.zip args).map fun (shape, ty) => (shape.instantiate? bound).getD ty) := by
  induction shapes generalizing args with
  | nil =>
    cases args with
    | nil => exact .nil
    | cons => cases arity
  | cons shape rest ih =>
    cases args with
    | nil => cases arity
    | cons arg args =>
      obtain ⟨onFirst, onRest⟩ := List.forall_mem_cons.1 accepted
      obtain ⟨firmFirst, firmRest⟩ := List.forall_mem_cons.1 firm
      exact .cons (firm_widens firmFirst onFirst bound) (ih firmRest (Nat.succ.inj arity) onRest)

variable {resolver : Resolver} {site : Site} {name : String} {args : List Ty} {ty : Ty}

theorem Firm.widens (firm : o.Firm) (h : o.WellTyped resolver site name args ty) :
    o.Widens args ty := by
  obtain ⟨b, accepted, given⟩ := h.fits
  obtain ⟨params, result, isResult⟩ := firm
  refine ⟨firm_widens_all params h.arity accepted _, .inl (Ty.widens_of_assignable ?_)⟩
  have isResultTy : o.resultTy? args = some result := by
    rw [resultTy?, isResult]
    rfl
  rw [isResultTy]
  rw [isResult] at given
  rcases given with exact | ⟨_, same, assignable⟩
  · have same : result = ty := by simpa [isMatch, fits] using exact
    rw [Option.getD_some, same]
    exact Ty.assignable_refl ty
  · cases same
    exact assignable

theorem select_widens {receiver element : Ty}
    (h : (ofMethod receiver (Members.select element)).WellTyped resolver site name args ty) :
    (ofMethod receiver (Members.select element)).Widens args ty := by
  obtain ⟨b, accepted, given⟩ := h.fits
  have arity := h.arity
  match args with
  | [first, second] =>
    obtain ⟨onFirst, onSecond⟩ : _ ∧ _ := by
      simpa [ofMethod, Members.select, Method.ofBody] using accepted
    obtain ⟨result, rfl, bound⟩ := lambda_accepts onSecond
    have isResult : b.get? 0 = some result := get?_of_bind bound
    refine ⟨?_, ?_⟩
    · rw [paramTys_select]
      exact .cons (Ty.widens_of_assignable (Prod.mk.inj onFirst).1) (.cons (Ty.widens_self _) .nil)
    · rw [resultTy?_select]
      rcases given with exact | ⟨_, same, assignable⟩
      · cases isElement : ty.element? with
        | none => simp [ofMethod, Members.select, Method.ofBody, isMatch, fits, isElement] at exact
        | some given =>
          have bound' : b.bind 0 given = (true, b) := by
            simpa [ofMethod, Members.select, Method.ofBody, isMatch, fits, isElement] using exact
          cases (get?_of_bind bound').symm.trans isResult
          exact .inr ⟨_, _, rfl, rfl, rfl, rfl⟩
      · simp only [ofMethod, Members.select, Method.ofBody, instantiate?, isResult] at same
        cases same
        exact .inl (Ty.widens_of_assignable assignable)
  | [] => cases arity
  | [_] => cases arity
  | _ :: _ :: _ :: _ => cases arity

theorem coalesce_widens (h : Resolver.coalesce.WellTyped resolver site name args ty) :
    Resolver.coalesce.Widens args ty := by
  obtain ⟨b, accepted, given⟩ := h.fits
  have arity := h.arity
  match args with
  | [first, second] =>
    obtain ⟨onFirst, onSecond⟩ : _ ∧ _ := by
      simpa [Resolver.coalesce, Resolver.free] using accepted
    have isSecond : b.get? 0 = some second := get?_of_bind onSecond
    have isFirst : b.get? 0 = some first.underlying := by
      cases first <;> exact get?_of_bind onFirst
    have same : first.underlying = second := Option.some.inj (isFirst.symm.trans isSecond)
    refine ⟨?_, .inl ?_⟩
    · rw [paramTys_coalesce same]
      refine .cons ?_ (.cons (Ty.widens_self _) .nil)
      subst same
      exact Ty.widens_orNull_underlying first
    · rw [resultTy?_coalesce same]
      rcases given with exact | ⟨_, isResult, assignable⟩
      · have isTy : b.get? 0 = some ty := get?_of_bind exact
        cases isSecond.symm.trans isTy
        exact Ty.widens_self _
      · cases isSecond.symm.trans isResult
        exact Ty.widens_of_assignable assignable
  | [] => cases arity
  | [_] => cases arity
  | _ :: _ :: _ :: _ => cases arity

theorem WellTyped.widens {options : Options}
    (h : o.WellTyped (Compiler.withOptions schema.catalog options).resolver site name args ty) :
    o.Widens args ty := by
  obtain ⟨r, -, resolved⟩ := h.offered
  rcases (Resolver.offered_of_resolve? resolved).1.firm with firm | ⟨_, _, rfl⟩ | rfl
  · exact firm.widens h
  · exact select_widens h
  · exact coalesce_widens h

end Overload

/-! Compiled expressions. -/

namespace Expr

mutual
/-- The nodes of an expression, each before those below it. -/
def nodes : Expr → List Expr
  | param p => [param p]
  | constant value ty => [constant value ty]
  | property receiver p => property receiver p :: nodes receiver
  | binary op left right ty => binary op left right ty :: (nodes left ++ nodes right)
  | call f args ty => call f args ty :: nodesAll args
  | convert operand ty => convert operand ty :: nodes operand
  | lambda p body => lambda p body :: nodes body

def nodesAll : List Expr → List Expr
  | [] => []
  | e :: rest => nodes e ++ nodesAll rest
end

/-- An expression can be used as one of the type, or is mapped from a sequence and the type is one of
sequences with its elements. -/
def Widens (e : Expr) (target : Ty) : Prop :=
  e.ty.Widens target ∨ ∃ f args element, e = .call f args (.enumerable element) ∧ f.body = .map ∧
    target.element? = some element

/-- A conversion changes the type to one that the operand can be used as, and an operator has
operands of one type. -/
def Lawful : Expr → Prop
  | convert operand ty => operand.ty ≠ ty ∧ operand.Widens ty
  | binary _ left right _ => left.ty = right.ty
  | _ => True

def NodesLawful (e : Expr) : Prop :=
  ∀ node ∈ e.nodes, node.Lawful

variable {e left right : Expr} {ty common : Ty}

theorem NodesLawful.convertTo (h : e.NodesLawful) (widens : e.Widens ty) :
    (e.convertTo ty).NodesLawful := by
  unfold Expr.convertTo
  split
  · exact h
  · rename_i differs
    exact List.forall_mem_cons.2 ⟨⟨differs, widens⟩, h⟩

theorem nodesLawful_binary {op : Operator} (onLeft : left.NodesLawful) (onRight : right.NodesLawful)
    (same : left.ty = right.ty) : (binary op left right ty).NodesLawful :=
  List.forall_mem_cons.2 ⟨same, List.forall_mem_append.2 ⟨onLeft, onRight⟩⟩

theorem nodesLawful_call {f : HostFunction Value} {es : List Expr}
    (h : ∀ e ∈ es, e.NodesLawful) : (call f es ty).NodesLawful := by
  refine List.forall_mem_cons.2 ⟨trivial, ?_⟩
  induction es with
  | nil => exact List.forall_mem_nil _
  | cons e rest ih =>
    obtain ⟨first, others⟩ := List.forall_mem_cons.1 h
    exact List.forall_mem_append.2 ⟨first, ih others⟩

/-- An operator on texts may become a call, whose arguments are the operands. -/
theorem nodesLawful_binary? {op : Operator} (built : common.binary? op left right = some e)
    (onLeft : left.NodesLawful) (onRight : right.NodesLawful) (same : left.ty = right.ty) :
    e.NodesLawful := by
  have operands : ∀ e ∈ [left, right], e.NodesLawful := by simp [onLeft, onRight]
  unfold Ty.binary? at built
  split at built
  · split at built
    · cases built
      exact nodesLawful_binary (nodesLawful_call operands) (by simp [NodesLawful, nodes, Lawful]) rfl
    · cases built
      exact nodesLawful_call operands
    · cases built
      exact nodesLawful_binary onLeft onRight same
  · cases built

end Expr

/-- A use of a name adds one node to those of its arguments, and is converted as the name allows. -/
theorem Overload.Offered.nodesLawful_build? {schema : Schema} {r : Request} {o : Overload}
    (h : Offered schema.catalog r o) {args : List Ty} {ty : Ty} (widens : o.Widens args ty)
    {es : List Expr} {e : Expr} (built : o.build? es ((o.resultTy? args).getD ty) = some e)
    (onArgs : ∀ e ∈ es, e.NodesLawful) : (e.convertTo ty).NodesLawful := by
  obtain ⟨act, acts⟩ := h.act?
  obtain ⟨isTy, -⟩ := h.build? built acts []
  unfold Overload.build? at built
  cases isLowering : o.lowering with
  | property p =>
    rw [isLowering] at built
    match es with
    | [receiver] =>
      cases built
      have onNode : (Expr.property receiver p).NodesLawful :=
        List.forall_mem_cons.2 ⟨trivial, onArgs receiver List.mem_cons_self⟩
      refine onNode.convertTo (.inl ?_)
      rw [isTy]
      rcases widens.result with plain | ⟨_, _, isFunction, -⟩
      · exact plain
      · cases isLowering.symm.trans isFunction
    | [] => cases built
    | _ :: _ :: _ => cases built
  | function f =>
    rw [isLowering] at built
    cases built
    refine (Expr.nodesLawful_call onArgs).convertTo ?_
    rcases widens.result with plain | ⟨_, element, isFunction, isMap, isResult, isElement⟩
    · exact .inl plain
    · cases isLowering.symm.trans isFunction
      rw [isResult]
      exact .inr ⟨f, es, element, rfl, isMap, isElement⟩
  | custom _ =>
    rw [isLowering] at acts
    cases acts

mutual
theorem Lowers.nodesLawful {schema : Schema} {options : Options} : ∀ {t : Term Typed}
    {ρ : Parameters} {e : Expr}, Lowers schema.catalog ρ t e →
    WellTyped schema.catalog (Compiler.withOptions schema.catalog options).resolver ρ.types t →
    e.NodesLawful
  | .lambda note binder body, ρ, _, @Lowers.lambda _ _ _ _ _ param e isParam _ onBody,
    .lambda wellTyped isLambda => by
    rw [onBody.lambdaBody_eq isLambda]
    have sameTy : (Expr.lambda param e).ty = note.ty := by
      rw [isLambda, ← isParam, ← onBody.ty_eq]
      rfl
    rw [← isParam] at wellTyped
    have onNode : (Expr.lambda param e).NodesLawful :=
      List.forall_mem_cons.2 ⟨trivial, onBody.nodesLawful wellTyped⟩
    exact onNode.convertTo (.inl (sameTy ▸ Ty.widens_self _))
  | .binary .., _, _, .binary onLeft onRight isCommon described built,
    .binary wellTyped wellTyped' joins => by
    obtain ⟨_, rfl⟩ := Schema.describe_eq_some described
    obtain ⟨fromLeft, fromRight⟩ := Ty.common?_flat isCommon
    have left := (onLeft.nodesLawful wellTyped).convertTo (.inl (onLeft.ty_eq ▸ fromLeft))
    have right := (onRight.nodesLawful wellTyped').convertTo (.inl (onRight.ty_eq ▸ fromRight))
    have onNode := Expr.nodesLawful_binary? built left right (by simp)
    refine onNode.convertTo (.inl ?_)
    rw [Expr.ty_binary? built]
    exact Ty.widens_of_assignable (joins.assignable isCommon)
  | .call .., _, _, .call bound onArgs built, .call wellTyped bound' fits => by
    cases bound.symm.trans bound'
    obtain ⟨_, -, resolved⟩ := fits.offered
    exact (Resolver.offered_of_resolve? resolved).1.nodesLawful_build? fits.widens built
      (onArgs.nodesLawful wellTyped fits.widens.params)
  | .member .., _, _, .member bound onArgs built, .member wellTyped bound' fits => by
    cases bound.symm.trans bound'
    obtain ⟨_, -, resolved⟩ := fits.offered
    refine (Resolver.offered_of_resolve? resolved).1.nodesLawful_build? fits.widens built ?_
    have params := fits.widens.params
    generalize Overload.paramTys _ _ = types at onArgs params
    cases onArgs with
    | cons onReceiver rest =>
      cases rest
      cases params with
      | cons widens _ =>
        have receiver := (onReceiver.nodesLawful wellTyped).convertTo (.inl (onReceiver.ty_eq ▸ widens))
        simpa using receiver
  | .ident .., _, _, @Lowers.ident _ _ _ _ param isParam, .ident found => by
    obtain ⟨_, isParam', sameTy⟩ := Parameters.lookup_types found
    cases isParam.symm.trans isParam'
    have onNode : (Expr.param param).NodesLawful := by simp [Expr.NodesLawful, Expr.nodes, Expr.Lawful]
    exact onNode.convertTo (.inl (sameTy ▸ Ty.widens_self _))
  | .literal note _, _, _, @Lowers.literal _ _ _ _ value _ _ described, .literal _ _ => by
    obtain ⟨_, rfl⟩ := Schema.describe_eq_some described
    have onNode : (Expr.constant value note.ty).NodesLawful := by
      simp [Expr.NodesLawful, Expr.nodes, Expr.Lawful]
    exact onNode.convertTo (.inl (Ty.widens_self _))

theorem LowersAll.nodesLawful {schema : Schema} {options : Options} : ∀ {ts : List (Term Typed)}
    {ρ : Parameters} {types : List Ty} {es : List Expr}, LowersAll schema.catalog ρ ts types es →
    WellTypedAll schema.catalog (Compiler.withOptions schema.catalog options).resolver ρ.types ts →
    List.Forall₂ Ty.Widens (ts.map Term.ty) types → ∀ e ∈ es, e.NodesLawful
  | [], _, _, _, .nil, _, _ => List.forall_mem_nil _
  | _ :: _, _, _, _, .cons first rest, .cons wellTyped wellTyped', .cons widens widens' =>
    List.forall_mem_cons.2
      ⟨(first.nodesLawful wellTyped).convertTo (.inl (first.ty_eq ▸ widens)),
        rest.nodesLawful wellTyped' widens'⟩
end

/-- Every conversion in a compiled query changes the type of its operand, to a type that the operand
can be used as; or the operand is mapped from a sequence and the type is one of sequences with the
same elements; or the operand is an optional of an optional and can be used as the type once its
nulls count as one. Both operands of every operator have the same type. -/
theorem conversions_widen {schema : Schema} {options : Options} {text : String} {root : Ty}
    {expected : Option Ty} {l : LambdaExpr}
    (built : (Compiler.withOptions schema.catalog options).build text root expected = .ok l) :
    ∀ node ∈ l.body.nodes,
      (∀ operand target, node = .convert operand target → operand.ty ≠ target ∧
        (target.assignable operand.ty = true ∨
          (∃ f args element, operand = .call f args (.enumerable element) ∧ f.body = .map ∧
            target.element? = some element) ∨
          (∃ t, operand.ty = .optional (.optional t)) ∧ target.assignable operand.ty.flat = true)) ∧
      ∀ op left right ty, node = .binary op left right ty → left.ty = right.ty := by
  obtain ⟨query, t, parsed, inferred, lowered⟩ := Compiler.build_ok built
  obtain ⟨high, inScope⟩ := Term.scoped_of_ofText parsed
  have closed := schema.catalog.closed_true
  have sound := soundlyTyped_of_infer closed (Resolver.respects_withOptions closed options)
    (Resolver.plain_withOptions schema options) inScope trivial (fun _ _ => trivial) inferred
  obtain ⟨note, binder, body, rfl, isParam, wellTyped, lowers⟩ :=
    LambdaExpr.lowers_of_ofTyped sound.wellTyped (sound.symbols_rising inScope) lowered
  have context : Parameters.types [(binder.symbol, l.param)] = [(binder.symbol, binder.note.ty)] := by
    simp [Parameters.types, isParam]
  intro node mem
  have lawful := lowers.nodesLawful (context ▸ wellTyped) node mem
  refine ⟨?_, ?_⟩
  · rintro operand target rfl
    refine ⟨lawful.1, ?_⟩
    rcases lawful.2 with widens | mapped
    · by_cases nested : ∃ t, operand.ty = .optional (.optional t)
      · exact .inr (.inr ⟨nested, widens⟩)
      · have flat := Ty.flat_eq_self fun t same => nested ⟨t, same⟩
        exact .inl (flat ▸ widens)
    · exact .inr (.inl mapped)
  · rintro op left right ty rfl
    exact lawful

/-- Ranges whose upper end may be missing. -/
def rangeSchema : Schema :=
  Schema.empty.addRecord "Range" [("Low", .int), ("High", .optional .int)]

def rangeCompiler : Compiler :=
  .withOptions rangeSchema.catalog .standard

def rangeParam : Param :=
  ⟨0, "a", .record "Range"⟩

def rangeLow : Expr :=
  .property (.param rangeParam) (.ofField "Low" .int)

def rangeHigh : Expr :=
  .property (.param rangeParam) (.ofField "High" (.optional .int))

/-- The two ends of a range, in order. -/
def rangeOrdered : Expr :=
  .binary .lt (.convert rangeLow (.optional .int)) rangeHigh .bool

theorem build_rangeOrdered : rangeCompiler.build "p => p.Low < p.High" (.record "Range") none =
    .ok ⟨rangeParam, rangeOrdered⟩ := by
  simp only [Compiler.build, Compiler.check, Compiler.infer, infer, Inference.run, Inference.work,
    Inference.solve_eq_solveBy 4]
  cbv

/-- To be compared with a number that may be missing, a number is converted to one. -/
theorem conversions_widen_range :
    rangeCompiler.build "p => p.Low < p.High" (.record "Range") none =
      .ok ⟨rangeParam, rangeOrdered⟩ ∧
    rangeLow.ty ≠ .optional .int ∧ (Ty.optional .int).assignable rangeLow.ty = true ∧
    (Expr.convert rangeLow (.optional .int)).ty = rangeHigh.ty := by
  have lawful := conversions_widen build_rangeOrdered
  have isConversion : .convert rangeLow (.optional .int) ∈ rangeOrdered.nodes :=
    List.mem_cons_of_mem _ List.mem_cons_self
  obtain ⟨changes, widens⟩ := (lawful _ isConversion).1 _ _ rfl
  refine ⟨build_rangeOrdered, changes, ?_, (lawful _ List.mem_cons_self).2 _ _ _ _ rfl⟩
  rcases widens with assignable | ⟨_, _, _, isCall, -⟩ | ⟨⟨_, isNested⟩, -⟩
  · exact assignable
  · cases isCall
  · cases isNested

/-- What is mapped from a list is any sequence, and as such cannot be used as a list. It is converted
to one all the same. -/
theorem select_converts_to_list : ∃ param operand,
    (Compiler.withOptions rowSchema.catalog .standard).build "p => Select(p.Tags, t => t)"
        (.record "Row") (some (.list .int)) =
      .ok ⟨param, .convert operand (.list .int)⟩ ∧
    operand.ty = .enumerable .int ∧ (Ty.list .int).assignable (.enumerable .int) = false := by
  let row : Param := ⟨0, "a", .record "Row"⟩
  let tag : Param := ⟨1, "b", .int⟩
  let tags : Expr := .property (.param row) (.ofField "Tags" (.list .int))
  refine ⟨row, .call (Members.select .int).function [tags, .lambda tag (.param tag)]
    (.enumerable .int), ?_, rfl, rfl⟩
  simp only [Compiler.build, Compiler.check, Compiler.infer, infer, Inference.run, Inference.work,
    Inference.solve_eq_solveBy 4]
  cbv

end LambdaQuery
