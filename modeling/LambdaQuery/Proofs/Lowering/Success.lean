import LambdaQuery.Proofs.Safety.Queries

/-!
# When a well-typed query compiles

Lowering asks the catalog for the type of each literal and for the common type of two operands. The
checks of inference ask for the same types, except for that of a null: it is only asked whether null
can have it. So a query that passes the checks compiles unless a null was given a type that the
catalog does not know.
-/

namespace LambdaQuery

namespace Term

mutual
/-- The nulls of a typed query, from left to right. -/
def nulls : Term Typed → List Typed
  | lambda _ _ body => nulls body
  | binary _ _ left right => nulls left ++ nulls right
  | call _ _ args => nullsAll args
  | member _ receiver _ => nulls receiver
  | ident .. => []
  | literal note text => if text.isNone then [note] else []

def nullsAll : List (Term Typed) → List Typed
  | [] => []
  | t :: rest => nulls t ++ nullsAll rest
end

end Term

/-- A computation succeeds if every one of these nodes has a type that the catalog describes, and
otherwise blames one that has not. -/
def Hinges {α : Type} (catalog : Catalog) (nodes : List Typed) : Except LoweringError α → Prop
  | .ok _ => ∀ n ∈ nodes, catalog.describe n.ty ≠ none
  | .error e => ∃ n ∈ nodes, catalog.describe n.ty = none ∧ e = ⟨.unknownType n.ty, n.span⟩

namespace Hinges

variable {α β : Type} {catalog : Catalog} {nodes nodes' : List Typed}

theorem of_ok {x : Except LoweringError α} (h : ∃ a, x = .ok a) : Hinges catalog [] x := by
  obtain ⟨a, rfl⟩ := h
  rintro n ⟨⟩

theorem bind {x : Except LoweringError α} {f : α → Except LoweringError β}
    (first : Hinges catalog nodes x) (next : ∀ a, x = .ok a → Hinges catalog nodes' (f a)) :
    Hinges catalog (nodes ++ nodes') (x >>= f) := by
  cases x with
  | error e =>
    obtain ⟨n, mem, unknown, rfl⟩ := first
    exact ⟨n, List.mem_append_left _ mem, unknown, rfl⟩
  | ok a =>
    have last := next a rfl
    show Hinges catalog (nodes ++ nodes') (f a)
    cases isNext : f a with
    | error e =>
      rw [isNext] at last
      obtain ⟨n, mem, unknown, rfl⟩ := last
      exact ⟨n, List.mem_append_right _ mem, unknown, rfl⟩
    | ok b =>
      rw [isNext] at last
      intro n mem
      rcases List.mem_append.1 mem with inFirst | inNext
      · exact first n inFirst
      · exact last n inNext

/-- What follows cannot fail. -/
theorem bind_ok {x : Except LoweringError α} {f : α → Except LoweringError β}
    (first : Hinges catalog nodes x) (next : ∀ a, x = .ok a → ∃ b, f a = .ok b) :
    Hinges catalog nodes (x >>= f) := by
  have whole : Hinges catalog (nodes ++ []) (x >>= f) :=
    first.bind fun a isFirst => of_ok (next a isFirst)
  rwa [List.append_nil] at whole

end Hinges

theorem exists_ok_of_bind {ε α β : Type} {x : Except ε α} {f : α → Except ε β}
    (first : ∃ a, x = .ok a) (next : ∀ a, ∃ b, f a = .ok b) : ∃ b, (x >>= f) = .ok b := by
  obtain ⟨a, rfl⟩ := first
  exact next a

/-- A name that is offered is built for as many arguments as it has parameters. -/
theorem Overload.Offered.builds {catalog : Catalog} {r : Request} {o : Overload}
    (h : Offered catalog r o) {es : List Expr} (arity : es.length = o.params.length) (ty : Ty) :
    ∃ e, o.build? es ty = some e := by
  cases h with
  | property _ _ _ =>
    obtain ⟨receiver, rfl⟩ := List.length_eq_one_iff.1 arity
    exact ⟨_, rfl⟩
  | method _ _ _ _ => exact ⟨_, rfl⟩
  | standard _ isStandard =>
    simp only [Resolver.standardFunctions, List.mem_cons] at isStandard
    rcases isStandard with rfl | rfl | rfl | rfl | isNone
    · exact ⟨_, rfl⟩
    · exact ⟨_, rfl⟩
    · exact ⟨_, rfl⟩
    · exact ⟨_, rfl⟩
    · cases isNone

theorem LowersAll.length_eq {catalog : Catalog} {ρ : Parameters} : ∀ {ts : List (Term Typed)}
    {types : List Ty} {es : List Expr}, LowersAll catalog ρ ts types es → es.length = ts.length
  | _, _, _, .nil => rfl
  | _, _, _, .cons _ rest => by rw [List.length_cons, List.length_cons, rest.length_eq]

/-- The type that both operands convert to is known and has the operator. -/
theorem Operator.WellTyped.joins {s : Schema} {op : Operator} {left right ty : Ty}
    (h : op.WellTyped s.catalog left right ty) : ∃ common, op.Joins s.catalog left right common := by
  unfold WellTyped at h
  cases kind : op.kind with
  | logical =>
    simp only [kind] at h
    obtain ⟨rfl, rfl, -⟩ := h
    refine ⟨.bool, Ty.common?_self _, s.info .bool, rfl, ?_⟩
    simp [Schema.info, Ty.supports, kind]
  | equality | ordering | arithmetic =>
    simp only [kind] at h
    obtain ⟨common, joins, -⟩ := h
    exact ⟨common, joins⟩

namespace Expr

open Term

variable {s : Schema} {options : Options}

theorem ofBinary_total {op : Operator} {left right common : Ty}
    (joins : op.Joins s.catalog left right common) (n : Typed) (l r : Expr) :
    ∃ e, ofBinary s.catalog n op left right l r = .ok e := by
  obtain ⟨isCommon, info, described, supports⟩ := joins
  obtain ⟨_, rfl⟩ := Schema.describe_eq_some described
  obtain ⟨e, built⟩ : ∃ e, common.binary? op (l.convertTo common) (r.convertTo common) = some e := by
    have supports : common.supports op = true := supports
    unfold Ty.binary?
    rw [if_pos supports]
    split <;> exact ⟨_, rfl⟩
  refine ⟨e, ?_⟩
  have built : (s.info common).binary op (l.convertTo common) (r.convertTo common) = some e := built
  simp [ofBinary, isCommon, describe, described, bind, Except.bind, built, pure, Except.pure]

theorem ofCall_total {site : Site} {name : String} {args : List Ty} {o : Overload} {n : Typed}
    (fits : o.WellTyped (Compiler.withOptions s.catalog options).resolver site name args n.ty)
    {es : List Expr} (arity : es.length = args.length) : ∃ e, ofCall n o args es = .ok e := by
  obtain ⟨r, -, resolves⟩ := fits.offered
  obtain ⟨offered, -, -⟩ := Resolver.offered_of_resolve? resolves
  obtain ⟨e, built⟩ := offered.builds (arity.trans fits.arity.symm) ((o.resultTy? args).getD n.ty)
  exact ⟨e, by rw [ofCall, built]⟩

mutual
/-- Whether a well-typed query is lowered hinges on the types of its nulls. -/
theorem ofTyped_hinges : ∀ {t : Term Typed} {ρ : Parameters} {p : ParamSupply} {low high : Nat},
    WellTyped s.catalog (Compiler.withOptions s.catalog options).resolver ρ.types t →
    Rising low (t.symbols.map Symbol.id) high → p.Finds ρ low →
    Hinges s.catalog t.nulls (ofTyped s.catalog t p)
  | .lambda _ binder _, ρ, p, _, _, .lambda onBody _, rising, finds => by
    obtain ⟨le, inside⟩ := rising.of_cons
    have body := ofTyped_hinges (ρ := (binder.symbol, p.param binder) :: ρ) onBody inside
      (finds.bind le)
    exact body.bind_ok fun _ _ => ⟨_, rfl⟩
  | .binary .., ρ, _, _, _, .binary onLeft onRight wellTyped, rising, finds => by
    simp only [symbols, List.map_append] at rising
    obtain ⟨inLeft, inRight⟩ := rising.of_append
    refine (ofTyped_hinges onLeft inLeft finds).bind fun lowered isLowered => ?_
    obtain ⟨-, afterLeft⟩ := lowers_of_ofTyped onLeft inLeft finds isLowered
    refine (ofTyped_hinges onRight inRight afterLeft).bind_ok fun (r, _) _ => ?_
    obtain ⟨common, joins⟩ := wellTyped.joins
    exact exists_ok_of_bind (ofBinary_total joins _ lowered.1 r) fun _ => ⟨_, rfl⟩
  | .call note _ args, ρ, _, _, _, .call onArgs bound fits, rising, finds => by
    have length := Overload.length_paramTys _ fits.arity
    rw [List.length_map] at length
    simp only [ofTyped, bound]
    refine (ofArgs_hinges onArgs length rising finds).bind_ok fun lowered isLowered => ?_
    obtain ⟨onArgs', -⟩ := lowersAll_of_ofArgs onArgs length rising finds isLowered
    have arity : lowered.1.length = (args.map Term.ty).length := by
      rw [onArgs'.length_eq, List.length_map]
    exact exists_ok_of_bind (ofCall_total fits arity) fun _ => ⟨_, rfl⟩
  | .member _ receiver _, ρ, _, _, _, .member onReceiver bound fits, rising, finds => by
    obtain ⟨ty, single⟩ := List.length_eq_one_iff.1 (Overload.length_paramTys _ fits.arity)
    rw [single] at bound
    simp only [ofTyped, bound]
    refine (ofTyped_hinges (t := receiver) onReceiver rising finds).bind_ok fun lowered _ => ?_
    have arity : [lowered.1.convertTo ty].length = [receiver.ty].length := rfl
    exact exists_ok_of_bind (ofCall_total fits arity) fun _ => ⟨_, rfl⟩
  | .ident _ symbol, ρ, _, _, _, .ident found, _, finds => by
    obtain ⟨param, isParam, -⟩ := Parameters.lookup_types found
    simp only [ofTyped, finds.lookup isParam]
    exact .of_ok ⟨_, rfl⟩
  | .literal note text, ρ, _, _, _, .literal bound wellTyped, _, _ => by
    simp only [ofTyped, bound]
    cases text with
    | some text =>
      obtain ⟨info, described, -⟩ := wellTyped
      simp only [describe, described]
      exact .of_ok ⟨_, rfl⟩
    | none =>
      cases described : s.catalog.describe note.ty with
      | none =>
        simp only [describe, described]
        exact ⟨note, List.mem_singleton_self _, described, rfl⟩
      | some info =>
        simp only [describe, described]
        intro n mem
        cases List.mem_singleton.1 mem
        simp [described]

theorem ofArgs_hinges : ∀ {ts : List (Term Typed)} {types : List Ty} {ρ : Parameters}
    {p : ParamSupply} {low high : Nat},
    WellTypedAll s.catalog (Compiler.withOptions s.catalog options).resolver ρ.types ts →
    types.length = ts.length → Rising low ((symbolsAll ts).map Symbol.id) high → p.Finds ρ low →
    Hinges s.catalog (nullsAll ts) (ofArgs s.catalog ts types p)
  | [], [], _, _, _, _, .nil, _, _, _ => .of_ok ⟨_, rfl⟩
  | t :: rest, ty :: types, _, _, _, _, .cons first others, length, rising, finds => by
    simp only [symbolsAll, List.map_append] at rising
    obtain ⟨inFirst, inOthers⟩ := rising.of_append
    refine (ofTyped_hinges first inFirst finds).bind fun lowered isLowered => ?_
    obtain ⟨-, after⟩ := lowers_of_ofTyped first inFirst finds isLowered
    exact (ofArgs_hinges others (Nat.succ.inj length) inOthers after).bind_ok fun _ _ => ⟨_, rfl⟩
end

end Expr

mutual
theorem WellTyped.acceptsNull {catalog : Catalog} {resolver : Resolver} : ∀ {Γ : Context}
    {t : Term Typed}, WellTyped catalog resolver Γ t → ∀ n ∈ t.nulls, n.ty.acceptsNull = true
  | _, _, .lambda onBody _, n, mem => onBody.acceptsNull n mem
  | _, _, .binary onLeft onRight _, n, mem => by
    rcases List.mem_append.1 mem with inLeft | inRight
    · exact onLeft.acceptsNull n inLeft
    · exact onRight.acceptsNull n inRight
  | _, _, .call onArgs _ _, n, mem => onArgs.acceptsNull n mem
  | _, _, .member onReceiver _ _, n, mem => onReceiver.acceptsNull n mem
  | _, _, .ident _, _, mem => by cases mem
  | _, .literal note text, .literal _ wellTyped, n, mem => by
    cases text with
    | some text => cases mem
    | none =>
      cases List.mem_singleton.1 mem
      exact wellTyped.2

theorem WellTypedAll.acceptsNull {catalog : Catalog} {resolver : Resolver} : ∀ {Γ : Context}
    {ts : List (Term Typed)}, WellTypedAll catalog resolver Γ ts →
    ∀ n ∈ Term.nullsAll ts, n.ty.acceptsNull = true
  | _, _, .nil, _, mem => by cases mem
  | _, _, .cons first rest, n, mem => by
    rcases List.mem_append.1 mem with inFirst | inRest
    · exact first.acceptsNull n inFirst
    · exact rest.acceptsNull n inRest
end

theorem LambdaExpr.ofTyped_hinges {s : Schema} {options : Options} {note : Typed}
    {binder : Binder Typed} {body : Term Typed} {high : Nat}
    (wellTyped : WellTyped s.catalog (Compiler.withOptions s.catalog options).resolver []
      (.lambda note binder body))
    (rising : Rising 0 ((Term.lambda note binder body).symbols.map Symbol.id) high) :
    Hinges s.catalog (Term.lambda note binder body).nulls
      (LambdaExpr.ofTyped s.catalog (.lambda note binder body)) := by
  cases wellTyped with
  | lambda onBody _ =>
    obtain ⟨le, inside⟩ := rising.of_cons
    have hinges := Expr.ofTyped_hinges (ρ := [(binder.symbol, ParamSupply.start.param binder)])
      onBody inside (ParamSupply.Finds.start.bind le)
    exact hinges.bind_ok fun _ _ => ⟨_, rfl⟩

theorem Schema.describe_eq_none {s : Schema} {ty : Ty} :
    s.catalog.describe ty = none ↔ s.knows ty = false := by
  simp [catalog]

/-- What checking gives is well typed, and whether it is lowered hinges on its nulls. -/
theorem Compiler.check_hinges {schema : Schema} {options : Options} {text : String} {root : Ty}
    {expected : Option Ty} {t : Term Typed}
    (checked : (withOptions schema.catalog options).check text root expected = .ok t) :
    WellTyped schema.catalog (withOptions schema.catalog options).resolver [] t ∧
      Hinges schema.catalog t.nulls (LambdaExpr.ofTyped schema.catalog t) := by
  obtain ⟨inferred, isInferred, typed⟩ := ok_of_bind checked
  obtain ⟨query, parsed, isInfer⟩ := ok_of_bind isInferred
  cases isInfer
  obtain ⟨high, inScope⟩ := Term.scoped_of_ofText (ofText_of_parse parsed)
  have closed := schema.catalog.closed_true
  have sound := soundlyTyped_of_infer closed (Resolver.respects_withOptions closed options)
    (Resolver.plain_withOptions schema options) inScope trivial (fun _ _ => trivial)
    (ok_of_mapError typed)
  obtain ⟨note, binder, body, rfl, -, -⟩ := sound.isLambda
  exact ⟨sound.wellTyped, LambdaExpr.ofTyped_hinges sound.wellTyped (sound.symbols_rising inScope)⟩

/-- A query that passes the checks compiles just if the schema knows the type of each of its nulls.
The only error there can be names a null whose type the schema does not know. -/
theorem build_iff_of_check {schema : Schema} {options : Options} {text : String} {root : Ty}
    {expected : Option Ty} {t : Term Typed}
    (checked : (Compiler.withOptions schema.catalog options).check text root expected = .ok t) :
    ((∃ l, (Compiler.withOptions schema.catalog options).build text root expected = .ok l) ↔
      ∀ n ∈ t.nulls, schema.knows n.ty = true) ∧
    ∀ e, (Compiler.withOptions schema.catalog options).build text root expected = .error e →
      ∃ n ∈ t.nulls, n.ty.acceptsNull = true ∧ schema.knows n.ty = false ∧
        e = ⟨.lowering ⟨.unknownType n.ty, n.span⟩, text, some root⟩ := by
  obtain ⟨wellTyped, hinges⟩ := Compiler.check_hinges checked
  have isBuild : (Compiler.withOptions schema.catalog options).build text root expected =
      (LambdaExpr.ofTyped schema.catalog t).mapError fun e => ⟨.lowering e, text, some root⟩ := by
    unfold Compiler.build
    rw [checked]
    rfl
  rw [isBuild]
  cases lowered : LambdaExpr.ofTyped schema.catalog t with
  | ok l =>
    rw [lowered] at hinges
    have known : ∀ n ∈ t.nulls, schema.knows n.ty = true := by
      intro n mem
      by_contra unknown
      exact hinges n mem (Schema.describe_eq_none.2 (by simpa using unknown))
    refine ⟨⟨fun _ => known, fun _ => ⟨l, rfl⟩⟩, ?_⟩
    rintro e ⟨⟩
  | error e =>
    rw [lowered] at hinges
    obtain ⟨n, mem, unknown, rfl⟩ := hinges
    have unknown := Schema.describe_eq_none.1 unknown
    refine ⟨⟨?_, fun known => ?_⟩, ?_⟩
    · rintro ⟨l, ⟨⟩⟩
    · rw [known n mem] at unknown
      cases unknown
    · rintro e ⟨⟩
      exact ⟨n, mem, wellTyped.acceptsNull n mem, unknown, rfl⟩

/-- Items with a name and a place in order. -/
def itemSchema : Schema :=
  Schema.empty.addRecord "Item" [("Name", .string), ("Order", .int)]

def itemCompiler : Compiler :=
  .withOptions itemSchema.catalog .standard

theorem exists_ok_of_isOk {ε α : Type} {x : Except ε α} (h : x.isOk = true) : ∃ a, x = .ok a := by
  cases x with
  | ok a => exact ⟨a, rfl⟩
  | error e => cases h

theorem check_coalesce_order : ∃ t,
    itemCompiler.check "x => Coalesce(null, x.Order)" (.record "Item") none = .ok t := by
  refine exists_ok_of_isOk ?_
  simp only [Compiler.check, Compiler.infer, infer, Inference.run, Inference.work,
    Inference.solve_eq_solveBy 4]
  cbv

theorem build_coalesce_order : ∃ l,
    itemCompiler.build "x => Coalesce(null, x.Order)" (.record "Item") none = .ok l := by
  refine exists_ok_of_isOk ?_
  simp only [Compiler.build, Compiler.check, Compiler.infer, infer, Inference.run, Inference.work,
    Inference.solve_eq_solveBy 4]
  cbv

/-- Null can be added to a number, so that it has a type that the schema knows. -/
theorem build_iff_of_check_order : ∃ t,
    itemCompiler.check "x => Coalesce(null, x.Order)" (.record "Item") none = .ok t ∧
      (∃ l, itemCompiler.build "x => Coalesce(null, x.Order)" (.record "Item") none = .ok l) ∧
      ∀ n ∈ t.nulls, itemSchema.knows n.ty = true := by
  obtain ⟨t, checked⟩ := check_coalesce_order
  exact ⟨t, checked, build_coalesce_order, (build_iff_of_check checked).1.1 build_coalesce_order⟩

/-- A text is null without that, and the type that inference makes for the null by adding it again is
not known: the query passes the checks and does not compile. -/
theorem check_not_build_name :
    (∃ t, itemCompiler.check "x => Coalesce(null, x.Name)" (.record "Item") none = .ok t) ∧
      itemCompiler.build "x => Coalesce(null, x.Name)" (.record "Item") none =
        .error ⟨.lowering ⟨.unknownType (.optional .string), ⟨14, 18⟩⟩, "x => Coalesce(null, x.Name)",
          some (.record "Item")⟩ := by
  constructor
  · refine exists_ok_of_isOk ?_
    simp only [Compiler.check, Compiler.infer, infer, Inference.run, Inference.work,
      Inference.solve_eq_solveBy 4]
    cbv
  · simp only [Compiler.build, Compiler.check, Compiler.infer, infer, Inference.run, Inference.work,
      Inference.solve_eq_solveBy 4]
    cbv

end LambdaQuery
