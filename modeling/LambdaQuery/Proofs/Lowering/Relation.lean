import LambdaQuery.Expr.Lowering
import LambdaQuery.Proofs.Inference.Binders
import LambdaQuery.Proofs.Typing

/-!
# What typed queries become

Parameters are made from one supply as a query is read from left to right, and looked up among all
that were made before. Since no two parameters of a query have the same symbol, an identifier finds
the parameter of the lambda around it: what an expression becomes depends only on its scope.
-/

namespace LambdaQuery

/-- The parameters in scope and the symbols they are made for, the innermost first. -/
abbrev Parameters := List (Symbol × Param)

def Parameters.types (ρ : Parameters) : Context :=
  ρ.map fun entry => (entry.1, entry.2.ty)

mutual
/-- An expression is what a typed query becomes among the parameters in scope. -/
inductive Lowers (catalog : Catalog) : Parameters → Term Typed → Expr → Prop
  | lambda {ρ : Parameters} {note : Typed} {binder : Binder Typed} {body : Term Typed}
    {param : Param} {e : Expr} : param.ty = binder.note.ty → (∀ entry ∈ ρ, entry.2.id ≠ param.id) →
      Lowers catalog ((binder.symbol, param) :: ρ) body e →
      Lowers catalog ρ (.lambda note binder body)
        ((Expr.lambda param (Expr.lambdaBody e note.ty)).convertTo note.ty)
  | binary {ρ : Parameters} {note : Typed} {op : Operator} {left right : Term Typed}
    {l r e : Expr} {common : Ty} {info : TypeInfo} : Lowers catalog ρ left l →
      Lowers catalog ρ right r → left.ty.common? right.ty = some common →
      catalog.describe common = some info →
      info.binary op (l.convertTo common) (r.convertTo common) = some e →
      Lowers catalog ρ (.binary note op left right) (e.convertTo note.ty)
  | call {ρ : Parameters} {note : Typed} {name : String} {args : List (Term Typed)} {o : Overload}
    {params : List Ty} {es : List Expr} {e : Expr} : note.binding = .function o params →
      LowersAll catalog ρ args params es →
      o.build? es ((o.resultTy? (args.map Term.ty)).getD note.ty) = some e →
      Lowers catalog ρ (.call note name args) (e.convertTo note.ty)
  | member {ρ : Parameters} {note : Typed} {receiver : Term Typed} {name : String} {o : Overload}
    {params : List Ty} {es : List Expr} {e : Expr} : note.binding = .function o params →
      LowersAll catalog ρ [receiver] params es →
      o.build? es ((o.resultTy? [receiver.ty]).getD note.ty) = some e →
      Lowers catalog ρ (.member note receiver name) (e.convertTo note.ty)
  | ident {ρ : Parameters} {note : Typed} {symbol : Symbol} {param : Param} :
    ρ.lookup symbol = some param →
      Lowers catalog ρ (.ident note symbol) ((Expr.param param).convertTo note.ty)
  | literal {ρ : Parameters} {note : Typed} {text : Option String} {value : Value}
    {info : TypeInfo} : note.binding = .constant value → catalog.describe note.ty = some info →
      Lowers catalog ρ (.literal note text) ((info.constant value).convertTo note.ty)

/-- Each argument is converted to the type of its parameter. -/
inductive LowersAll (catalog : Catalog) :
    Parameters → List (Term Typed) → List Ty → List Expr → Prop
  | nil {ρ : Parameters} : LowersAll catalog ρ [] [] []
  | cons {ρ : Parameters} {t : Term Typed} {rest : List (Term Typed)} {ty : Ty} {types : List Ty}
    {e : Expr} {es : List Expr} : Lowers catalog ρ t e → LowersAll catalog ρ rest types es →
      LowersAll catalog ρ (t :: rest) (ty :: types) (e.convertTo ty :: es)
end

namespace Expr

@[simp]
theorem ty_convertTo (e : Expr) (ty : Ty) : (e.convertTo ty).ty = ty := by
  unfold convertTo
  split
  · assumption
  · rfl

end Expr

theorem Lowers.ty_eq {catalog : Catalog} {ρ : Parameters} {t : Term Typed} {e : Expr}
    (h : Lowers catalog ρ t e) : e.ty = t.ty := by
  cases h <;> exact Expr.ty_convertTo ..

/-! The supply of parameters. -/

/-- The supply finds the parameters in scope, whose numbers are taken. Symbols from `low` on are
yet to come. -/
structure ParamSupply.Finds (p : ParamSupply) (ρ : Parameters) (low : Nat) : Prop where
  lookup : ∀ {symbol : Symbol} {param : Param}, ρ.lookup symbol = some param →
    p.made.lookup symbol = some param
  symbols : ∀ entry ∈ ρ, entry.1.id < low
  ids : ∀ entry ∈ ρ, entry.2.id < p.next

namespace ParamSupply.Finds

variable {p : ParamSupply} {ρ : Parameters} {low : Nat}

theorem start : ParamSupply.start.Finds [] 0 :=
  ⟨fun h => (by cases h), by simp, by simp⟩

theorem bind (h : p.Finds ρ low) {b : Binder Typed} (le : low ≤ b.symbol.id) :
    (p.bind b).Finds ((b.symbol, p.param b) :: ρ) (b.symbol.id + 1) where
  lookup {symbol param} found := by
    rw [List.lookup_cons] at found
    unfold ParamSupply.bind
    rw [List.lookup_cons]
    split at found
    · exact found
    · exact h.lookup found
  symbols := by
    simp only [List.forall_mem_cons]
    exact ⟨Nat.lt_succ_self _, fun entry mem => by have := h.symbols entry mem; omega⟩
  ids := by
    simp only [List.forall_mem_cons]
    exact ⟨Nat.lt_succ_self _, fun entry mem => Nat.lt_succ_of_lt (h.ids entry mem)⟩

/-- What was in scope outside a lambda is found there again. -/
theorem outer {symbol : Symbol} {param : Param} {low' : Nat} (h : p.Finds ((symbol, param) :: ρ) low')
    (below : ∀ entry ∈ ρ, entry.1.id < low) (le : low ≤ symbol.id) : p.Finds ρ low where
  lookup {wanted found} isFound := by
    obtain ⟨entry, mem, _, same⟩ := lookup_mem isFound
    have different : (wanted == symbol) = false :=
      Symbol.beq_eq_false (by have := below entry mem; omega)
    refine h.lookup ?_
    rw [List.lookup_cons, different]
    exact isFound
  symbols := below
  ids entry mem := h.ids entry (List.mem_cons_of_mem _ mem)

end ParamSupply.Finds

theorem Parameters.lookup_types {ρ : Parameters} {symbol : Symbol} {ty : Ty}
    (h : ρ.types.lookup symbol = some ty) : ∃ param, ρ.lookup symbol = some param ∧ param.ty = ty := by
  induction ρ with
  | nil => cases h
  | cons entry rest ih =>
    simp only [types, List.map_cons, List.lookup_cons] at h
    rw [List.lookup_cons]
    split at h
    · exact ⟨entry.2, rfl, Option.some.inj h⟩
    · exact ih h

/-- A parameter in scope of a lambda is that of the lambda, or one around it with another number. -/
theorem Parameters.lookup_bound {ρ : Parameters} {symbol wanted : Symbol} {param found : Param}
    (new : ∀ entry ∈ ρ, entry.2.id ≠ param.id)
    (h : List.lookup wanted ((symbol, param) :: ρ) = some found) :
    (wanted == symbol) = true ∧ param = found ∨
      (wanted == symbol) = false ∧ ρ.lookup wanted = some found ∧ (found.id == param.id) = false := by
  rw [List.lookup_cons] at h
  split at h
  · exact .inl ⟨by assumption, Option.some.inj h⟩
  · obtain ⟨entry, mem, rfl, _⟩ := lookup_mem h
    exact .inr ⟨by assumption, h, beq_eq_false_iff_ne.2 (new entry mem)⟩

theorem Overload.length_paramTys (o : Overload) {args : List Ty}
    (arity : o.params.length = args.length) : (o.paramTys args).length = args.length := by
  simp [paramTys, arity]

/-! Lowering gives what the relation says. -/

namespace Expr

open Term

theorem describe_ok {catalog : Catalog} {n : Typed} {ty : Ty} {info : TypeInfo}
    (h : describe catalog n ty = .ok info) : catalog.describe ty = some info := by
  unfold describe at h
  cases described : catalog.describe ty with
  | none =>
    rw [described] at h
    cases h
  | some info' =>
    rw [described] at h
    cases h
    rfl

theorem ofBinary_ok {catalog : Catalog} {n : Typed} {op : Operator} {leftTy rightTy : Ty}
    {left right e : Expr} (h : ofBinary catalog n op leftTy rightTy left right = .ok e) :
    ∃ common info, leftTy.common? rightTy = some common ∧ catalog.describe common = some info ∧
      info.binary op (left.convertTo common) (right.convertTo common) = some e := by
  unfold ofBinary at h
  split at h
  · cases h
  · rename_i common isCommon
    obtain ⟨info, described, h⟩ := ok_of_bind h
    refine ⟨common, info, isCommon, describe_ok described, ?_⟩
    split at h
    · rename_i built
      cases h
      exact built
    · cases h

theorem ofCall_ok {n : Typed} {o : Overload} {argTys : List Ty} {args : List Expr} {e : Expr}
    (h : ofCall n o argTys args = .ok e) :
    o.build? args ((o.resultTy? argTys).getD n.ty) = some e := by
  unfold ofCall at h
  split at h
  · rename_i built
    cases h
    exact built
  · cases h

variable {catalog : Catalog} {resolver : Resolver}

mutual
theorem lowers_of_ofTyped : ∀ {t : Term Typed} {ρ : Parameters} {p p' : ParamSupply}
    {low high : Nat} {e : Expr}, WellTyped catalog resolver ρ.types t →
    Rising low (t.symbols.map Symbol.id) high → p.Finds ρ low →
    ofTyped catalog t p = .ok (e, p') → Lowers catalog ρ t e ∧ p'.Finds ρ low
  | .lambda _ binder _, ρ, p, _, _, _, _, .lambda onBody _, rising, finds, h => by
    obtain ⟨⟨body', _⟩, lowered, h⟩ := ok_of_bind h
    cases h
    obtain ⟨le, inside⟩ := rising.of_cons
    obtain ⟨onBody', after⟩ := lowers_of_ofTyped
      (ρ := (binder.symbol, p.param binder) :: ρ) onBody inside (finds.bind le) lowered
    exact ⟨.lambda rfl (fun entry mem => Nat.ne_of_lt (finds.ids entry mem)) onBody',
      after.outer finds.symbols le⟩
  | .binary _ _ left right, _, _, _, _, _, _, .binary onLeft onRight _, rising, finds, h => by
    obtain ⟨⟨l, _⟩, loweredLeft, h⟩ := ok_of_bind h
    obtain ⟨⟨r, _⟩, loweredRight, h⟩ := ok_of_bind h
    obtain ⟨e, built, h⟩ := ok_of_bind h
    cases h
    simp only [symbols, List.map_append] at rising
    obtain ⟨inLeft, inRight⟩ := rising.of_append
    obtain ⟨onLeft', afterLeft⟩ := lowers_of_ofTyped onLeft inLeft finds loweredLeft
    obtain ⟨onRight', afterRight⟩ := lowers_of_ofTyped onRight inRight afterLeft loweredRight
    obtain ⟨common, info, isCommon, described, isOperator⟩ := ofBinary_ok built
    exact ⟨.binary onLeft' onRight' isCommon described isOperator, afterRight⟩
  | .call _ _ args, _, _, _, _, _, _, .call onArgs bound fits, rising, finds, h => by
    simp only [ofTyped, bound] at h
    obtain ⟨⟨es, _⟩, lowered, h⟩ := ok_of_bind h
    obtain ⟨e, built, h⟩ := ok_of_bind h
    cases h
    have length := Overload.length_paramTys _ fits.arity
    rw [List.length_map] at length
    obtain ⟨onArgs', after⟩ := lowersAll_of_ofArgs onArgs length rising finds lowered
    exact ⟨.call bound onArgs' (ofCall_ok built), after⟩
  | .member _ receiver _, _, _, _, _, _, _, .member onReceiver bound fits, rising, finds, h => by
    obtain ⟨ty, single⟩ := List.length_eq_one_iff.1 (Overload.length_paramTys _ fits.arity)
    rw [single] at bound
    simp only [ofTyped, bound] at h
    obtain ⟨⟨r, _⟩, lowered, h⟩ := ok_of_bind h
    obtain ⟨e, built, h⟩ := ok_of_bind h
    cases h
    obtain ⟨onReceiver', after⟩ := lowers_of_ofTyped (t := receiver) onReceiver rising finds lowered
    exact ⟨.member bound (.cons onReceiver' .nil) (ofCall_ok built), after⟩
  | .ident _ symbol, _, _, _, _, _, _, .ident found, _, finds, h => by
    obtain ⟨param, isParam, _⟩ := Parameters.lookup_types found
    simp only [ofTyped, finds.lookup isParam] at h
    cases h
    exact ⟨.ident isParam, finds⟩
  | .literal .., _, _, _, _, _, _, .literal bound _, _, finds, h => by
    simp only [ofTyped, bound] at h
    obtain ⟨info, described, h⟩ := ok_of_bind h
    cases h
    exact ⟨.literal bound (describe_ok described), finds⟩

theorem lowersAll_of_ofArgs : ∀ {ts : List (Term Typed)} {types : List Ty} {ρ : Parameters}
    {p p' : ParamSupply} {low high : Nat} {es : List Expr},
    WellTypedAll catalog resolver ρ.types ts → types.length = ts.length →
    Rising low ((symbolsAll ts).map Symbol.id) high → p.Finds ρ low →
    ofArgs catalog ts types p = .ok (es, p') → LowersAll catalog ρ ts types es ∧ p'.Finds ρ low
  | [], [], _, _, _, _, _, _, .nil, _, _, finds, h => by
    cases h
    exact ⟨.nil, finds⟩
  | t :: rest, ty :: types, _, _, _, _, _, _, .cons first others, length, rising, finds, h => by
    obtain ⟨⟨e, _⟩, loweredFirst, h⟩ := ok_of_bind h
    obtain ⟨⟨es, _⟩, loweredOthers, h⟩ := ok_of_bind h
    cases h
    simp only [symbolsAll, List.map_append] at rising
    obtain ⟨inFirst, inOthers⟩ := rising.of_append
    obtain ⟨onFirst, after⟩ := lowers_of_ofTyped first inFirst finds loweredFirst
    obtain ⟨onOthers, after'⟩ := lowersAll_of_ofArgs others (Nat.succ.inj length) inOthers after
      loweredOthers
    exact ⟨.cons onFirst onOthers, after'⟩
end

end Expr

section

variable {catalog : Catalog} {resolver : Resolver} {ρ : Parameters} {t : Term Typed} {e : Expr}

/-- The body of a lambda already has the type that the lambda is said to give. -/
theorem Lowers.lambdaBody_eq (h : Lowers catalog ρ t e) {ty : Ty} {params : List Ty}
    (isLambda : ty = .lambda params t.ty) : Expr.lambdaBody e ty = e := by
  subst isLambda
  exact if_pos h.ty_eq

/-- A compiled query is what the body of its lambda becomes, with the parameter in scope. -/
theorem LambdaExpr.lowers_of_ofTyped {l : LambdaExpr} {high : Nat}
    (wellTyped : WellTyped catalog resolver [] t) (rising : Rising 0 (t.symbols.map Symbol.id) high)
    (h : LambdaExpr.ofTyped catalog t = .ok l) :
    ∃ note binder body, t = .lambda note binder body ∧ l.param.ty = binder.note.ty ∧
      WellTyped catalog resolver [(binder.symbol, binder.note.ty)] body ∧
      Lowers catalog [(binder.symbol, l.param)] body l.body := by
  cases wellTyped with
  | @lambda _ note binder body onBody isLambda =>
    obtain ⟨⟨e, _⟩, lowered, h⟩ := ok_of_bind h
    cases h
    obtain ⟨le, inside⟩ := rising.of_cons
    obtain ⟨lowers, _⟩ := Expr.lowers_of_ofTyped
      (ρ := [(binder.symbol, ParamSupply.start.param binder)]) onBody inside
      (ParamSupply.Finds.start.bind le) lowered
    refine ⟨note, binder, body, rfl, rfl, onBody, ?_⟩
    rw [lowers.lambdaBody_eq isLambda]
    exact lowers
  | _ => cases h

end

end LambdaQuery
