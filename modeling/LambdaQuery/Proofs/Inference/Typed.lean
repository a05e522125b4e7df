import LambdaQuery.Proofs.Inference.Binders
import LambdaQuery.Proofs.Inference.Offers
import LambdaQuery.Proofs.Inference.Stalled
import LambdaQuery.Proofs.TyOrder
import LambdaQuery.Proofs.Typing

/-!
# Types put into a tree are well typed

If all work is done and the lambdas say what they are, the tree that the types are put into is well
typed. If types can be put into a tree, nothing that the work needs is missing.
-/

namespace LambdaQuery

/-- Nothing converts to a truth value but a truth value. -/
theorem Ty.eq_bool_of_assignable {ty : Ty} (h : Ty.bool.assignable ty = true) : ty = .bool := by
  unfold assignable at h
  exact (by simpa using h : Ty.bool = ty).symm

/-- What stands beside `args` also stands beside their types. -/
theorem exists_mem_zip {α : Type} {f : Valuation} {xs : List α} {args : List Nat} {tys : List Ty}
    (h : args.map f = tys.map some) {p : α × Ty} (mem : p ∈ xs.zip tys) :
    ∃ arg, (p.1, arg) ∈ xs.zip args ∧ f arg = some p.2 := by
  induction xs generalizing args tys with
  | nil => cases mem
  | cons x xs ih =>
    cases tys with
    | nil => cases mem
    | cons ty tys =>
      cases args with
      | nil => cases h
      | cons arg args =>
        simp only [List.map_cons, List.cons.injEq] at h
        rcases List.mem_cons.1 mem with rfl | inRest
        · exact ⟨arg, List.mem_cons_self, h.1⟩
        · obtain ⟨other, inZip, has⟩ := ih h.2 inRest
          exact ⟨other, List.mem_cons_of_mem _ inZip, has⟩

namespace Solver

open Term

variable {catalog : Catalog} {resolver : Resolver} {s : Solver} {binders : List (Symbol × Nat)}
  {t' : Term Typed}

theorem typeOf_ok {slot : Nat} {fault : TypeFault} {ty : Ty} (h : s.typeOf slot fault = .ok ty) :
    s.known? slot = some ty := by
  unfold typeOf at h
  split at h
  · cases h
    assumption
  · cases h

theorem functionBinding_ok {slot : Nat} {args : List Ty} {binding : Binding}
    (h : s.functionBinding slot args = .ok binding) :
    ∃ o, s.overload? slot = some o ∧ binding = .function o (o.paramTys args) := by
  unfold functionBinding at h
  split at h
  · cases h
    exact ⟨_, by assumption, rfl⟩
  · cases h

theorem checkOperator_ok {slot : Nat} {op : Operator} {left right : Ty} {u : Unit}
    (h : s.checkOperator catalog slot op left right = .ok u) :
    ∃ common, op.Joins catalog left right common := by
  unfold checkOperator at h
  split at h
  · cases h
  · split at h
    · cases h
    · split at h
      · exact ⟨_, by assumption, _, by assumption, by assumption⟩
      · cases h

theorem literalValue_ok {slot : Nat} {ty : Ty} {text : Option String} {value : Value}
    (h : s.literalValue catalog slot ty text = .ok value) :
    Literal.WellTyped catalog ty text value := by
  cases text with
  | none =>
    simp only [literalValue] at h
    split at h <;> cases h
    exact ⟨rfl, by assumption⟩
  | some text =>
    simp only [literalValue] at h
    split at h
    · cases h
    · rename_i info described
      cases parsed : info.parse text with
      | error e =>
        rw [parsed] at h
        cases h
      | ok v =>
        rw [parsed] at h
        cases h
        exact ⟨info, described, parsed⟩

/-! What it takes to type a node of each kind. -/

theorem typed_lambda {n : Slotted} {param : Binder Slotted} {body : Term Slotted}
    (h : s.typed catalog binders (.lambda n param body) = .ok t') :
    ∃ body' paramTy ty, s.typed catalog binders body = .ok body' ∧
      s.known? param.note.slot = some paramTy ∧ s.known? n.slot = some ty ∧
      t' = .lambda ⟨n.span, ty, .none⟩ ⟨param.symbol, ⟨param.note.span, paramTy, .none⟩⟩ body' := by
  unfold typed at h
  obtain ⟨body', onBody, h⟩ := ok_of_bind h
  obtain ⟨paramTy, onParam, h⟩ := ok_of_bind h
  obtain ⟨ty, onNode, h⟩ := ok_of_bind h
  cases h
  exact ⟨body', paramTy, ty, onBody, typeOf_ok onParam, typeOf_ok onNode, rfl⟩

theorem typed_binary {n : Slotted} {op : Operator} {left right : Term Slotted}
    (h : s.typed catalog binders (.binary n op left right) = .ok t') :
    ∃ left' right' ty, s.typed catalog binders left = .ok left' ∧
      s.typed catalog binders right = .ok right' ∧
      (∃ common, op.Joins catalog left'.ty right'.ty common) ∧ s.known? n.slot = some ty ∧
      t' = .binary ⟨n.span, ty, .none⟩ op left' right' := by
  unfold typed at h
  obtain ⟨left', onLeft, h⟩ := ok_of_bind h
  obtain ⟨right', onRight, h⟩ := ok_of_bind h
  obtain ⟨_, checked, h⟩ := ok_of_bind h
  obtain ⟨ty, onNode, h⟩ := ok_of_bind h
  cases h
  exact ⟨left', right', ty, onLeft, onRight, checkOperator_ok checked, typeOf_ok onNode, rfl⟩

theorem typed_call {n : Slotted} {name : String} {args : List (Term Slotted)}
    (h : s.typed catalog binders (.call n name args) = .ok t') :
    ∃ args' ty o, s.typedAll catalog binders args = .ok args' ∧ s.known? n.slot = some ty ∧
      s.overload? n.slot = some o ∧
      t' = .call ⟨n.span, ty, .function o (o.paramTys (args'.map Term.ty))⟩ name args' := by
  unfold typed at h
  obtain ⟨args', onArgs, h⟩ := ok_of_bind h
  obtain ⟨ty, onNode, h⟩ := ok_of_bind h
  obtain ⟨binding, bound, h⟩ := ok_of_bind h
  obtain ⟨o, recorded, rfl⟩ := functionBinding_ok bound
  cases h
  exact ⟨args', ty, o, onArgs, typeOf_ok onNode, recorded, rfl⟩

theorem typed_member {n : Slotted} {receiver : Term Slotted} {name : String}
    (h : s.typed catalog binders (.member n receiver name) = .ok t') :
    ∃ receiver' ty o, s.typed catalog binders receiver = .ok receiver' ∧
      s.known? n.slot = some ty ∧ s.overload? n.slot = some o ∧
      t' = .member ⟨n.span, ty, .function o (o.paramTys [receiver'.ty])⟩ receiver' name := by
  unfold typed at h
  obtain ⟨receiver', onReceiver, h⟩ := ok_of_bind h
  obtain ⟨ty, onNode, h⟩ := ok_of_bind h
  obtain ⟨binding, bound, h⟩ := ok_of_bind h
  obtain ⟨o, recorded, rfl⟩ := functionBinding_ok bound
  cases h
  exact ⟨receiver', ty, o, onReceiver, typeOf_ok onNode, recorded, rfl⟩

theorem typed_ident {n : Slotted} {symbol : Symbol} (looked : binders.lookup symbol = some n.slot)
    (h : s.typed catalog binders (.ident n symbol) = .ok t') :
    ∃ ty, s.known? n.slot = some ty ∧ t' = .ident ⟨n.span, ty, .none⟩ symbol := by
  unfold typed at h
  rw [looked] at h
  obtain ⟨ty, onNode, h⟩ := ok_of_bind h
  cases h
  exact ⟨ty, typeOf_ok onNode, rfl⟩

theorem typed_literal {n : Slotted} {text : Option String}
    (h : s.typed catalog binders (.literal n text) = .ok t') :
    ∃ ty value, s.known? n.slot = some ty ∧ Literal.WellTyped catalog ty text value ∧
      t' = .literal ⟨n.span, ty, .constant value⟩ text := by
  unfold typed at h
  obtain ⟨ty, onNode, h⟩ := ok_of_bind h
  obtain ⟨value, read, h⟩ := ok_of_bind h
  cases h
  exact ⟨ty, value, typeOf_ok onNode, literalValue_ok read, rfl⟩

theorem typedAll_cons {t : Term Slotted} {rest : List (Term Slotted)} {ts' : List (Term Typed)}
    (h : s.typedAll catalog binders (t :: rest) = .ok ts') :
    ∃ t' rest', s.typed catalog binders t = .ok t' ∧ s.typedAll catalog binders rest = .ok rest' ∧
      ts' = t' :: rest' := by
  unfold typedAll at h
  obtain ⟨t', first, h⟩ := ok_of_bind h
  obtain ⟨rest', others, h⟩ := ok_of_bind h
  cases h
  exact ⟨t', rest', first, others, rfl⟩

/-- The type of a node is that of its slot. -/
theorem known?_of_typed {scope : List Symbol} {t : Term Slotted} (bound : t.Bound binders scope)
    (h : s.typed catalog binders t = .ok t') : s.known? t.slot = some t'.ty := by
  cases t with
  | lambda n param body =>
    obtain ⟨_, _, _, _, _, known, rfl⟩ := typed_lambda h
    exact known
  | binary n op left right =>
    obtain ⟨_, _, _, _, _, _, known, rfl⟩ := typed_binary h
    exact known
  | call n name args =>
    obtain ⟨_, _, _, _, known, _, rfl⟩ := typed_call h
    exact known
  | member n receiver name =>
    obtain ⟨_, _, _, _, known, _, rfl⟩ := typed_member h
    exact known
  | ident n symbol =>
    obtain ⟨_, known, rfl⟩ := typed_ident bound.1 h
    exact known
  | literal n text =>
    obtain ⟨_, _, known, _, rfl⟩ := typed_literal h
    exact known

theorem known?_of_typedAll {scope : List Symbol} {ts : List (Term Slotted)}
    {ts' : List (Term Typed)} (bound : BoundAll binders scope ts)
    (h : s.typedAll catalog binders ts = .ok ts') :
    (ts.map slot).map s.known? = (ts'.map Term.ty).map some := by
  induction ts generalizing ts' with
  | nil =>
    cases h
    rfl
  | cons t rest ih =>
    obtain ⟨t', rest', first, others, rfl⟩ := typedAll_cons h
    simp [known?_of_typed bound.1 first, ih bound.2 others]

/-! What is needed to do an item. -/

/-- The operands of an item have types, and if it is about a name an overload is recorded. -/
def Supplied (s : Solver) (item : Item) : Prop :=
  (∀ i ∈ item.operands, ∃ ty, s.known? i = some ty) ∧
    (Inference.IsBinary item ∨ ∃ o, s.overload? item.slot = some o)

mutual
theorem supplied_of_typed : ∀ {t : Term Slotted} {scope : List Symbol} {t' : Term Typed},
    t.Bound binders scope → s.typed catalog binders t = .ok t' → ∀ item ∈ t.items, s.Supplied item
  | .lambda _ _ body, _, _, bound, h => by
    obtain ⟨body', _, _, onBody, _⟩ := typed_lambda h
    have inBody := supplied_of_typed bound.2 onBody
    exact inBody
  | .binary n op left right, _, _, bound, h => by
    obtain ⟨left', right', _, onLeft, onRight, _⟩ := typed_binary h
    intro item mem
    simp only [items, List.mem_append, List.mem_singleton] at mem
    rcases mem with (inLeft | inRight) | rfl
    · exact supplied_of_typed bound.1 onLeft item inLeft
    · exact supplied_of_typed bound.2 onRight item inRight
    · have knownLeft := known?_of_typed bound.1 onLeft
      have knownRight := known?_of_typed bound.2 onRight
      exact ⟨by simp [Item.operands, knownLeft, knownRight], .inl trivial⟩
  | .call n name args, _, _, bound, h => by
    obtain ⟨args', _, o, onArgs, _, recorded, _⟩ := typed_call h
    have known := known?_of_typedAll bound onArgs
    intro item mem
    simp only [items, List.mem_append, List.mem_singleton] at mem
    rcases mem with inArgs | rfl
    · exact supplied_of_typedAll bound onArgs item inArgs
    · refine ⟨fun i isArg => ?_, .inr ⟨o, recorded⟩⟩
      have among : s.known? i ∈ (args'.map Term.ty).map some := known ▸ List.mem_map_of_mem isArg
      obtain ⟨ty, _, isTy⟩ := List.mem_map.1 among
      exact ⟨ty, isTy.symm⟩
  | .member n receiver name, _, _, bound, h => by
    obtain ⟨receiver', _, o, onReceiver, _, recorded, _⟩ := typed_member h
    intro item mem
    simp only [items, List.mem_append, List.mem_singleton] at mem
    rcases mem with inReceiver | rfl
    · exact supplied_of_typed (t := receiver) bound onReceiver item inReceiver
    · have known := known?_of_typed (t := receiver) bound onReceiver
      exact ⟨by simp [Item.operands, known], .inr ⟨o, recorded⟩⟩
  | .ident .., _, _, _, _ => by simp [items]
  | .literal .., _, _, _, _ => by simp [items]

theorem supplied_of_typedAll : ∀ {ts : List (Term Slotted)} {scope : List Symbol}
    {ts' : List (Term Typed)}, BoundAll binders scope ts →
    s.typedAll catalog binders ts = .ok ts' → ∀ item ∈ itemsAll ts, s.Supplied item
  | [], _, _, _, _ => by simp [itemsAll]
  | t :: rest, _, _, bound, h => by
    obtain ⟨_, _, first, others, _⟩ := typedAll_cons h
    intro item mem
    rcases List.mem_append.1 mem with inFirst | inRest
    · exact supplied_of_typed bound.1 first item inFirst
    · exact supplied_of_typedAll bound.2 others item inRest
end

/-! The rules. -/

/-- An overload that was found for a name, and whose signature the types meet, satisfies the rule
for the name. -/
theorem wellTyped_of_resolved {site : Site} {name : String} {slot : Nat} {args : List Nat}
    {tys : List Ty} {ty : Ty} {o : Overload}
    (plain : resolver.Plain) (h : Item.Resolved catalog resolver s site name slot args)
    (recorded : s.overload? slot = some o) (types : args.map s.known? = tys.map some)
    (known : s.known? slot = some ty) : o.WellTyped resolver site name tys ty := by
  obtain ⟨o', r, recorded', resolves, requests, meets⟩ := h
  cases recorded.symm.trans recorded'
  have arity : args.length = tys.length := by simpa using congrArg List.length types
  obtain ⟨⟨plainParams, rigidResult⟩, sameLength⟩ := plain r o resolves
  obtain ⟨b, meetsArgs, meetsResult⟩ := meets s.known? (models_known? catalog s)
  refine ⟨⟨r, ⟨requests.name, requests.site, requests.arity.trans arity, ?_⟩, resolves⟩,
    by rw [sameLength, requests.arity, arity], b, ?_, ?_⟩
  · intro p mem ty isKnown
    obtain ⟨arg, inZip, has⟩ := exists_mem_zip types mem
    have same := requests.known _ inZip ty isKnown
    rw [has] at same
    exact Option.some.inj same
  · intro p mem
    obtain ⟨arg, inZip, has⟩ := exists_mem_zip types mem
    exact Shape.accepts_of_meets (plainParams p.1 (List.of_mem_zip mem).1)
      (meetsArgs _ inZip p.2 has)
  · exact Shape.result_of_meets rigidResult (meetsResult ty known)

theorem wellTyped_of_holds {op : Operator} {slot left right : Nat} {l r ty : Ty}
    (joins : ∃ common, op.Joins catalog l r common) (h : op.Holds s.known? slot left right)
    (knownLeft : s.known? left = some l) (knownRight : s.known? right = some r)
    (known : s.known? slot = some ty) : op.WellTyped catalog l r ty := by
  obtain ⟨common, joins⟩ := joins
  unfold Operator.Holds at h
  unfold Operator.WellTyped
  cases kind : op.kind with
  | logical =>
    simp only [kind, knownLeft, knownRight, known, Option.some.injEq, exists_eq_left'] at h
    exact ⟨Ty.eq_bool_of_assignable h.1, Ty.eq_bool_of_assignable h.2.1, h.2.2⟩
  | equality | ordering =>
    simp only [kind, known, Option.some.injEq, exists_eq_left'] at h
    exact ⟨common, joins, h⟩
  | arithmetic =>
    simp only [kind] at h
    obtain ⟨l', r', common', ty', isLeft, isRight, isCommon, isTy, converts⟩ := h
    cases knownLeft.symm.trans isLeft
    cases knownRight.symm.trans isRight
    cases known.symm.trans isTy
    cases joins.1.symm.trans isCommon
    exact ⟨common, joins, converts⟩

/-- The context gives each parameter the type of its slot. -/
def Agrees (s : Solver) (binders : List (Symbol × Nat)) (Γ : Context) : Prop :=
  ∀ p ∈ Γ, ∃ slot, binders.lookup p.1 = some slot ∧ s.known? slot = some p.2

/-- A symbol of the context has the type of the slot that it stands for. -/
theorem Agrees.lookup {Γ : Context} (h : s.Agrees binders Γ) {symbol : Symbol} {slot : Nat}
    {ty : Ty} (inScope : ∃ bound ∈ Γ.map Prod.fst, bound.id = symbol.id)
    (looked : binders.lookup symbol = some slot) (known : s.known? slot = some ty) :
    Γ.lookup symbol = some ty := by
  induction Γ with
  | nil => simp at inScope
  | cons p Γ ih =>
    rw [List.lookup_cons]
    cases same : symbol == p.1 with
    | true =>
      obtain ⟨slot', looked', known'⟩ := h p List.mem_cons_self
      have sameId : symbol.id = p.1.id := by simpa [BEq.beq] using same
      have sameLookup : binders.lookup symbol = binders.lookup p.1 := by
        have sameBEq : ∀ q : Symbol, (symbol == q) = (p.1 == q) := fun q => by
          simp [BEq.beq, sameId]
        clear h ih looked looked' known
        induction binders with
        | nil => rfl
        | cons q rest ih => rw [List.lookup_cons, List.lookup_cons, sameBEq, ih]
      rw [sameLookup, looked'] at looked
      cases looked
      rw [← known', known]
    | false =>
      refine ih (fun q mem => h q (List.mem_cons_of_mem _ mem)) ?_
      obtain ⟨bound, mem, isBound⟩ := inScope
      rcases List.mem_cons.1 mem with rfl | inRest
      · have : (symbol == p.1) = true := by simp [BEq.beq, isBound]
        rw [this] at same
        cases same
      · exact ⟨bound, inRest, isBound⟩

mutual
theorem wellTyped_of_typed (plain : resolver.Plain) : ∀ {t : Term Slotted} {Γ : Context} {t' : Term Typed},
    t.Bound binders (Γ.map Prod.fst) → s.Agrees binders Γ →
    (∀ item ∈ t.items, item.Done catalog resolver s) →
    (∀ l ∈ t.lambdas, l.task.Holds catalog s.known?) →
    s.typed catalog binders t = .ok t' → WellTyped catalog resolver Γ t'
  | .lambda n param body, Γ, _, bound, agrees, done, lambdas, h => by
    obtain ⟨body', paramTy, ty, onBody, knownParam, known, rfl⟩ := typed_lambda h
    have knownBody := known?_of_typed bound.2 onBody
    obtain ⟨types, resultTy, isLambda, paramTys, bodyTy⟩ :=
      lambdas ⟨n.slot, param.note.slot, body.slot⟩ (by simp [Term.lambdas]) ty known
    refine .lambda (wellTyped_of_typed plain bound.2 ?_ done (fun l mem => lambdas l ?_) onBody) ?_
    · intro p mem
      rcases List.mem_cons.1 mem with rfl | outer
      · exact ⟨_, bound.1, knownParam⟩
      · exact agrees p outer
    · simp [Term.lambdas, mem]
    · subst isLambda
      have isParam : types = [paramTy] := by
        cases types with
        | nil => cases paramTys
        | cons ty rest => simp_all
      rw [knownBody] at bodyTy
      cases bodyTy
      rw [isParam]
  | .binary n op left right, Γ, _, bound, agrees, done, lambdas, h => by
    obtain ⟨left', right', ty, onLeft, onRight, joins, known, rfl⟩ := typed_binary h
    have inLeft : ∀ item ∈ left.items, item.Done catalog resolver s := fun item mem =>
      done item (by simp [items, mem])
    have inRight : ∀ item ∈ right.items, item.Done catalog resolver s := fun item mem =>
      done item (by simp [items, mem])
    have here : Item.Done catalog resolver s (.binary n.slot op left.slot right.slot) :=
      done _ (by simp [items])
    refine .binary
      (wellTyped_of_typed plain bound.1 agrees inLeft (fun l mem => lambdas l ?_) onLeft)
      (wellTyped_of_typed plain bound.2 agrees inRight (fun l mem => lambdas l ?_) onRight)
      (wellTyped_of_holds joins (here _ (models_known? catalog s))
        (known?_of_typed bound.1 onLeft) (known?_of_typed bound.2 onRight) known)
    · exact List.mem_append_left _ mem
    · exact List.mem_append_right _ mem
  | .call n name args, Γ, _, bound, agrees, done, lambdas, h => by
    obtain ⟨args', ty, o, onArgs, known, recorded, rfl⟩ := typed_call h
    have inArgs : ∀ item ∈ itemsAll args, item.Done catalog resolver s := fun item mem =>
      done item (by simp [items, mem])
    have here : Item.Done catalog resolver s (.call n.slot name (args.map slot)) :=
      done _ (by simp [items])
    exact .call (wellTyped_of_typedAll plain bound agrees inArgs lambdas onArgs) rfl
      (wellTyped_of_resolved plain here recorded (known?_of_typedAll bound onArgs) known)
  | .member n receiver name, Γ, _, bound, agrees, done, lambdas, h => by
    obtain ⟨receiver', ty, o, onReceiver, known, recorded, rfl⟩ := typed_member h
    have inReceiver : ∀ item ∈ receiver.items, item.Done catalog resolver s := fun item mem =>
      done item (by simp [items, mem])
    have here : Item.Done catalog resolver s (.member n.slot receiver.slot name) :=
      done _ (by simp [items])
    have knownReceiver := known?_of_typed (t := receiver) bound onReceiver
    exact .member
      (wellTyped_of_typed (t := receiver) plain bound agrees inReceiver lambdas onReceiver) rfl
      (wellTyped_of_resolved plain here recorded (by simp [knownReceiver]) known)
  | .ident n symbol, Γ, _, bound, agrees, _, _, h => by
    obtain ⟨ty, known, rfl⟩ := typed_ident bound.1 h
    exact .ident (agrees.lookup bound.2 bound.1 known)
  | .literal n text, Γ, _, _, _, _, _, h => by
    obtain ⟨ty, value, _, isValue, rfl⟩ := typed_literal h
    exact .literal rfl isValue

theorem wellTyped_of_typedAll (plain : resolver.Plain) : ∀ {ts : List (Term Slotted)} {Γ : Context}
    {ts' : List (Term Typed)}, BoundAll binders (Γ.map Prod.fst) ts → s.Agrees binders Γ →
    (∀ item ∈ itemsAll ts, item.Done catalog resolver s) →
    (∀ l ∈ lambdasAll ts, l.task.Holds catalog s.known?) →
    s.typedAll catalog binders ts = .ok ts' → WellTypedAll catalog resolver Γ ts'
  | [], _, _, _, _, _, _, h => by
    cases h
    exact .nil
  | t :: rest, Γ, _, bound, agrees, done, lambdas, h => by
    obtain ⟨t', rest', first, others, rfl⟩ := typedAll_cons h
    have inFirst : ∀ item ∈ t.items, item.Done catalog resolver s := fun item mem =>
      done item (List.mem_append_left _ mem)
    have inRest : ∀ item ∈ itemsAll rest, item.Done catalog resolver s := fun item mem =>
      done item (List.mem_append_right _ mem)
    exact .cons
      (wellTyped_of_typed plain bound.1 agrees inFirst
        (fun l mem => lambdas l (List.mem_append_left _ mem)) first)
      (wellTyped_of_typedAll plain bound.2 agrees inRest
        (fun l mem => lambdas l (List.mem_append_right _ mem)) others)
end

end Solver

end LambdaQuery
