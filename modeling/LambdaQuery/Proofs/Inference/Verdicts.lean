import LambdaQuery.Proofs.Inference.Crossing
import LambdaQuery.Proofs.Inference.Typed

/-!
# Both trees get types, or none does

When the work on two trees is done, what is left of it and what is known of paired slots is the
same. So a call is left on both sides or on none, and every node has a type on both sides or there
is one without a type on each.
-/

namespace LambdaQuery

/-! The typed trees. -/

namespace Except.Matched

variable {ε α β γ δ ζ η : Type} {R : α → β → Prop} {R' : γ → δ → Prop} {S : ζ → η → Prop}
  {x : Except ε α} {x' : Except ε β} {y : Except ε γ} {y' : Except ε δ}

theorem bind {f : α → Except ε γ} {f' : β → Except ε δ} (first : Except.Matched R x x')
    (next : ∀ {a : α} {b : β}, R a b → Except.Matched R' (f a) (f' b)) :
    Except.Matched R' (x >>= f) (x' >>= f') := by
  cases first with
  | ok related => exact next related
  | error => exact .error

/-- Two steps in either order. -/
theorem bind_swap {f : α → γ → Except ε ζ} {f' : β → δ → Except ε η} (first : Except.Matched R x x')
    (second : Except.Matched R' y y')
    (next : ∀ {a : α} {b : β} {c : γ} {d : δ}, R a b → R' c d → Except.Matched S (f a c) (f' b d)) :
    Except.Matched S (do let a ← x; let c ← y; f a c) (do let d ← y'; let b ← x'; f' b d) := by
  cases first with
  | ok related => cases second with
    | ok related' => exact next related related'
    | error => exact .error
  | error => cases second with
    | ok related' => exact .error
    | error => exact .error

end Except.Matched

namespace Solver

open Term

variable {catalog : Catalog} {q r : Pairing} {s s' : Solver} {slot slot' : Nat}

/-- What paired slots have come to is the same. -/
structure SameOn (q : Pairing) (s s' : Solver) : Prop where
  known : ∀ {a a' : Nat}, q a a' → s.known? a = s'.known? a'
  overload : ∀ {a a' : Nat}, q a a' → s.overload? a = s'.overload? a'

theorem LookAlike.sameOn {q' : Pairing} (h : LookAlike q' s s') (le : q.Le q') : SameOn q s s' where
  known paired := h.known?_eq (le paired)
  overload paired := h.overload (le paired)

theorem typeOf_matched (same : s.known? slot = s'.known? slot') (fault : TypeFault) :
    Except.Matched Eq (s.typeOf slot fault) (s'.typeOf slot' fault) := by
  unfold typeOf
  rw [same]
  cases s'.known? slot' with
  | none => exact .error
  | some ty => exact .ok rfl

theorem functionBinding_matched (same : s.overload? slot = s'.overload? slot') (args : List Ty) :
    Except.Matched (fun _ _ => True) (s.functionBinding slot args)
      (s'.functionBinding slot' args) := by
  unfold functionBinding
  rw [same]
  cases s'.overload? slot' with
  | none => exact .error
  | some o => exact .ok trivial

theorem literalValue_matched (ty : Ty) (text : Option String) :
    Except.Matched (fun _ _ => True) (s.literalValue catalog slot ty text)
      (s'.literalValue catalog slot' ty text) := by
  cases text with
  | none =>
    simp only [literalValue]
    split
    · exact .ok trivial
    · exact .error
  | some text =>
    simp only [literalValue]
    cases catalog.describe ty with
    | none => exact .error
    | some info =>
      simp only
      cases info.parse text with
      | error e => exact .error
      | ok value => exact .ok trivial

theorem checkOperator_matched (op : Operator) {left right left' right' : Ty}
    (same : left.common? right = left'.common? right') :
    Except.Matched (fun _ _ => True) (s.checkOperator catalog slot op left right)
      (s'.checkOperator catalog slot' op left' right') := by
  unfold checkOperator
  rw [same]
  cases left'.common? right' with
  | none => exact .error
  | some ty =>
    dsimp only
    cases catalog.describe ty with
    | none => exact .error
    | some info =>
      dsimp only
      split
      · exact .ok trivial
      · exact .error

/-- Typed trees whose roots have the same type. -/
abbrev SameTy (u u' : Term Typed) : Prop :=
  u.note.ty = u'.note.ty

abbrev SameTys : List (Term Typed) → List (Term Typed) → Prop :=
  List.Forall₂ SameTy

theorem SameTys.map_eq {us us' : List (Term Typed)} (h : SameTys us us') :
    us.map (·.note.ty) = us'.map (·.note.ty) := by
  induction h with
  | nil => rfl
  | cons first _ ih => rw [List.map_cons, List.map_cons, first, ih]

/-- A typed node, from the typed nodes right below. -/
def typedNode (catalog : Catalog) (s : Solver) (binders : List (Symbol × Nat)) :
    Term Slotted → List (Term Typed) → Except TypeError (Term Typed)
  | .lambda n param _, [body] => do
    let paramTy ← s.typeOf param.note.slot .untyped
    let ty ← s.typeOf n.slot .untyped
    return .lambda ⟨n.span, ty, .none⟩ ⟨param.symbol, ⟨param.note.span, paramTy, .none⟩⟩ body
  | .binary n op _ _, [left, right] => do
    s.checkOperator catalog n.slot op left.note.ty right.note.ty
    let ty ← s.typeOf n.slot .untyped
    return .binary ⟨n.span, ty, .none⟩ op left right
  | .call n name _, args => do
    let ty ← s.typeOf n.slot .untyped
    let binding ← s.functionBinding n.slot (args.map (·.note.ty))
    return .call ⟨n.span, ty, binding⟩ name args
  | .member n _ name, [receiver] => do
    let ty ← s.typeOf n.slot .untyped
    let binding ← s.functionBinding n.slot [receiver.note.ty]
    return .member ⟨n.span, ty, binding⟩ receiver name
  | .ident n symbol, [] => do
    let ty ← s.typeOf ((binders.lookup symbol).getD n.slot) .untyped
    return .ident ⟨n.span, ty, .none⟩ symbol
  | .literal n text, [] => do
    let ty ← s.typeOf n.slot (.untypedLiteral (text.getD "null"))
    let value ← s.literalValue catalog n.slot ty text
    return .literal ⟨n.span, ty, .constant value⟩ text
  | t, _ => .error (s.blame t.slot .untyped)

variable {binders binders' : List (Symbol × Nat)}

/-- Nodes get their types after those below. -/
theorem typed_eq (t : Term Slotted) : s.typed catalog binders t =
    s.typedAll catalog binders t.children >>= s.typedNode catalog binders t := by
  cases t with
  | call => rfl
  | lambda | binary | member | ident | literal =>
    simp only [typed, typedAll, children, typedNode, bind_assoc, pure_bind]

theorem typedNode_matched (h : SameOn q s s') {t t' : Term Slotted} {scope scope' : List Symbol}
    (onNode : NodePaired q t t') (bound : t.Bound binders scope) (bound' : t'.Bound binders' scope')
    {us us' : List (Term Typed)} (same : SameTys us us') :
    Except.Matched SameTy (s.typedNode catalog binders t us)
      (s'.typedNode catalog binders' t' us') := by
  cases onNode with
  | lambda onSlot onParam _ _ =>
    rcases same with _ | ⟨_, _ | _⟩
    · exact .error
    · refine .bind (typeOf_matched (h.known onParam) _) fun _ => ?_
      exact .bind (typeOf_matched (h.known onSlot) _) fun sameTy => .ok sameTy
    · exact .error
  | binary onSlot _ _ =>
    rcases same with _ | ⟨sameLeft, _ | ⟨sameRight, _ | _⟩⟩
    · exact .error
    · exact .error
    · refine .bind (checkOperator_matched _ (by rw [sameLeft, sameRight])) fun _ => ?_
      exact .bind (typeOf_matched (h.known onSlot) _) fun sameTy => .ok sameTy
    · exact .error
  | call onSlot _ _ _ =>
    simp only [typedNode, same.map_eq]
    refine .bind (typeOf_matched (h.known onSlot) _) fun sameTy => ?_
    exact .bind (functionBinding_matched (h.overload onSlot) _) fun _ => .ok sameTy
  | member onSlot _ _ _ =>
    rcases same with _ | ⟨sameReceiver, _ | _⟩
    · exact .error
    · simp only [typedNode, show _ = _ from sameReceiver]
      refine .bind (typeOf_matched (h.known onSlot) _) fun sameTy => ?_
      exact .bind (functionBinding_matched (h.overload onSlot) _) fun _ => .ok sameTy
    · exact .error
  | ident onSlot =>
    rcases same with _ | _
    · simp only [typedNode, bound.1, bound'.1, Option.getD_some]
      exact .bind (typeOf_matched (h.known onSlot) _) fun sameTy => .ok sameTy
    · exact .error
  | literal onSlot =>
    rcases same with _ | _
    · refine .bind (typeOf_matched (h.known onSlot) _) ?_
      rintro ty _ rfl
      exact .bind (literalValue_matched ty _) fun _ => .ok rfl
    · exact .error

theorem exists_boundAll_children {t : Term Slotted} {scope : List Symbol}
    (bound : t.Bound binders scope) : ∃ scope', BoundAll binders scope' t.children := by
  cases t with
  | lambda => exact ⟨_, bound.2, trivial⟩
  | binary => exact ⟨_, bound.1, bound.2, trivial⟩
  | call => exact ⟨_, bound⟩
  | member => exact ⟨_, bound, trivial⟩
  | ident | literal => exact ⟨[], trivial⟩

mutual
/-- Paired trees get types together. -/
theorem typed_matched (h : SameOn q s s') : ∀ {t t' : Term Slotted} {scope scope' : List Symbol},
    Paired q t t' → t.Bound binders scope → t'.Bound binders' scope' →
      Except.Matched SameTy (s.typed catalog binders t) (s'.typed catalog binders' t')
  | t, t', _, _, .mk onNode onChildren, bound, bound' => by
    obtain ⟨_, below⟩ := exists_boundAll_children bound
    obtain ⟨_, below'⟩ := exists_boundAll_children bound'
    rw [typed_eq t, typed_eq t']
    exact .bind (typedAll_matched h onChildren below below') fun same =>
      typedNode_matched h onNode bound bound' same

theorem typedAll_matched (h : SameOn q s s') :
    ∀ {ts ts' : List (Term Slotted)} {scope scope' : List Symbol}, PairedAll q ts ts' →
      BoundAll binders scope ts → BoundAll binders' scope' ts' →
      Except.Matched SameTys (s.typedAll catalog binders ts) (s'.typedAll catalog binders' ts')
  | _, _, _, _, .nil, _, _ => .ok .nil
  | _, _, _, _, .cons onFirst onRest, bound, bound' => by
    refine .bind (typed_matched h onFirst bound.1 bound'.1) fun sameFirst => ?_
    refine .bind (typedAll_matched h onRest bound.2 bound'.2) fun sameRest => ?_
    exact .ok (.cons sameFirst sameRest)
end

/-- The types of an equality do not depend on the order of its operands. -/
theorem typed_equality (h : SameOn q s s') {n n' : Slotted} {op : Operator}
    {left left' right right' : Term Slotted} (onSlot : q n.slot n'.slot)
    (onLeft : Except.Matched SameTy (s.typed catalog binders left)
      (s'.typed catalog binders' left'))
    (onRight : Except.Matched SameTy (s.typed catalog binders right)
      (s'.typed catalog binders' right')) :
    Except.Matched SameTy (s.typed catalog binders (.binary n op left right))
      (s'.typed catalog binders' (.binary n' op right' left')) := by
  refine .bind_swap onLeft onRight fun sameLeft sameRight => ?_
  refine .bind (checkOperator_matched _ ?_) fun _ => ?_
  · rw [sameLeft, sameRight, Ty.common?_comm]
  · exact .bind (typeOf_matched (h.known onSlot) _) fun same => .ok same

mutual
/-- Trees get types together if the operands of an equality have changed places. -/
theorem typed_crossed (onQ : SameOn q s s') (onR : SameOn r s s') :
    ∀ {t t' : Term Slotted} {scope scope' : List Symbol}, Crossed q r t t' →
      t.Bound binders scope → t'.Bound binders' scope' →
      Except.Matched SameTy (s.typed catalog binders t) (s'.typed catalog binders' t')
  | _, _, _, _, .here _ onSlot onLeft onRight, bound, bound' =>
    typed_equality onQ onSlot (typed_matched onQ onLeft bound.1 bound'.2)
      (typed_matched onR onRight bound.2 bound'.1)
  | _, _, _, _, .bare _ onSlot onLeft onRight, bound, bound' =>
    typed_equality onQ onSlot (typed_matched onQ onLeft bound.1 bound'.2)
      (typed_matched onQ (.mk (.ident onRight) .nil) bound.2 bound'.1)
  | t, t', _, _, .inside onNode onChildren, bound, bound' => by
    obtain ⟨_, below⟩ := exists_boundAll_children bound
    obtain ⟨_, below'⟩ := exists_boundAll_children bound'
    rw [typed_eq t, typed_eq t']
    exact .bind (typedAll_crossed onQ onR onChildren below below') fun same =>
      typedNode_matched onQ onNode bound bound' same

theorem typedAll_crossed (onQ : SameOn q s s') (onR : SameOn r s s') :
    ∀ {ts ts' : List (Term Slotted)} {scope scope' : List Symbol}, CrossedAll q r ts ts' →
      BoundAll binders scope ts → BoundAll binders' scope' ts' →
      Except.Matched SameTys (s.typedAll catalog binders ts) (s'.typedAll catalog binders' ts')
  | _, _, _, _, .head onFirst onRest, bound, bound' => by
    refine .bind (typed_crossed onQ onR onFirst bound.1 bound'.1) fun sameFirst => ?_
    refine .bind (typedAll_matched onQ onRest bound.2 bound'.2) fun sameRest => ?_
    exact .ok (.cons sameFirst sameRest)
  | _, _, _, _, .tail onFirst onRest, bound, bound' => by
    refine .bind (typed_matched onQ onFirst bound.1 bound'.1) fun sameFirst => ?_
    refine .bind (typedAll_crossed onQ onR onRest bound.2 bound'.2) fun sameRest => ?_
    exact .ok (.cons sameFirst sameRest)
end

end Solver

/-! Calls that are left. -/

def Item.isCall : Item → Bool
  | .call .. => true
  | .member .. | .binary .. => false

theorem Solver.isNone_firstCall? (s : Solver) (items : List Item) :
    (s.firstCall? items).isNone = items.all fun item => !item.isCall := by
  induction items with
  | nil => rfl
  | cons item rest ih =>
    cases item with
    | call slot name args =>
      simp only [firstCall?, List.all_cons, Item.isCall]
      cases s.firstCall? rest with
      | none => rfl
      | some other =>
        simp only
        split <;> rfl
    | member | binary => simpa [firstCall?, Item.isCall] using ih

theorem forall₂_all_eq {α : Type} {R : α → α → Prop} {p : α → Bool} {l l' : List α}
    (h : List.Forall₂ R l l') (same : ∀ {a a' : α}, R a a' → p a = p a') : l.all p = l'.all p := by
  induction h with
  | nil => rfl
  | cons first _ ih => rw [List.all_cons, List.all_cons, same first, ih]

theorem Rearranged.all_eq {α : Type} {Q R E : α → α → Prop} {p : α → Bool} {l l' : List α}
    (h : Rearranged Q R E l l') (onQ : ∀ {a a' : α}, Q a a' → p a = p a')
    (onR : ∀ {a a' : α}, R a a' → p a = p a') (onE : ∀ {a a' : α}, E a a' → p a = p a') :
    l.all p = l'.all p := by
  obtain ⟨⟨⟨onBefore, ⟨onLeft, onRight⟩⟩, onCrossing⟩, onBehind⟩ := h
  simp only [List.all_append, forall₂_all_eq onBefore onQ, forall₂_all_eq onLeft onQ,
    forall₂_all_eq onRight onR, forall₂_all_eq onCrossing onE, forall₂_all_eq onBehind onQ]
  rw [Bool.and_comm (List.all _ p) (List.all _ p)]

namespace Inference

open Solver Term

variable {q r : Pairing}

theorem isCall_eq_of_paired {item item' : Item} (h : item.Paired q item') :
    item.isCall = item'.isCall := by
  cases h <;> rfl

theorem report_of_none (resolver : Resolver) {left : List Item} {s : Solver}
    (none : s.firstCall? left = none) : report resolver left s = .ok () s := by
  have looked (f : Solver → Inference Unit) : (get >>= f) s = f s s := rfl
  rw [report, looked, none]
  rfl

theorem exists_report_of_some (resolver : Resolver) {left : List Item} {s : Solver}
    {call : Nat × String × List Nat} (some : s.firstCall? left = some call) :
    ∃ e t, report resolver left s = .error e t := by
  have code := failure?_report resolver left s
  cases ran : report resolver left s with
  | ok _ t => simp [ran, failure?, some] at code
  | error e t => exact ⟨e, t, rfl⟩

theorem report_together (resolver : Resolver) {left left' : List Item}
    (h : ItemsRearranged q r left left') :
    Together q r (report resolver left) (report resolver left') fun _ _ _ _ => True := by
  intro q₁ r₁ s s' _ _ joint
  have both : (s.firstCall? left).isNone = (s'.firstCall? left').isNone := by
    rw [isNone_firstCall?, isNone_firstCall?]
    refine h.all_eq (fun paired => ?_) (fun paired => ?_) fun crossed => ?_
    · rw [isCall_eq_of_paired paired]
    · rw [isCall_eq_of_paired paired]
    · cases crossed
      rfl
  cases found : s.firstCall? left with
  | none => cases found' : s'.firstCall? left' with
    | none =>
      rw [report_of_none resolver found, report_of_none resolver found']
      exact .ok ⟨q₁, r₁, .refl _, .refl _, joint, trivial⟩
    | some call => simp [found, found'] at both
  | some call => cases found' : s'.firstCall? left' with
    | none => simp [found, found'] at both
    | some call' =>
      obtain ⟨e, t, failed⟩ := exists_report_of_some resolver found
      obtain ⟨e', t', failed'⟩ := exists_report_of_some resolver found'
      rw [failed, failed']
      exact .error

/-- All that is done after the type of the root is known. -/
theorem run_together (catalog : Catalog) (resolver : Resolver) {tree tree' : Term Slotted}
    {binders binders' : List (Symbol × Nat)} {scope scope' : List Symbol} {tasks tasks' : List Task}
    (crossed : Crossed q r tree tree') (bound : tree.Bound binders scope)
    (bound' : tree'.Bound binders' scope') (onTasks : TasksRearranged q r tasks tasks') :
    Together q r (run catalog resolver tree binders tasks)
      (run catalog resolver tree' binders' tasks') fun _ _ _ _ => True := by
  have onLiterals := crossed.collected bodyLiterals_collects (ownLiterals_crossed q r)
  have onItems := crossed.collected items_collects (ownItems_crossed q r)
  have worked : Together q r (work catalog resolver tree tasks) (work catalog resolver tree' tasks')
      ItemsRearranged := by
    refine .bind (learn_together catalog onTasks) fun leQ leR _ => ?_
    exact (solve_together catalog resolver onLiterals onItems).mono leQ leR
  refine .bind worked fun leQ leR onLeft => ?_
  refine .bind (report_together resolver onLeft) fun leQ' leR' _ => ?_
  refine .get_bind fun {q₁ r₁ s s'} leQ'' leR'' joint => ?_
  have both : Except.Matched SameTy (s.typed catalog binders tree)
      (s'.typed catalog binders' tree') :=
    typed_crossed (joint.left.sameOn ((leQ.trans leQ').trans leQ''))
      (joint.right.sameOn ((leR.trans leR').trans leR'')) crossed bound bound'
  generalize s.typed catalog binders tree = typed, s'.typed catalog binders' tree' = typed' at both
  cases both with
  | ok _ => exact .pure fun _ _ => trivial
  | error => exact fun _ _ _ _ _ _ _ => .error

end Inference

end LambdaQuery
