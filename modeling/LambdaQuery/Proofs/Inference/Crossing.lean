import LambdaQuery.Proofs.Inference.Rearranged

/-!
# Trees with an equality whose operands have changed places

The slots of the one tree are paired with those of the other. All pairs belong to the first part,
except for those below the second operand. The work on both trees is the same in another order.
-/

namespace LambdaQuery

namespace Term

/-- The text of a literal other than `null`. -/
def literalText? : Term Slotted → Option String
  | literal _ text => text
  | _ => none

/-- Nodes of the same kind, on paired slots. Calls and members do not have the first slot. -/
inductive NodePaired (q : Pairing) : Term Slotted → Term Slotted → Prop
  | lambda {n n' : Slotted} {param param' : Binder Slotted} {body body' : Term Slotted}
    (onSlot : q n.slot n'.slot) (onParam : q param.note.slot param'.note.slot)
    (onBody : q body.slot body'.slot) (sameText : body.literalText? = body'.literalText?) :
    NodePaired q (.lambda n param body) (.lambda n' param' body')
  | binary {n n' : Slotted} {op : Operator} {left left' right right' : Term Slotted}
    (onSlot : q n.slot n'.slot) (onLeft : q left.slot left'.slot)
    (onRight : q right.slot right'.slot) :
    NodePaired q (.binary n op left right) (.binary n' op left' right')
  | call {n n' : Slotted} {name : String} {args args' : List (Term Slotted)}
    (onSlot : q n.slot n'.slot) (notRoot : n.slot ≠ 0) (notRoot' : n'.slot ≠ 0)
    (onArgs : List.Forall₂ q (args.map slot) (args'.map slot)) :
    NodePaired q (.call n name args) (.call n' name args')
  | member {n n' : Slotted} {receiver receiver' : Term Slotted} {name : String}
    (onSlot : q n.slot n'.slot) (notRoot : n.slot ≠ 0) (notRoot' : n'.slot ≠ 0)
    (onReceiver : q receiver.slot receiver'.slot) :
    NodePaired q (.member n receiver name) (.member n' receiver' name)
  | ident {n n' : Slotted} {symbol symbol' : Symbol} (onSlot : q n.slot n'.slot) :
    NodePaired q (.ident n symbol) (.ident n' symbol')
  | literal {n n' : Slotted} {text : Option String} (onSlot : q n.slot n'.slot) :
    NodePaired q (.literal n text) (.literal n' text)

mutual
/-- Trees of the same shape, on paired slots. -/
inductive Paired (q : Pairing) : Term Slotted → Term Slotted → Prop
  | mk {t t' : Term Slotted} (onNode : NodePaired q t t')
    (onChildren : PairedAll q t.children t'.children) : Paired q t t'

inductive PairedAll (q : Pairing) : List (Term Slotted) → List (Term Slotted) → Prop
  | nil : PairedAll q [] []
  | cons {t t' : Term Slotted} {rest rest' : List (Term Slotted)} (onFirst : Paired q t t')
    (onRest : PairedAll q rest rest') : PairedAll q (t :: rest) (t' :: rest')
end

mutual
/-- Trees of the same shape, except that the operands of an equality have changed places. The slots
of its second operand belong to the second part, unless it is an identifier. -/
inductive Crossed (q r : Pairing) : Term Slotted → Term Slotted → Prop
  | here {n n' : Slotted} {op : Operator} {left left' right right' : Term Slotted}
    (isEquality : op.kind = .equality) (onSlot : q n.slot n'.slot) (onLeft : Paired q left left')
    (onRight : Paired r right right') :
    Crossed q r (.binary n op left right) (.binary n' op right' left')
  | bare {n n' m m' : Slotted} {op : Operator} {left left' : Term Slotted} {symbol symbol' : Symbol}
    (isEquality : op.kind = .equality) (onSlot : q n.slot n'.slot) (onLeft : Paired q left left')
    (onRight : q m.slot m'.slot) :
    Crossed q r (.binary n op left (.ident m symbol)) (.binary n' op (.ident m' symbol') left')
  | inside {t t' : Term Slotted} (onNode : NodePaired q t t')
    (onChildren : CrossedAll q r t.children t'.children) : Crossed q r t t'

inductive CrossedAll (q r : Pairing) : List (Term Slotted) → List (Term Slotted) → Prop
  | head {t t' : Term Slotted} {rest rest' : List (Term Slotted)} (onFirst : Crossed q r t t')
    (onRest : PairedAll q rest rest') : CrossedAll q r (t :: rest) (t' :: rest')
  | tail {t t' : Term Slotted} {rest rest' : List (Term Slotted)} (onFirst : Paired q t t')
    (onRest : CrossedAll q r rest rest') : CrossedAll q r (t :: rest) (t' :: rest')
end

section

variable {q r : Pairing} {t t' : Term Slotted} {ts ts' : List (Term Slotted)}

theorem NodePaired.slot (h : NodePaired q t t') : q t.slot t'.slot := by
  cases h <;> assumption

theorem NodePaired.literalText?_eq (h : NodePaired q t t') :
    t.literalText? = t'.literalText? := by
  cases h <;> rfl

theorem Paired.slot (h : Paired q t t') : q t.slot t'.slot := by
  cases h with
  | mk onNode _ => exact onNode.slot

theorem Paired.literalText?_eq (h : Paired q t t') : t.literalText? = t'.literalText? := by
  cases h with
  | mk onNode _ => exact onNode.literalText?_eq

theorem Crossed.slot (h : Crossed q r t t') : q t.slot t'.slot := by
  cases h with
  | here _ onSlot _ _ => exact onSlot
  | bare _ onSlot _ _ => exact onSlot
  | inside onNode _ => exact onNode.slot

theorem Crossed.literalText?_eq (h : Crossed q r t t') : t.literalText? = t'.literalText? := by
  cases h with
  | here => rfl
  | bare => rfl
  | inside onNode _ => exact onNode.literalText?_eq

theorem PairedAll.slots (h : PairedAll q ts ts') :
    List.Forall₂ q (ts.map Term.slot) (ts'.map Term.slot) := by
  induction ts generalizing ts' with
  | nil =>
    cases h
    exact .nil
  | cons t rest ih => cases h with
    | cons onFirst onRest => exact .cons onFirst.slot (ih onRest)

theorem CrossedAll.slots (h : CrossedAll q r ts ts') :
    List.Forall₂ q (ts.map Term.slot) (ts'.map Term.slot) := by
  induction ts generalizing ts' with
  | nil => cases h
  | cons t rest ih => cases h with
    | head onFirst onRest => exact .cons onFirst.slot onRest.slots
    | tail onFirst onRest => exact .cons onFirst.slot (ih onRest)

end

/-! What is collected from both trees. -/

/-- A list that is collected from the nodes of a tree, those below a node before its own. -/
structure Collects {γ : Type} (all : Term Slotted → List γ) (below : List (Term Slotted) → List γ)
    (own : Term Slotted → List γ) : Prop where
  nil : below [] = []
  cons : ∀ t rest, below (t :: rest) = all t ++ below rest
  node : ∀ t, all t = below t.children ++ own t

/-- What paired nodes have of their own is related, and so is what an equality has when its operands
change places. Identifiers have nothing. -/
structure OwnCrossed {γ : Type} (q r : Pairing) (Q : Pairing → γ → γ → Prop) (E : γ → γ → Prop)
    (own : Term Slotted → List γ) : Prop where
  paired : ∀ {p : Pairing} {t t' : Term Slotted}, NodePaired p t t' →
    List.Forall₂ (Q p) (own t) (own t')
  equality : ∀ {n n' : Slotted} {op : Operator} {left left' right right' : Term Slotted},
    op.kind = .equality → q n.slot n'.slot → q left.slot left'.slot →
    q right.slot right'.slot ∨ r right.slot right'.slot →
    List.Forall₂ E (own (.binary n op left right)) (own (.binary n' op right' left'))
  ident : ∀ (n : Slotted) (symbol : Symbol), own (.ident n symbol) = []

section

variable {γ : Type} {all : Term Slotted → List γ} {below : List (Term Slotted) → List γ}
  {own : Term Slotted → List γ} {q r : Pairing} {Q : Pairing → γ → γ → Prop} {E : γ → γ → Prop}

mutual
theorem Paired.collected (collects : Collects all below own) (onOwn : OwnCrossed q r Q E own)
    {p : Pairing} : ∀ {t t' : Term Slotted}, Paired p t t' → List.Forall₂ (Q p) (all t) (all t')
  | t, t', .mk onNode onChildren => by
    rw [collects.node t, collects.node t']
    exact List.rel_append (onChildren.collected collects onOwn) (onOwn.paired onNode)

theorem PairedAll.collected (collects : Collects all below own) (onOwn : OwnCrossed q r Q E own)
    {p : Pairing} : ∀ {ts ts' : List (Term Slotted)}, PairedAll p ts ts' →
      List.Forall₂ (Q p) (below ts) (below ts')
  | _, _, .nil => by
    rw [collects.nil]
    exact .nil
  | _, _, .cons onFirst onRest => by
    rw [collects.cons, collects.cons]
    exact List.rel_append (onFirst.collected collects onOwn) (onRest.collected collects onOwn)
end

theorem Collects.binary (collects : Collects all below own) (n : Slotted) (op : Operator)
    (left right : Term Slotted) : all (.binary n op left right) =
      [] ++ (all left ++ all right) ++ own (.binary n op left right) ++ [] := by
  simp [collects.node (.binary n op left right), children, collects.cons, collects.nil]

mutual
theorem Crossed.collected (collects : Collects all below own) (onOwn : OwnCrossed q r Q E own) :
    ∀ {t t' : Term Slotted}, Crossed q r t t' → Rearranged (Q q) (Q r) E (all t) (all t')
  | _, _, .here isEquality onSlot onLeft onRight => by
    rw [collects.binary, collects.binary]
    exact .of_parts .nil (onLeft.collected collects onOwn) (onRight.collected collects onOwn)
      (onOwn.equality isEquality onSlot onLeft.slot (.inr onRight.slot)) .nil
  | _, _, .bare isEquality onSlot onLeft onRight => by
    have nothing (n : Slotted) (symbol : Symbol) : all (.ident n symbol) = [] := by
      rw [collects.node, onOwn.ident, children, collects.nil]
      rfl
    rw [collects.binary, collects.binary, nothing, nothing]
    exact .of_parts .nil (onLeft.collected collects onOwn) .nil
      (onOwn.equality isEquality onSlot onLeft.slot (.inl onRight)) .nil
  | t, t', .inside onNode onChildren => by
    rw [collects.node t, collects.node t']
    exact (onChildren.collected collects onOwn).append (onOwn.paired onNode)

theorem CrossedAll.collected (collects : Collects all below own) (onOwn : OwnCrossed q r Q E own) :
    ∀ {ts ts' : List (Term Slotted)}, CrossedAll q r ts ts' →
      Rearranged (Q q) (Q r) E (below ts) (below ts')
  | _, _, .head onFirst onRest => by
    rw [collects.cons, collects.cons]
    exact (onFirst.collected collects onOwn).append (onRest.collected collects onOwn)
  | _, _, .tail onFirst onRest => by
    rw [collects.cons, collects.cons]
    exact .prepend (onFirst.collected collects onOwn) (onRest.collected collects onOwn)
end

end

/-! Items of work. -/

/-- The item of a node itself. -/
def ownItems : Term Slotted → List Item
  | binary n op left right => [.binary n.slot op left.slot right.slot]
  | call n name args => [.call n.slot name (args.map slot)]
  | member n receiver name => [.member n.slot receiver.slot name]
  | lambda .. | ident .. | literal .. => []

theorem items_collects : Collects items itemsAll ownItems where
  nil := rfl
  cons _ _ := rfl
  node t := by cases t <;> simp [items, itemsAll, children, ownItems]

theorem ownItems_crossed (q r : Pairing) :
    OwnCrossed q r Item.Paired (Item.Crossed q r) ownItems where
  paired h := by
    cases h with
    | binary onSlot onLeft onRight => exact .cons (.binary onSlot _ onLeft onRight) .nil
    | call onSlot notRoot notRoot' onArgs =>
      exact .cons (.call onSlot notRoot notRoot' _ onArgs) .nil
    | member onSlot notRoot notRoot' onReceiver =>
      exact .cons (.member onSlot notRoot notRoot' onReceiver _) .nil
    | lambda | ident | literal => exact .nil
  equality isEquality onSlot onLeft onRight := .cons (.mk isEquality onSlot onLeft onRight) .nil
  ident _ _ := rfl

/-! What lambdas say of their types. -/

/-- The task of a lambda itself. -/
def ownTasks : Term Slotted → List Task
  | lambda n param body => [.constrain n.slot (.lambda [param.note.slot] body.slot)]
  | _ => []

theorem lambdaTasks_collects : Collects lambdaTasks lambdaTasksAll ownTasks where
  nil := rfl
  cons _ _ := rfl
  node t := by cases t <;> simp [lambdaTasks, lambdaTasksAll, children, ownTasks]

theorem ownTasks_crossed (q r : Pairing) :
    OwnCrossed q r Task.Paired (fun _ _ => False) ownTasks where
  paired h := by
    cases h with
    | lambda onSlot onParam onBody _ =>
      exact .cons (.constrain onSlot (.lambda (.cons onParam .nil) onBody)) .nil
    | binary | call | member | ident | literal => exact .nil
  equality _ _ _ _ := .nil
  ident _ _ := rfl

/-! Literals that are bodies. -/

/-- The literal that is the body of a lambda. -/
def ownLiterals : Term Slotted → List (Nat × String)
  | lambda _ _ body => body.literalText?.toList.map fun text => (body.slot, text)
  | _ => []

theorem bodyLiterals_collects : Collects bodyLiterals bodyLiteralsAll ownLiterals where
  nil := rfl
  cons _ _ := rfl
  node t := by
    cases t with
    | lambda n param body =>
      simp only [bodyLiterals, children, bodyLiteralsAll, ownLiterals, List.append_nil]
      congr 1
      cases body with
      | literal n text => cases text <;> rfl
      | lambda | binary | call | member | ident => rfl
    | binary | call | member | ident | literal =>
      simp [bodyLiterals, bodyLiteralsAll, children, ownLiterals]

theorem ownLiterals_crossed (q r : Pairing) :
    OwnCrossed q r LiteralPaired (fun _ _ => False) ownLiterals where
  paired h := by
    cases h with
    | @lambda _ _ _ _ body body' _ _ onBody sameText =>
      simp only [ownLiterals, sameText]
      cases body'.literalText? with
      | none => exact .nil
      | some text => exact .cons ⟨onBody, rfl⟩ .nil
    | binary | call | member | ident | literal => exact .nil
  equality _ _ _ _ := .nil
  ident _ _ := rfl

end Term

end LambdaQuery
