import LambdaQuery.Proofs.Inference.Slots
import LambdaQuery.Proofs.Term.Scoping

/-!
# The slots of parameters

The slots of all parameters of a query are kept in one list. Since no two parameters of a query
have the same symbol, looking up a symbol there finds the lambda that it stands for.
-/

namespace LambdaQuery

namespace Term

variable {α : Type}

mutual
/-- The symbols of the parameters, in the order in which they are bound. -/
def symbols : Term α → List Symbol
  | lambda _ param body => param.symbol :: symbols body
  | binary _ _ left right => symbols left ++ symbols right
  | call _ _ args => symbolsAll args
  | member _ receiver _ => symbols receiver
  | ident .. | literal .. => []

def symbolsAll : List (Term α) → List Symbol
  | [] => []
  | t :: rest => symbols t ++ symbolsAll rest
end

mutual
/-- Identifiers stand in the scope of their parameters. -/
def InScope : List Symbol → Term α → Prop
  | scope, lambda _ param body => InScope (param.symbol :: scope) body
  | scope, binary _ _ left right => InScope scope left ∧ InScope scope right
  | scope, call _ _ args => InScopeAll scope args
  | scope, member _ receiver _ => InScope scope receiver
  | scope, ident _ symbol => ∃ bound ∈ scope, bound.id = symbol.id
  | _, literal .. => True

def InScopeAll : List Symbol → List (Term α) → Prop
  | _, [] => True
  | scope, t :: rest => InScope scope t ∧ InScopeAll scope rest
end

/-- No two parameters have the same symbol, and identifiers stand in the scope of theirs. -/
structure WellBound (t : Term α) : Prop where
  distinct : (t.symbols.map Symbol.id).Nodup
  inScope : t.InScope []

mutual
/-- Looking up a symbol finds the slot of its parameter, wherever it is bound or used, and it is
used in the scope of its parameter only. -/
def Bound (binders : List (Symbol × Nat)) : List Symbol → Term Slotted → Prop
  | scope, lambda _ param body => binders.lookup param.symbol = some param.note.slot ∧
      Bound binders (param.symbol :: scope) body
  | scope, binary _ _ left right => Bound binders scope left ∧ Bound binders scope right
  | scope, call _ _ args => BoundAll binders scope args
  | scope, member _ receiver _ => Bound binders scope receiver
  | scope, ident n symbol => binders.lookup symbol = some n.slot ∧
      ∃ bound ∈ scope, bound.id = symbol.id
  | _, literal .. => True

def BoundAll (binders : List (Symbol × Nat)) : List Symbol → List (Term Slotted) → Prop
  | _, [] => True
  | scope, t :: rest => Bound binders scope t ∧ BoundAll binders scope rest
end

mutual
/-- Numbering adds the parameters of the tree to those met before. -/
theorem number_binders : ∀ (t : Term Span) (n : Numbering),
    ∃ new, (t.number n).2.binders = new ++ n.binders ∧ new.map Prod.fst = t.symbols.reverse
  | lambda _ param body, n => by
    obtain ⟨new, isNew, keys⟩ := number_binders body (n.bind param.symbol)
    refine ⟨new ++ [(param.symbol, n.next)], ?_, ?_⟩
    · show (body.number (n.bind param.symbol)).2.binders = _
      rw [isNew, List.append_assoc]
      rfl
    · simp [symbols, keys]
  | binary _ _ left right, n => by
    obtain ⟨new, isNew, keys⟩ := number_binders left n
    obtain ⟨new', isNew', keys'⟩ := number_binders right (left.number n).2
    refine ⟨new' ++ new, ?_, by simp [symbols, keys, keys']⟩
    show (right.number (left.number n).2).2.binders = _
    rw [isNew', isNew, List.append_assoc]
  | call _ _ args, n => numberAll_binders args n
  | member _ receiver _, n => number_binders receiver n
  | ident _ symbol, n => by
    refine ⟨[], ?_, rfl⟩
    unfold number
    cases n.binders.lookup symbol <;> rfl
  | literal .., _ => ⟨[], rfl, rfl⟩

theorem numberAll_binders : ∀ (ts : List (Term Span)) (n : Numbering),
    ∃ new, (numberAll ts n).2.binders = new ++ n.binders ∧ new.map Prod.fst = (symbolsAll ts).reverse
  | [], _ => ⟨[], rfl, rfl⟩
  | t :: rest, n => by
    obtain ⟨new, isNew, keys⟩ := number_binders t n
    obtain ⟨new', isNew', keys'⟩ := numberAll_binders rest (t.number n).2
    refine ⟨new' ++ new, ?_, by simp [symbolsAll, keys, keys']⟩
    show (numberAll rest (t.number n).2).2.binders = _
    rw [isNew', isNew, List.append_assoc]
end

end Term

open Term

mutual
/-- Symbols are numbered in the order in which they are bound. -/
theorem Scoped.symbols_rising : ∀ {scope : Scope} {low high : Nat} {t : Term Span},
    Scoped scope low t high → Rising low (t.symbols.map Symbol.id) high
  | _, _, _, _, .lambda le _ body => by
    simpa [symbols] using body.symbols_rising.cons le body.le
  | _, _, _, _, .binary left right => by
    simpa [symbols] using left.symbols_rising.append right.symbols_rising left.le right.le
  | _, _, _, _, .call _ args => args.symbols_rising
  | _, _, _, _, .member _ receiver => receiver.symbols_rising
  | _, _, _, _, .ident _ => .nil
  | _, _, _, _, .literal => .nil

theorem ScopedAll.symbols_rising : ∀ {scope : Scope} {low high : Nat} {ts : List (Term Span)},
    ScopedAll scope low ts high → Rising low ((symbolsAll ts).map Symbol.id) high
  | _, _, _, _, .nil => .nil
  | _, _, _, _, .cons first rest => by
    simpa [symbolsAll] using first.symbols_rising.append rest.symbols_rising first.le rest.le
end

mutual
theorem Scoped.inScope : ∀ {scope : Scope} {low high : Nat} {t : Term Span},
    Scoped scope low t high → t.InScope scope
  | _, _, _, _, .lambda _ _ body => body.inScope
  | _, _, _, _, .binary left right => ⟨left.inScope, right.inScope⟩
  | _, _, _, _, .call _ args => args.inScope
  | _, _, _, _, .member _ receiver => receiver.inScope
  | _, _, _, _, .ident found => ⟨_, List.mem_of_find?_eq_some found, rfl⟩
  | _, _, _, _, .literal => trivial

theorem ScopedAll.inScope : ∀ {scope : Scope} {low high : Nat} {ts : List (Term Span)},
    ScopedAll scope low ts high → InScopeAll scope ts
  | _, _, _, _, .nil => trivial
  | _, _, _, _, .cons first rest => ⟨first.inScope, rest.inScope⟩
end

theorem Scoped.wellBound {query : Term Span} {high : Nat} (h : Scoped [] 0 query high) :
    query.WellBound where
  distinct := h.symbols_rising.nodup
  inScope := h.inScope

theorem Symbol.beq_eq_false {a b : Symbol} (h : a.id ≠ b.id) : (a == b) = false := by
  simpa [BEq.beq] using h

/-- In a list of parameters with different symbols each is found. -/
theorem lookup_of_mem {α : Type} {binders : List (Symbol × α)} {p : Symbol × α} {symbol : Symbol}
    (distinct : (binders.map fun p => p.1.id).Nodup) (mem : p ∈ binders)
    (same : p.1.id = symbol.id) : binders.lookup symbol = some p.2 := by
  induction binders with
  | nil => cases mem
  | cons first rest ih =>
    obtain ⟨notThere, distinctRest⟩ := List.nodup_cons.1 distinct
    rw [List.lookup_cons]
    rcases List.mem_cons.1 mem with rfl | inRest
    · have : (symbol == p.1) = true := by simp [BEq.beq, same]
      simp [this]
    · have different : (symbol == first.1) = false :=
        Symbol.beq_eq_false fun equal => notThere (List.mem_map.2 ⟨p, inRest, same.trans equal⟩)
      simp [different, ih distinctRest inRest]

/-! Parameters that have been met. -/

namespace Numbering

/-- The parameters in scope have been met. -/
def Knows (n : Numbering) (scope : List Symbol) : Prop :=
  ∀ symbol ∈ scope, ∃ p ∈ n.binders, p.1.id = symbol.id

variable {n : Numbering} {scope : List Symbol}

theorem Knows.nil (n : Numbering) : n.Knows [] := fun _ none => absurd none List.not_mem_nil

theorem Knows.bind (h : n.Knows scope) (symbol : Symbol) :
    (n.bind symbol).Knows (symbol :: scope) := by
  intro other mem
  rcases List.mem_cons.1 mem with rfl | outer
  · exact ⟨_, List.mem_cons_self, rfl⟩
  · obtain ⟨p, inN, same⟩ := h other outer
    exact ⟨p, List.mem_cons_of_mem _ inN, same⟩

theorem Knows.grow (h : n.Knows scope) {n' : Numbering} {new : List (Symbol × Nat)}
    (isNew : n'.binders = new ++ n.binders) : n'.Knows scope := by
  intro symbol mem
  obtain ⟨p, inN, same⟩ := h symbol mem
  exact ⟨p, by rw [isNew]; exact List.mem_append_right _ inN, same⟩

theorem Knows.number (h : n.Knows scope) (t : Term Span) : (t.number n).2.Knows scope := by
  obtain ⟨new, isNew, _⟩ := t.number_binders n
  exact h.grow isNew

/-- A symbol in scope is found. -/
theorem Knows.lookup (h : n.Knows scope) {symbol : Symbol}
    (inScope : ∃ bound ∈ scope, bound.id = symbol.id) :
    ∃ slot, n.binders.lookup symbol = some slot := by
  obtain ⟨bound, mem, same⟩ := inScope
  obtain ⟨p, inN, same'⟩ := h bound mem
  cases looked : n.binders.lookup symbol with
  | some slot => exact ⟨slot, rfl⟩
  | none =>
    have different : (symbol != p.1) = true := List.lookup_eq_none_iff.1 looked p inN
    have equal : (symbol == p.1) = true := by simp [BEq.beq, same', same]
    simp [bne, equal] at different

end Numbering

namespace Term

variable {binders : List (Symbol × Nat)}

mutual
theorem number_bound (distinct : (binders.map fun p => p.1.id).Nodup) :
    ∀ {t : Term Span} {scope : List Symbol} {n : Numbering}, t.InScope scope → n.Knows scope →
      (∀ p ∈ (t.number n).2.binders, p ∈ binders) → Bound binders scope (t.number n).1
  | .lambda _ param body, _, n, onBody, knows, inAll => by
    have inAll' : ∀ p ∈ (body.number (n.bind param.symbol)).2.binders, p ∈ binders := inAll
    obtain ⟨new, isNew, _⟩ := number_binders body (n.bind param.symbol)
    have here : (param.symbol, n.next) ∈ binders :=
      inAll' _ (by rw [isNew]; exact List.mem_append_right _ List.mem_cons_self)
    exact ⟨lookup_of_mem distinct here rfl, number_bound distinct onBody (knows.bind _) inAll'⟩
  | .binary _ _ left right, _, n, onOperands, knows, inAll => by
    have inAll' : ∀ p ∈ (right.number (left.number n).2).2.binders, p ∈ binders := inAll
    obtain ⟨new', isNew', _⟩ := number_binders right (left.number n).2
    refine ⟨number_bound distinct onOperands.1 knows fun p mem => ?_,
      number_bound distinct onOperands.2 (knows.number left) inAll'⟩
    exact inAll' p (by rw [isNew']; exact List.mem_append_right _ mem)
  | .call _ _ args, scope, n, onArgs, knows, inAll => by
    have inScope : InScopeAll scope args := onArgs
    exact numberAll_bound distinct inScope knows inAll
  | .member _ receiver _, _, n, onReceiver, knows, inAll =>
    number_bound (t := receiver) distinct onReceiver knows inAll
  | .ident _ symbol, _, n, inScope, knows, inAll => by
    obtain ⟨slot, looked⟩ := knows.lookup inScope
    unfold number at inAll ⊢
    simp only [looked] at inAll ⊢
    obtain ⟨q, mem, rfl, isSymbol⟩ := lookup_mem looked
    exact ⟨lookup_of_mem distinct (inAll q mem) isSymbol, inScope⟩
  | .literal .., _, _, _, _, _ => trivial

theorem numberAll_bound (distinct : (binders.map fun p => p.1.id).Nodup) :
    ∀ {ts : List (Term Span)} {scope : List Symbol} {n : Numbering}, InScopeAll scope ts →
      n.Knows scope → (∀ p ∈ (numberAll ts n).2.binders, p ∈ binders) →
      BoundAll binders scope (numberAll ts n).1
  | [], _, _, _, _, _ => trivial
  | t :: rest, _, n, inScope, knows, inAll => by
    have inAll' : ∀ p ∈ (numberAll rest (t.number n).2).2.binders, p ∈ binders := inAll
    obtain ⟨new', isNew', _⟩ := numberAll_binders rest (t.number n).2
    refine ⟨number_bound distinct inScope.1 knows fun p mem => ?_,
      numberAll_bound distinct inScope.2 (knows.number t) inAll'⟩
    exact inAll' p (by rw [isNew']; exact List.mem_append_right _ mem)
end

/-- Each symbol of a query leads to the slot of its parameter. -/
theorem WellBound.bound_number {query : Term Span} (h : query.WellBound) :
    (query.number .start).1.Bound (query.number .start).2.binders [] := by
  obtain ⟨new, isNew, keys⟩ := query.number_binders .start
  have distinct : ((query.number .start).2.binders.map fun p => p.1.id).Nodup := by
    have ids : ((query.number .start).2.binders.map fun p => p.1.id) =
        (query.symbols.map Symbol.id).reverse := by
      rw [isNew, ← List.map_reverse, ← keys]
      simp [Numbering.start]
    rw [ids]
    exact List.pairwise_reverse.2 (h.distinct.imp Ne.symm)
  exact number_bound distinct h.inScope (.nil _) fun _ mem => mem

end Term

end LambdaQuery
