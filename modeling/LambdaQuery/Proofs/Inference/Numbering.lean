import LambdaQuery.Proofs.Inference.Layout
import LambdaQuery.Proofs.Term.Binding

/-!
# Slots without gaps

Every parameter of a query and every node that is no identifier owns a slot. A parameter is met
before the body it is bound in, a node after the nodes below it, and in this order of meeting the
slots of a tree are consecutive, wherever its numbering starts. An identifier owns none: it is
found under its symbol among the parameters that were met, where those of finished lambdas still
stand, and since no symbol is bound twice, what is found is the lambda around it.
-/

namespace LambdaQuery

namespace Term

mutual
/-- The slots of the parameters and of the nodes that are no identifiers, in the order in which
they are met. -/
def ownedSlots : Term Slotted → List Nat
  | lambda n param body => param.note.slot :: (ownedSlots body ++ [n.slot])
  | binary n _ left right => ownedSlots left ++ ownedSlots right ++ [n.slot]
  | call n _ args => ownedSlotsAll args ++ [n.slot]
  | member n receiver _ => ownedSlots receiver ++ [n.slot]
  | ident .. => []
  | literal n _ => [n.slot]

def ownedSlotsAll : List (Term Slotted) → List Nat
  | [] => []
  | t :: rest => ownedSlots t ++ ownedSlotsAll rest
end

mutual
/-- A tree takes the next slots, one for each of its tags. -/
theorem ownedSlots_number : ∀ {t : Term Span} {scope : List Symbol} {n : Numbering},
    t.InScope scope → n.Knows scope →
      (t.number n).1.ownedSlots = List.range' n.next t.tags.length
  | .lambda _ param body, _, n, inScope, knows => by
    have onBody := ownedSlots_number (t := body) inScope (knows.bind param.symbol)
    have after := number_next (t := body) inScope (knows.bind param.symbol)
    have inside : (n.bind param.symbol).next = n.next + 1 := rfl
    simp only [number, ownedSlots, onBody, after, inside, ← List.range'_1_concat, tags,
      List.length_cons, List.length_append, List.length_nil, Nat.zero_add, List.range'_succ]
  | .binary _ _ left right, _, n, inScope, knows => by
    have onLeft := ownedSlots_number inScope.1 knows
    have onRight := ownedSlots_number inScope.2 (knows.number left)
    have between := number_next inScope.1 knows
    have after := number_next inScope.2 (knows.number left)
    simp only [number, ownedSlots, onLeft, onRight, between, after, List.range'_append_1,
      Nat.add_assoc, ← List.range'_1_concat, tags, List.length_append, List.length_cons,
      List.length_nil, Nat.zero_add]
  | .call _ _ args, scope, n, inScope, knows => by
    have inArgs : InScopeAll scope args := inScope
    have onArgs := ownedSlotsAll_numberAll inArgs knows
    have after := numberAll_next inArgs knows
    simp only [number, ownedSlots, onArgs, after, tags, List.length_append, List.length_cons,
      List.length_nil, List.range'_1_concat]
  | .member _ receiver _, _, n, inScope, knows => by
    have onReceiver := ownedSlots_number (t := receiver) inScope knows
    have after := number_next (t := receiver) inScope knows
    simp only [number, ownedSlots, onReceiver, after, tags, List.length_append, List.length_cons,
      List.length_nil, List.range'_1_concat]
  | .ident _ symbol, _, n, inScope, knows => by
    -- an identifier out of scope would take a slot that is not listed
    obtain ⟨slot, looked⟩ := knows.lookup inScope
    simp [number, looked, ownedSlots, tags]
  | .literal .., _, n, _, _ => rfl

theorem ownedSlotsAll_numberAll : ∀ {ts : List (Term Span)} {scope : List Symbol}
    {n : Numbering}, InScopeAll scope ts → n.Knows scope →
      ownedSlotsAll (numberAll ts n).1 = List.range' n.next (tagsAll ts).length
  | [], _, n, _, _ => rfl
  | t :: rest, _, n, inScope, knows => by
    have onFirst := ownedSlots_number inScope.1 knows
    have onRest := ownedSlotsAll_numberAll inScope.2 (knows.number t)
    have between := number_next inScope.1 knows
    simp only [numberAll, ownedSlotsAll, onFirst, onRest, between, tagsAll, List.length_append,
      List.range'_append_1]
end

/-- The slots of a query are all that are given out. -/
theorem WellBound.ownedSlots_eq_range {query : Term Span} (h : query.WellBound) :
    (query.number .start).1.ownedSlots = List.range (query.number .start).2.next := by
  have knows : Numbering.start.Knows [] := .nil _
  rw [ownedSlots_number h.inScope knows, number_next h.inScope knows, List.range_eq_range']
  simp [Numbering.start]

/-! Identifiers. -/

section Bound

variable {binders : List (Symbol × Nat)} {scope : List Symbol}

theorem BoundAll.of_mem {args : List (Term Slotted)} {arg : Term Slotted}
    (h : BoundAll binders scope args) (mem : arg ∈ args) : arg.Bound binders scope := by
  induction args with
  | nil => cases mem
  | cons first rest ih =>
    rcases List.mem_cons.1 mem with rfl | inRest
    · exact h.1
    · exact ih h.2 inRest

/-- Symbols lead to the slots of their parameters at every node, and so do those of the parameters
around it. -/
theorem Bound.at {t node : Term Slotted} {around : List (Binder Slotted)}
    (h : t.Bound binders scope) (place : At around node t) :
    node.Bound binders (around.map Binder.symbol ++ scope) ∧
      ∀ param ∈ around, binders.lookup param.symbol = some param.note.slot := by
  induction place generalizing scope with
  | here => exact ⟨h, by simp⟩
  | body _ ih =>
    obtain ⟨found, onBody⟩ := h
    obtain ⟨onNode, onAround⟩ := ih onBody
    refine ⟨by simpa using onNode, fun param mem => ?_⟩
    rcases List.mem_append.1 mem with inner | outermost
    · exact onAround param inner
    · rw [List.mem_singleton.1 outermost, found]
  | left _ ih => exact ih h.1
  | right _ ih => exact ih h.2
  | argument isArg _ ih => exact ih (BoundAll.of_mem h isArg)
  | receiver _ ih => exact ih h

/-- An identifier has the slot of a parameter around it that is bound to its symbol. -/
theorem Bound.slot_of_ident {t : Term Slotted} {around : List (Binder Slotted)} {n : Slotted}
    {symbol : Symbol} (h : t.Bound binders []) (place : At around (.ident n symbol) t) :
    ∃ param ∈ around, param.symbol.id = symbol.id ∧ n.slot = param.note.slot := by
  obtain ⟨⟨found, bound, isAround, same⟩, onAround⟩ := h.at place
  rw [List.append_nil] at isAround
  obtain ⟨param, mem, rfl⟩ := List.mem_map.1 isAround
  have atParam := onAround param mem
  rw [lookup_eq_of_id same, found] at atParam
  exact ⟨param, mem, same, Option.some.inj atParam⟩

end Bound

/-- Numbering changes nothing but the slots of a query. The parameters and the nodes that are no
identifiers have different slots, which are those below the number that is returned, and each
identifier has the slot of the parameter that its symbol is bound to, which is one around it. -/
theorem WellBound.slots_dense_and_shared {query : Term Span} (h : query.WellBound) :
    let tree := (query.number .start).1
    let count := (query.number .start).2.next
    tree.map Slotted.span = query ∧
      (tree.ownedSlots.Nodup ∧ ∀ slot, slot ∈ tree.ownedSlots ↔ slot < count) ∧
      ∀ {around : List (Binder Slotted)} {n : Slotted} {symbol : Symbol},
        At around (.ident n symbol) tree →
          ∃ param ∈ around, param.symbol.id = symbol.id ∧ n.slot = param.note.slot := by
  intro tree count
  have owned : tree.ownedSlots = List.range count := h.ownedSlots_eq_range
  refine ⟨query.map_number .start, ⟨?_, fun slot => ?_⟩, h.bound_number.slot_of_ident⟩
  · rw [owned]
    exact List.nodup_range
  · rw [owned]
    exact List.mem_range

/-- `x => F(y => x = y, x)` -/
theorem WellBound.slots_dense_and_shared_nested :
    let x : Symbol := ⟨0, "x"⟩
    let y : Symbol := ⟨7, "y"⟩
    let query : Term Span := .lambda ⟨0, 21⟩ ⟨x, ⟨0, 1⟩⟩ (.call ⟨5, 21⟩ "F" [
      .lambda ⟨7, 17⟩ ⟨y, ⟨7, 8⟩⟩ (.binary ⟨12, 17⟩ .eq (.ident ⟨12, 13⟩ x) (.ident ⟨16, 17⟩ y)),
      .ident ⟨19, 20⟩ x])
    let tree : Term Slotted := .lambda ⟨5, 0, 21⟩ ⟨x, 0, 0, 1⟩ (.call ⟨4, 5, 21⟩ "F" [
      .lambda ⟨3, 7, 17⟩ ⟨y, 1, 7, 8⟩
        (.binary ⟨2, 12, 17⟩ .eq (.ident ⟨0, 12, 13⟩ x) (.ident ⟨1, 16, 17⟩ y)),
      .ident ⟨0, 19, 20⟩ x])
    query.WellBound ∧ (query.number .start).1 = tree ∧ tree.map Slotted.span = query ∧
      (tree.ownedSlots.Nodup ∧ ∀ slot, slot ∈ tree.ownedSlots ↔ slot < 6) ∧
      -- the inner lambda uses the parameter of the outer one
      At [⟨y, 1, 7, 8⟩, ⟨x, 0, 0, 1⟩] (.ident ⟨0, 12, 13⟩ x) tree ∧
        ∃ param ∈ ([⟨y, 1, 7, 8⟩, ⟨x, 0, 0, 1⟩] : List (Binder Slotted)),
          param.symbol.id = x.id ∧ 0 = param.note.slot := by
  intro x y query tree
  have wellBound : query.WellBound := by
    refine ⟨by decide, ?_⟩
    simp [query, InScope, InScopeAll]
  have numbered : query.number .start = (tree, ⟨6, [(y, 1), (x, 0)]⟩) := by rfl
  obtain ⟨same, owned, shared⟩ := WellBound.slots_dense_and_shared wellBound
  rw [numbered] at same owned shared
  have place : At [⟨y, 1, 7, 8⟩, ⟨x, 0, 0, 1⟩] (.ident ⟨0, 12, 13⟩ x) tree :=
    .body (.argument (.head _) (.body (.left .here)))
  exact ⟨wellBound, by rw [numbered], same, owned, place, shared place⟩

end Term

end LambdaQuery
