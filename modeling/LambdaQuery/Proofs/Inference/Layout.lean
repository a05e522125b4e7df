import LambdaQuery.Proofs.Inference.Crossing

/-!
# Which slot belongs to what

Numbering gives the nodes and parameters of a tree slots one after the other, in an order that does
not depend on where it starts. So a tree that is numbered twice has slots that are shifted, up to
identifiers of parameters that are bound further out.
-/

namespace LambdaQuery

namespace Term

variable {α : Type}

mutual
/-- What the slots of a tree belong to, in their order. Identifiers have none of their own. -/
def tags : Term α → List NodeTag
  | lambda _ _ body => .parameter :: (tags body ++ [.lambda])
  | binary _ _ left right => tags left ++ tags right ++ [.binary]
  | call _ _ args => tagsAll args ++ [.call]
  | member _ receiver _ => tags receiver ++ [.member]
  | ident .. => []
  | literal .. => [.literal]

def tagsAll : List (Term α) → List NodeTag
  | [] => []
  | t :: rest => tags t ++ tagsAll rest
end

mutual
/-- A tree takes as many slots as it has tags. -/
theorem number_next : ∀ {t : Term Span} {scope : List Symbol} {n : Numbering}, t.InScope scope →
    n.Knows scope → (t.number n).2.next = n.next + t.tags.length
  | .lambda _ param body, _, n, inScope, knows => by
    have onBody := number_next (t := body) inScope (knows.bind param.symbol)
    have inside : (n.bind param.symbol).next = n.next + 1 := rfl
    simp only [number, Numbering.skip, onBody, inside, tags, List.length_cons, List.length_append,
      List.length_nil]
    omega
  | .binary _ _ left right, _, n, inScope, knows => by
    have onLeft := number_next inScope.1 knows
    have onRight := number_next inScope.2 (knows.number left)
    simp only [number, Numbering.skip, onRight, onLeft, tags, List.length_append, List.length_cons,
      List.length_nil]
    omega
  | .call _ _ args, scope, n, inScope, knows => by
    have inArgs : InScopeAll scope args := inScope
    have onArgs := numberAll_next inArgs knows
    simp only [number, Numbering.skip, onArgs, tags, List.length_append, List.length_cons,
      List.length_nil]
    omega
  | .member _ receiver _, _, n, inScope, knows => by
    have onReceiver := number_next (t := receiver) inScope knows
    simp only [number, Numbering.skip, onReceiver, tags, List.length_append, List.length_cons,
      List.length_nil]
    omega
  | .ident _ symbol, _, n, inScope, knows => by
    obtain ⟨slot, looked⟩ := knows.lookup inScope
    simp [number, looked, tags]
  | .literal .., _, n, _, _ => by simp [number, Numbering.skip, tags]

theorem numberAll_next : ∀ {ts : List (Term Span)} {scope : List Symbol} {n : Numbering},
    InScopeAll scope ts → n.Knows scope →
      (numberAll ts n).2.next = n.next + (tagsAll ts).length
  | [], _, n, _, _ => by simp [numberAll, tagsAll]
  | t :: rest, _, n, inScope, knows => by
    have onFirst := number_next inScope.1 knows
    have onRest := numberAll_next inScope.2 (knows.number t)
    simp only [numberAll, onRest, onFirst, tagsAll, List.length_append]
    omega
end

/-! Trees that are numbered twice. -/

theorem lookup_eq_of_id {binders : List (Symbol × Nat)} {symbol other : Symbol}
    (same : symbol.id = other.id) : binders.lookup symbol = binders.lookup other := by
  induction binders with
  | nil => rfl
  | cons p rest ih =>
    have beq : (symbol == p.1) = (other == p.1) := by simp [BEq.beq, same]
    rw [List.lookup_cons, List.lookup_cons, beq, ih]

/-- Slots one after the other are paired one by one. -/
def Shifted (q : Pairing) (a a' count : Nat) : Prop :=
  ∀ i, i < count → q (a + i) (a' + i)

theorem Shifted.split {q : Pairing} {a a' count more : Nat} (h : Shifted q a a' (count + more)) :
    Shifted q a a' count ∧ Shifted q (a + count) (a' + count) more := by
  refine ⟨fun i lt => h i (by omega), fun i lt => ?_⟩
  rw [Nat.add_assoc, Nat.add_assoc]
  exact h (count + i) (by omega)

theorem Shifted.one {q : Pairing} {a a' : Nat} (h : Shifted q a a' 1) : q a a' :=
  h 0 Nat.one_pos

/-- Two places where a tree can be numbered: the parameters in scope have been met, and their slots
are paired. -/
structure Beside (q : Pairing) (binders binders' : List (Symbol × Nat)) (scope : List Symbol)
    (n n' : Numbering) : Prop where
  knows : n.Knows scope
  knows' : n'.Knows scope
  aligned : ∀ bound ∈ scope, ∃ a a', binders.lookup bound = some a ∧
    binders'.lookup bound = some a' ∧ q a a'
  positive : 0 < n.next
  positive' : 0 < n'.next

section

variable {q : Pairing} {binders binders' : List (Symbol × Nat)} {scope : List Symbol}
  {n n' : Numbering}

theorem Beside.bind (h : Beside q binders binders' scope n n') {symbol : Symbol}
    (looked : binders.lookup symbol = some n.next) (looked' : binders'.lookup symbol = some n'.next)
    (paired : q n.next n'.next) :
    Beside q binders binders' (symbol :: scope) (n.bind symbol) (n'.bind symbol) where
  knows := h.knows.bind symbol
  knows' := h.knows'.bind symbol
  aligned := List.forall_mem_cons.2 ⟨⟨_, _, looked, looked', paired⟩, h.aligned⟩
  positive := Nat.succ_pos _
  positive' := Nat.succ_pos _

theorem Beside.number (h : Beside q binders binders' scope n n') {t : Term Span}
    (inScope : t.InScope scope) :
    Beside q binders binders' scope (t.number n).2 (t.number n').2 where
  knows := h.knows.number t
  knows' := h.knows'.number t
  aligned := h.aligned
  positive := by
    rw [number_next inScope h.knows]
    exact Nat.add_pos_left h.positive _
  positive' := by
    rw [number_next inScope h.knows']
    exact Nat.add_pos_left h.positive' _

/-- An identifier that stands for the same parameter on both sides. -/
theorem Beside.ident (h : Beside q binders binders' scope n n') {symbol : Symbol} {a a' : Nat}
    (inScope : ∃ bound ∈ scope, bound.id = symbol.id) (looked : binders.lookup symbol = some a)
    (looked' : binders'.lookup symbol = some a') : q a a' := by
  obtain ⟨bound, mem, same⟩ := inScope
  obtain ⟨b, b', found, found', paired⟩ := h.aligned bound mem
  rw [lookup_eq_of_id same] at found found'
  cases looked.symm.trans found
  cases looked'.symm.trans found'
  exact paired

end

section

variable {q : Pairing} {binders binders' : List (Symbol × Nat)}

mutual
/-- A tree that is numbered twice is paired with itself. -/
theorem number_paired : ∀ (t : Term Span) {scope scope₁ scope₂ : List Symbol} {n n' : Numbering},
    t.InScope scope → Beside q binders binders' scope n n' →
    (t.number n).1.Bound binders scope₁ → (t.number n').1.Bound binders' scope₂ →
    Shifted q n.next n'.next t.tags.length → Paired q (t.number n).1 (t.number n').1
  | .lambda _ param body, scope, _, _, n, n', inScope, beside, bound, bound', shifted => by
    simp only [tags, List.length_cons, List.length_append, List.length_nil] at shifted
    rw [Nat.add_comm] at shifted
    obtain ⟨onParam, shifted⟩ := shifted.split
    obtain ⟨onBody, onSlot⟩ := shifted.split
    have inBody : body.InScope (param.symbol :: scope) := inScope
    have inside : Beside q binders binders' (param.symbol :: scope) (n.bind param.symbol)
        (n'.bind param.symbol) := beside.bind bound.1 bound'.1 onParam.one
    have pairedBody := number_paired body inBody inside bound.2 bound'.2 onBody
    refine .mk (.lambda ?_ onParam.one pairedBody.slot pairedBody.literalText?_eq)
      (.cons pairedBody .nil)
    show q (body.number (n.bind param.symbol)).2.next (body.number (n'.bind param.symbol)).2.next
    rw [number_next inBody inside.knows, number_next inBody inside.knows']
    exact onSlot.one
  | .binary _ _ left right, scope, _, _, n, n', inScope, beside, bound, bound', shifted => by
    simp only [tags, List.length_cons, List.length_append, List.length_nil] at shifted
    obtain ⟨onOperands, onSlot⟩ := shifted.split
    obtain ⟨onLeft, onRight⟩ := onOperands.split
    have between := beside.number inScope.1
    have next := number_next inScope.1 beside.knows
    have next' := number_next inScope.1 beside.knows'
    have pairedLeft := number_paired left inScope.1 beside bound.1 bound'.1 onLeft
    have pairedRight := number_paired right inScope.2 between bound.2 bound'.2
      (by rw [next, next']; exact onRight)
    refine .mk (.binary ?_ pairedLeft.slot pairedRight.slot)
      (.cons pairedLeft (.cons pairedRight .nil))
    show q (right.number (left.number n).2).2.next (right.number (left.number n').2).2.next
    rw [number_next inScope.2 between.knows, number_next inScope.2 between.knows', next, next',
      Nat.add_assoc, Nat.add_assoc]
    exact onSlot.one
  | .call _ _ args, scope, _, _, n, n', inScope, beside, bound, bound', shifted => by
    simp only [tags, List.length_cons, List.length_append, List.length_nil] at shifted
    obtain ⟨onArgs, onSlot⟩ := shifted.split
    have inArgs : InScopeAll scope args := inScope
    have pairedArgs := numberAll_paired args inArgs beside bound bound' onArgs
    have next := numberAll_next inArgs beside.knows
    have next' := numberAll_next inArgs beside.knows'
    refine .mk (.call ?_ ?_ ?_ pairedArgs.slots) pairedArgs
    · show q (numberAll args n).2.next (numberAll args n').2.next
      rw [next, next']
      exact onSlot.one
    · have := beside.positive
      show (numberAll args n).2.next ≠ 0
      omega
    · have := beside.positive'
      show (numberAll args n').2.next ≠ 0
      omega
  | .member _ receiver _, scope, _, _, n, n', inScope, beside, bound, bound', shifted => by
    simp only [tags, List.length_cons, List.length_append, List.length_nil] at shifted
    obtain ⟨onReceiver, onSlot⟩ := shifted.split
    have inReceiver : receiver.InScope scope := inScope
    have pairedReceiver := number_paired receiver inReceiver beside bound bound' onReceiver
    have next := number_next inReceiver beside.knows
    have next' := number_next inReceiver beside.knows'
    refine .mk (.member ?_ ?_ ?_ pairedReceiver.slot) (.cons pairedReceiver .nil)
    · show q (receiver.number n).2.next (receiver.number n').2.next
      rw [next, next']
      exact onSlot.one
    · have := beside.positive
      show (receiver.number n).2.next ≠ 0
      omega
    · have := beside.positive'
      show (receiver.number n').2.next ≠ 0
      omega
  | .ident _ symbol, scope, _, _, n, n', inScope, beside, bound, bound', _ => by
    obtain ⟨slot, looked⟩ := beside.knows.lookup inScope
    obtain ⟨slot', looked'⟩ := beside.knows'.lookup inScope
    simp only [number, looked, looked'] at bound bound' ⊢
    exact .mk (.ident (beside.ident inScope bound.1 bound'.1)) .nil
  | .literal _ text, scope, _, _, n, n', _, _, _, _, shifted => .mk (.literal shifted.one) .nil

theorem numberAll_paired : ∀ (ts : List (Term Span)) {scope scope₁ scope₂ : List Symbol}
    {n n' : Numbering}, InScopeAll scope ts → Beside q binders binders' scope n n' →
    BoundAll binders scope₁ (numberAll ts n).1 → BoundAll binders' scope₂ (numberAll ts n').1 →
    Shifted q n.next n'.next (tagsAll ts).length →
      PairedAll q (numberAll ts n).1 (numberAll ts n').1
  | [], _, _, _, _, _, _, _, _, _, _ => .nil
  | t :: rest, scope, _, _, n, n', inScope, beside, bound, bound', shifted => by
    simp only [tagsAll, List.length_append] at shifted
    obtain ⟨onFirst, onRest⟩ := shifted.split
    have next := number_next inScope.1 beside.knows
    have next' := number_next inScope.1 beside.knows'
    exact .cons (number_paired t inScope.1 beside bound.1 bound'.1 onFirst)
      (numberAll_paired rest inScope.2 (beside.number inScope.1) bound.2 bound'.2
        (by rw [next, next']; exact onRest))
end

end

end Term

namespace Solver

open Term

/-! Cells that belong to nodes of certain kinds. -/

/-- The cells from `low` on belong to nodes with these tags. -/
def Tagged (cells : Array Cell) (low : Nat) (tags : List NodeTag) : Prop :=
  ∀ i, i < tags.length → cells[low + i]?.map (·.origin.tag) = tags[i]?

section

variable {cells cells' : Array Cell} {low : Nat} {tags more : List NodeTag}

theorem Tagged.append (first : Tagged cells low tags)
    (second : Tagged cells (low + tags.length) more) : Tagged cells low (tags ++ more) := by
  intro i lt
  rw [List.length_append] at lt
  by_cases inFirst : i < tags.length
  · rw [List.getElem?_append_left inFirst]
    exact first i inFirst
  · have inSecond := second (i - tags.length) (by omega)
    rw [List.getElem?_append_right (by omega), ← inSecond]
    congr 2
    omega

theorem Tagged.congr (h : Tagged cells low tags)
    (same : ∀ i, low ≤ i → i < low + tags.length → cells'[i]? = cells[i]?) :
    Tagged cells' low tags := by
  intro i lt
  rw [same (low + i) (by omega) (by omega)]
  exact h i lt

theorem tagged_own (there : low < cells.size) (tag : NodeTag) (span : Span) :
    Tagged (own cells low tag span) low [tag] := by
  intro i lt
  obtain rfl : i = 0 := by simpa using lt
  obtain ⟨cell, found, owner⟩ := getElem?_own_self there tag span
  simp [found, owner]

/-- The slot of a node comes after those below it. -/
theorem Tagged.own (h : Tagged cells low tags) {slot : Nat} (isSlot : slot = low + tags.length)
    (there : slot < cells.size) (tag : NodeTag) (span : Span) :
    Tagged (Solver.own cells slot tag span) low (tags ++ [tag]) := by
  subst isSlot
  exact (h.congr fun _ _ _ => getElem?_own_of_ne (by omega)).append (tagged_own there tag span)

end

mutual
/-- The slots of a tree belong to its nodes. -/
theorem tagged_ownSlots : ∀ {t : Term Span} {scope : List Symbol} {n : Numbering},
    t.InScope scope → n.Knows scope → n.Settled → ∀ (cells : Array Cell),
    n.next + t.tags.length ≤ cells.size → Tagged (ownSlots cells (t.number n).1) n.next t.tags
  | .lambda span param body, scope, n, inScope, knows, settled, cells, size => by
    simp only [tags, List.length_cons, List.length_append, List.length_nil] at size
    have inBody : body.InScope (param.symbol :: scope) := inScope
    have inside : (n.bind param.symbol).next = n.next + 1 := rfl
    have next := number_next inBody (knows.bind param.symbol)
    have numbered := (body.number_numbered (settled.bind param.symbol)).1
    have first := tagged_own (show n.next < cells.size by omega) .parameter param.note
    have onBody := tagged_ownSlots inBody (knows.bind param.symbol) (settled.bind param.symbol)
      (own cells n.next .parameter param.note) (by simp only [own, Array.size_modify]; omega)
    have upToBody := (first.congr fun i _ lt => getElem?_ownSlots numbered _ (.inl (by
      simp only [List.length_cons, List.length_nil] at lt
      omega))).append onBody
    refine upToBody.own ?_ ?_ .lambda span
    · simp only [List.length_append, List.length_cons, List.length_nil]
      omega
    · simp only [size_ownSlots, own, Array.size_modify]
      omega
  | .binary span _ left right, scope, n, inScope, knows, settled, cells, size => by
    simp only [tags, List.length_cons, List.length_append, List.length_nil] at size
    have next := number_next inScope.1 knows
    have next' := number_next inScope.2 (knows.number left)
    have settled' := (left.number_numbered settled).2
    have numbered := (right.number_numbered settled').1
    have onLeft := tagged_ownSlots inScope.1 knows settled cells (by omega)
    have onRight := tagged_ownSlots inScope.2 (knows.number left) settled'
      (ownSlots cells (left.number n).1) (by rw [size_ownSlots]; omega)
    rw [next] at onRight
    have onOperands := (onLeft.congr fun i _ lt =>
      getElem?_ownSlots numbered _ (.inl (by omega))).append onRight
    refine onOperands.own ?_ ?_ .binary span
    · simp only [List.length_append]
      omega
    · simp only [size_ownSlots]
      omega
  | .call span _ args, scope, n, inScope, knows, settled, cells, size => by
    simp only [tags, List.length_cons, List.length_append, List.length_nil] at size
    have inArgs : InScopeAll scope args := inScope
    have next := numberAll_next inArgs knows
    have onArgs := tagged_ownSlotsAll inArgs knows settled cells (by omega)
    refine onArgs.own next ?_ .call span
    rw [size_ownSlotsAll]
    omega
  | .member span receiver _, scope, n, inScope, knows, settled, cells, size => by
    simp only [tags, List.length_cons, List.length_append, List.length_nil] at size
    have inReceiver : receiver.InScope scope := inScope
    have next := number_next inReceiver knows
    have onReceiver := tagged_ownSlots inReceiver knows settled cells (by omega)
    refine onReceiver.own next ?_ .member span
    rw [size_ownSlots]
    omega
  | .ident .., _, _, _, _, _, _, _ => fun i lt => absurd lt (Nat.not_lt_zero i)
  | .literal span _, _, _, _, _, _, _, size => tagged_own size .literal span

theorem tagged_ownSlotsAll : ∀ {ts : List (Term Span)} {scope : List Symbol} {n : Numbering},
    InScopeAll scope ts → n.Knows scope → n.Settled → ∀ (cells : Array Cell),
    n.next + (tagsAll ts).length ≤ cells.size →
      Tagged (ownSlotsAll cells (numberAll ts n).1) n.next (tagsAll ts)
  | [], _, _, _, _, _, _, _ => fun i lt => absurd lt (Nat.not_lt_zero i)
  | t :: rest, scope, n, inScope, knows, settled, cells, size => by
    simp only [tagsAll, List.length_append] at size
    have next := number_next inScope.1 knows
    have settled' := (t.number_numbered settled).2
    have numbered := (numberAll_numbered rest settled').1
    have onFirst := tagged_ownSlots inScope.1 knows settled cells (by omega)
    have onRest := tagged_ownSlotsAll inScope.2 (knows.number t) settled'
      (ownSlots cells (t.number n).1) (by rw [size_ownSlots]; omega)
    rw [next] at onRest
    exact (onFirst.congr fun i _ lt =>
      getElem?_ownSlotsAll numbered _ (.inl (by omega))).append onRest
end

/-- The solver that the work on a query starts from. -/
abbrev startOf (query : Term Span) : Solver :=
  start (query.number .start).1 (query.number .start).2.next

theorem size_startOf {query : Term Span} (wellBound : query.WellBound) :
    (startOf query).cells.size = query.tags.length := by
  rw [(blank_start _ _).2, number_next wellBound.inScope (.nil .start)]
  exact Nat.zero_add _

/-- At the start the slots of a query belong to its nodes. -/
theorem tag_startOf {query : Term Span} (wellBound : query.WellBound) {i : Nat}
    (lt : i < query.tags.length) : some ((startOf query).origin i).tag = query.tags[i]? := by
  have next := number_next wellBound.inScope (.nil .start)
  have tagged := tagged_ownSlots wellBound.inScope (.nil .start) Numbering.settled_start
    ((Array.range (query.number .start).2.next).map fun i =>
      ⟨i, 0, .unknown [], ⟨.lambda, (query.number .start).1.note.span⟩, none⟩)
    (by simp only [Array.size_map, Array.size_range]; omega) i lt
  rw [← tagged, show Numbering.start.next + i = i from Nat.zero_add i]
  have there : i < (startOf query).cells.size := by
    rw [size_startOf wellBound]
    exact lt
  rw [origin, Array.getElem?_eq_getElem there]
  show _ = Option.map _ (startOf query).cells[i]?
  rw [Array.getElem?_eq_getElem there]
  rfl

/-! No class has a rank at the start. -/

theorem rank_own (cells : Array Cell) (slot : Nat) (tag : NodeTag) (span : Span) (i : Nat) :
    (own cells slot tag span)[i]?.map (·.rank) = cells[i]?.map (·.rank) := by
  rw [own, Array.getElem?_modify]
  split
  · cases cells[i]? <;> rfl
  · rfl

mutual
theorem rank_ownSlots : ∀ (t : Term Slotted) (cells : Array Cell) (i : Nat),
    (ownSlots cells t)[i]?.map (·.rank) = cells[i]?.map (·.rank)
  | .lambda _ _ body, cells, i => by simp only [ownSlots, rank_own, rank_ownSlots body]
  | .binary _ _ left right, cells, i => by
    simp only [ownSlots, rank_own, rank_ownSlots left, rank_ownSlots right]
  | .call _ _ args, cells, i => by simp only [ownSlots, rank_own, rank_ownSlotsAll args]
  | .member _ receiver _, cells, i => by simp only [ownSlots, rank_own, rank_ownSlots receiver]
  | .ident .., cells, i => rfl
  | .literal .., cells, i => by simp only [ownSlots, rank_own]

theorem rank_ownSlotsAll : ∀ (ts : List (Term Slotted)) (cells : Array Cell) (i : Nat),
    (ownSlotsAll cells ts)[i]?.map (·.rank) = cells[i]?.map (·.rank)
  | [], _, _ => rfl
  | t :: rest, cells, i => by simp only [ownSlotsAll, rank_ownSlots t, rank_ownSlotsAll rest]
end

theorem rank_start (t : Term Slotted) (slots i : Nat) : (start t slots).rank i = 0 := by
  have same := rank_ownSlots t ((Array.range slots).map fun i =>
    ⟨i, 0, .unknown [], ⟨.lambda, t.note.span⟩, none⟩) i
  rw [rank]
  split
  · rename_i cell found
    have found' : (ownSlots ((Array.range slots).map fun i =>
      ⟨i, 0, .unknown [], ⟨.lambda, t.note.span⟩, none⟩) t)[i]? = some cell := found
    rw [found', Array.getElem?_map, Option.map_map] at same
    cases there : (Array.range slots)[i]? with
    | none => simp [there] at same
    | some j => simpa [there] using same
  · rfl

end Solver

end LambdaQuery
