import LambdaQuery.Proofs.Inference.Work

/-!
# The order of slots

Slots are numbered from the leaves up and from left to right, each parameter before the body it is
bound in. So the items of a query are tried in the order of their slots, and the slots an item
depends on come before its own.
-/

namespace LambdaQuery

mutual
/-- The new slots of a tree are those from `low` up to `high`. -/
inductive Numbered : (low : Nat) → Term Slotted → (high : Nat) → Prop
  | lambda {low high : Nat} {span : Span} {param : Binder Slotted} {body : Term Slotted} :
    param.note.slot = low → Numbered (low + 1) body high →
      Numbered low (.lambda ⟨high, span⟩ param body) (high + 1)
  | binary {low middle high : Nat} {span : Span} {op : Operator} {left right : Term Slotted} :
    Numbered low left middle → Numbered middle right high →
      Numbered low (.binary ⟨high, span⟩ op left right) (high + 1)
  | call {low high : Nat} {span : Span} {name : String} {args : List (Term Slotted)} :
    NumberedAll low args high → Numbered low (.call ⟨high, span⟩ name args) (high + 1)
  | member {low high : Nat} {span : Span} {receiver : Term Slotted} {name : String} :
    Numbered low receiver high → Numbered low (.member ⟨high, span⟩ receiver name) (high + 1)
  /-- An identifier shares a slot that is there already. -/
  | bound {low slot : Nat} {span : Span} {symbol : Symbol} :
    slot < low → Numbered low (.ident ⟨slot, span⟩ symbol) low
  | unbound {low : Nat} {span : Span} {symbol : Symbol} :
    Numbered low (.ident ⟨low, span⟩ symbol) (low + 1)
  | literal {low : Nat} {span : Span} {text : Option String} :
    Numbered low (.literal ⟨low, span⟩ text) (low + 1)

inductive NumberedAll : (low : Nat) → List (Term Slotted) → (high : Nat) → Prop
  | nil {low : Nat} : NumberedAll low [] low
  | cons {low middle high : Nat} {t : Term Slotted} {rest : List (Term Slotted)} :
    Numbered low t middle → NumberedAll middle rest high → NumberedAll low (t :: rest) high
end

namespace Numbering

/-- The parameters met so far have slots of their own. -/
def Settled (n : Numbering) : Prop :=
  ∀ p ∈ n.binders, p.2 < n.next

theorem settled_start : start.Settled := by
  simp [Settled, start]

theorem Settled.skip {n : Numbering} (h : n.Settled) : n.skip.Settled :=
  fun p mem => Nat.lt_succ_of_lt (h p mem)

theorem Settled.bind {n : Numbering} (h : n.Settled) (symbol : Symbol) :
    (n.bind symbol).Settled := by
  intro p mem
  rcases List.mem_cons.1 mem with rfl | old
  · exact Nat.lt_succ_self _
  · exact Nat.lt_succ_of_lt (h p old)

end Numbering

theorem lookup_mem {α : Type} {symbol : Symbol} {a : α} {binders : List (Symbol × α)}
    (h : binders.lookup symbol = some a) : ∃ p ∈ binders, p.2 = a ∧ p.1.id = symbol.id := by
  induction binders with
  | nil => cases h
  | cons p rest ih =>
    rw [List.lookup_cons] at h
    split at h
    · rename_i equal
      cases h
      have same : symbol.id = p.1.id := by simpa [BEq.beq] using equal
      exact ⟨p, List.mem_cons_self, rfl, same.symm⟩
    · obtain ⟨q, mem, found⟩ := ih h
      exact ⟨q, List.mem_cons_of_mem _ mem, found⟩

namespace Term

mutual
/-- The tree is the same up to its notes. -/
theorem number_numbered : ∀ (t : Term Span) {n : Numbering}, n.Settled →
    Numbered n.next (t.number n).1 (t.number n).2.next ∧ (t.number n).2.Settled
  | lambda span param body, n, settled => by
    obtain ⟨onBody, settled'⟩ := number_numbered body (settled.bind param.symbol)
    exact ⟨.lambda rfl onBody, settled'.skip⟩
  | binary span op left right, n, settled => by
    obtain ⟨onLeft, settled'⟩ := number_numbered left settled
    obtain ⟨onRight, settled''⟩ := number_numbered right settled'
    exact ⟨.binary onLeft onRight, settled''.skip⟩
  | call span name args, n, settled => by
    obtain ⟨onArgs, settled'⟩ := numberAll_numbered args settled
    exact ⟨.call onArgs, settled'.skip⟩
  | member span receiver name, n, settled => by
    obtain ⟨onReceiver, settled'⟩ := number_numbered receiver settled
    exact ⟨.member onReceiver, settled'.skip⟩
  | ident span symbol, n, settled => by
    unfold number
    cases found : n.binders.lookup symbol with
    | some slot =>
      obtain ⟨p, mem, rfl, _⟩ := lookup_mem found
      exact ⟨.bound (settled p mem), settled⟩
    | none => exact ⟨.unbound, settled.skip⟩
  | literal span text, n, settled => ⟨.literal, settled.skip⟩

theorem numberAll_numbered : ∀ (ts : List (Term Span)) {n : Numbering}, n.Settled →
    NumberedAll n.next (numberAll ts n).1 (numberAll ts n).2.next ∧ (numberAll ts n).2.Settled
  | [], n, settled => ⟨.nil, settled⟩
  | t :: rest, n, settled => by
    obtain ⟨onFirst, settled'⟩ := number_numbered t settled
    obtain ⟨onRest, settled''⟩ := numberAll_numbered rest settled'
    exact ⟨.cons onFirst onRest, settled''⟩
end

end Term

/-! Ranges of slots. -/

/-- Increasing numbers from `low` up to `high`. -/
structure Rising (low : Nat) (slots : List Nat) (high : Nat) : Prop where
  sorted : slots.Pairwise (· < ·)
  within : ∀ i ∈ slots, low ≤ i ∧ i < high

namespace Rising

variable {low middle high : Nat} {xs ys : List Nat}

theorem nil : Rising low [] high := ⟨List.Pairwise.nil, by simp⟩

theorem append (first : Rising low xs middle) (second : Rising middle ys high)
    (le : low ≤ middle) (le' : middle ≤ high) : Rising low (xs ++ ys) high where
  sorted := List.pairwise_append.2 ⟨first.sorted, second.sorted, fun x inFirst y inSecond =>
    Nat.lt_of_lt_of_le (first.within x inFirst).2 (second.within y inSecond).1⟩
  within i mem := by
    rcases List.mem_append.1 mem with inFirst | inSecond
    · have := first.within i inFirst
      omega
    · have := second.within i inSecond
      omega

theorem cons {i : Nat} (le : low ≤ i) (h : Rising (i + 1) xs high) (le' : i + 1 ≤ high) :
    Rising low (i :: xs) high := by
  have first : Rising low [i] (i + 1) := ⟨List.pairwise_singleton _ _, by simp [le]⟩
  exact first.append h (by omega) le'

theorem of_append (h : Rising low (xs ++ ys) high) : Rising low xs high ∧ Rising low ys high := by
  obtain ⟨first, second, _⟩ := List.pairwise_append.1 h.sorted
  exact ⟨⟨first, fun i mem => h.within i (List.mem_append_left _ mem)⟩,
    ⟨second, fun i mem => h.within i (List.mem_append_right _ mem)⟩⟩

theorem of_cons {i : Nat} (h : Rising low (i :: xs) high) : low ≤ i ∧ Rising (i + 1) xs high := by
  obtain ⟨first, rest⟩ := List.pairwise_cons.1 h.sorted
  exact ⟨(h.within i List.mem_cons_self).1, rest, fun j mem =>
    ⟨first j mem, (h.within j (List.mem_cons_of_mem _ mem)).2⟩⟩

theorem snoc (h : Rising low xs high) (le : low ≤ high) : Rising low (xs ++ [high]) (high + 1) :=
  h.append ⟨List.pairwise_singleton _ _, by simp⟩ le (Nat.le_succ _)

theorem mono (h : Rising low xs high) {low' : Nat} (le : low' ≤ low) : Rising low' xs high :=
  ⟨h.sorted, fun i mem => ⟨Nat.le_trans le (h.within i mem).1, (h.within i mem).2⟩⟩

theorem nodup (h : Rising low xs high) : xs.Nodup :=
  h.sorted.imp fun lt => Nat.ne_of_lt lt

end Rising

mutual
theorem Numbered.le_slot : ∀ {low high : Nat} {t : Term Slotted}, Numbered low t high →
    low ≤ high ∧ t.slot < high
  | _, _, _, .lambda _ body => ⟨by have := body.le_slot; omega, Nat.lt_succ_self _⟩
  | _, _, _, .binary left right =>
    ⟨by have := left.le_slot; have := right.le_slot; omega, Nat.lt_succ_self _⟩
  | _, _, _, .call args => ⟨by have := args.le; omega, Nat.lt_succ_self _⟩
  | _, _, _, .member receiver => ⟨by have := receiver.le_slot; omega, Nat.lt_succ_self _⟩
  | _, _, _, .bound lt => ⟨Nat.le_refl _, lt⟩
  | _, _, _, .unbound => ⟨Nat.le_succ _, Nat.lt_succ_self _⟩
  | _, _, _, .literal => ⟨Nat.le_succ _, Nat.lt_succ_self _⟩

theorem NumberedAll.le : ∀ {low high : Nat} {ts : List (Term Slotted)}, NumberedAll low ts high →
    low ≤ high
  | _, _, _, .nil => Nat.le_refl _
  | _, _, _, .cons first rest => Nat.le_trans first.le_slot.1 rest.le
end

theorem NumberedAll.slot_lt {low high : Nat} {ts : List (Term Slotted)}
    (h : NumberedAll low ts high) : ∀ t ∈ ts, t.slot < high := by
  induction ts generalizing low with
  | nil => simp
  | cons t rest ih =>
    cases h with
    | cons first others =>
      intro t' mem
      rcases List.mem_cons.1 mem with rfl | inRest
      · exact Nat.lt_of_lt_of_le first.le_slot.2 others.le
      · exact ih others t' inRest

/-! Items of work. -/

open Term

mutual
/-- Items come in the order of their slots. -/
theorem Numbered.items_rising : ∀ {low high : Nat} {t : Term Slotted}, Numbered low t high →
    Rising low (t.items.map Item.slot) high
  | _, _, _, .lambda _ body => by
    have inside := body.items_rising.mono (Nat.le_succ _)
    exact ⟨inside.sorted, fun i mem => by have := inside.within i mem; omega⟩
  | _, _, _, .binary left right => by
    have le := left.le_slot.1
    have le' := right.le_slot.1
    have both := left.items_rising.append right.items_rising le le'
    simpa [items, Item.slot] using both.snoc (by omega)
  | _, _, _, .call args => by
    simpa [items, Item.slot] using args.items_rising.snoc args.le
  | _, _, _, .member receiver => by
    simpa [items, Item.slot] using receiver.items_rising.snoc receiver.le_slot.1
  | _, _, _, .bound _ | _, _, _, .unbound | _, _, _, .literal => .nil

theorem NumberedAll.items_rising : ∀ {low high : Nat} {ts : List (Term Slotted)},
    NumberedAll low ts high → Rising low ((itemsAll ts).map Item.slot) high
  | _, _, _, .nil => .nil
  | _, _, _, .cons first rest => by
    simpa [itemsAll] using first.items_rising.append rest.items_rising first.le_slot.1 rest.le
end

mutual
/-- What an item depends on comes before it. -/
theorem Numbered.operands_lt : ∀ {low high : Nat} {t : Term Slotted}, Numbered low t high →
    ∀ item ∈ t.items, ∀ i ∈ item.operands, i < item.slot
  | _, _, _, .lambda _ body => body.operands_lt
  | _, _, _, .binary left right => by
    have onLeft := left.operands_lt
    have onRight := right.operands_lt
    have leftLt := left.le_slot
    have rightLt := right.le_slot
    intro item mem
    simp only [items, List.mem_append, List.mem_singleton] at mem
    rcases mem with (inLeft | inRight) | rfl
    · exact onLeft item inLeft
    · exact onRight item inRight
    · simp only [Item.operands, Item.slot, List.forall_mem_cons, List.not_mem_nil, false_implies,
        implies_true, and_true]
      omega
  | _, _, _, .call args => by
    have onArgs := args.operands_lt
    intro item mem
    simp only [items, List.mem_append, List.mem_singleton] at mem
    rcases mem with inArgs | rfl
    · exact onArgs item inArgs
    · intro i isArg
      obtain ⟨t, isTerm, rfl⟩ := List.mem_map.1 isArg
      exact args.slot_lt t isTerm
  | _, _, _, .member receiver => by
    have onReceiver := receiver.operands_lt
    intro item mem
    simp only [items, List.mem_append, List.mem_singleton] at mem
    rcases mem with inReceiver | rfl
    · exact onReceiver item inReceiver
    · simpa [Item.operands, Item.slot] using receiver.le_slot.2
  | _, _, _, .bound _ | _, _, _, .unbound | _, _, _, .literal => by simp [items]

theorem NumberedAll.operands_lt : ∀ {low high : Nat} {ts : List (Term Slotted)},
    NumberedAll low ts high → ∀ item ∈ itemsAll ts, ∀ i ∈ item.operands, i < item.slot
  | _, _, _, .nil => by simp [itemsAll]
  | _, _, _, .cons first rest => by
    have onFirst := first.operands_lt
    have onRest := rest.operands_lt
    intro item mem
    rcases List.mem_append.1 mem with inFirst | inRest
    · exact onFirst item inFirst
    · exact onRest item inRest
end

/-- Items speak of slots that there are. -/
theorem Numbered.slots_lt {low high : Nat} {t : Term Slotted} (h : Numbered low t high) :
    ∀ item ∈ t.items, ∀ i ∈ item.slots, i < high := by
  intro item mem i inItem
  have slotLt := (h.items_rising.within item.slot (List.mem_map_of_mem mem)).2
  rcases List.mem_cons.1 inItem with rfl | isOperand
  · exact slotLt
  · exact Nat.lt_trans (h.operands_lt item mem i isOperand) slotLt

/-! Lambdas. -/

/-- The slot of a lambda, with those of its parameter and its body. -/
structure LambdaSlots where
  slot : Nat
  param : Nat
  body : Nat

/-- What a lambda says of its own type. -/
def LambdaSlots.task (l : LambdaSlots) : Task :=
  .constrain l.slot (.lambda [l.param] l.body)

namespace Term

mutual
/-- The lambdas of a query, the inner ones first. -/
def lambdas : Term Slotted → List LambdaSlots
  | lambda n param body => lambdas body ++ [⟨n.slot, param.note.slot, body.slot⟩]
  | binary _ _ left right => lambdas left ++ lambdas right
  | call _ _ args => lambdasAll args
  | member _ receiver _ => lambdas receiver
  | ident .. | literal .. => []

def lambdasAll : List (Term Slotted) → List LambdaSlots
  | [] => []
  | t :: rest => lambdas t ++ lambdasAll rest
end

mutual
theorem lambdaTasks_eq : ∀ (t : Term Slotted), t.lambdaTasks = t.lambdas.map LambdaSlots.task
  | lambda n param body => by simp [lambdaTasks, lambdas, lambdaTasks_eq body, LambdaSlots.task]
  | binary _ _ left right => by
    simp [lambdaTasks, lambdas, lambdaTasks_eq left, lambdaTasks_eq right]
  | call _ _ args => by simp [lambdaTasks, lambdas, lambdaTasksAll_eq args]
  | member _ receiver _ => by simp [lambdaTasks, lambdas, lambdaTasks_eq receiver]
  | ident .. | literal .. => rfl

theorem lambdaTasksAll_eq : ∀ (ts : List (Term Slotted)),
    lambdaTasksAll ts = (lambdasAll ts).map LambdaSlots.task
  | [] => rfl
  | t :: rest => by simp [lambdaTasksAll, lambdasAll, lambdaTasks_eq t, lambdaTasksAll_eq rest]
end

end Term

mutual
/-- Lambdas come in the order of their slots, and their parts before them. -/
theorem Numbered.lambdas_rising : ∀ {low high : Nat} {t : Term Slotted}, Numbered low t high →
    Rising low (t.lambdas.map LambdaSlots.slot) high ∧
      ∀ l ∈ t.lambdas, l.param < l.slot ∧ l.body < l.slot
  | _, _, _, .lambda isParam body => by
    obtain ⟨inside, parts⟩ := body.lambdas_rising
    have ⟨le, bodyLt⟩ := body.le_slot
    constructor
    · simpa [lambdas] using (inside.mono (Nat.le_succ _)).snoc (by omega)
    · intro l mem
      simp only [lambdas, List.mem_append, List.mem_singleton] at mem
      rcases mem with inBody | rfl
      · exact parts l inBody
      · exact ⟨by simp only [isParam]; omega, bodyLt⟩
  | _, _, _, .binary left right => by
    obtain ⟨onLeft, partsLeft⟩ := left.lambdas_rising
    obtain ⟨onRight, partsRight⟩ := right.lambdas_rising
    have both := onLeft.append onRight left.le_slot.1 right.le_slot.1
    constructor
    · refine ⟨by simpa [lambdas] using both.sorted, fun i mem => ?_⟩
      have := both.within i (by simpa [lambdas] using mem)
      omega
    · intro l mem
      rcases List.mem_append.1 mem with inLeft | inRight
      · exact partsLeft l inLeft
      · exact partsRight l inRight
  | _, _, _, .call args => by
    obtain ⟨onArgs, parts⟩ := args.lambdas_rising
    exact ⟨⟨onArgs.sorted, fun i mem => by have := onArgs.within i mem; omega⟩, parts⟩
  | _, _, _, .member receiver => by
    obtain ⟨onReceiver, parts⟩ := receiver.lambdas_rising
    exact ⟨⟨onReceiver.sorted, fun i mem => by have := onReceiver.within i mem; omega⟩, parts⟩
  | _, _, _, .bound _ | _, _, _, .unbound | _, _, _, .literal => ⟨.nil, by simp [lambdas]⟩

theorem NumberedAll.lambdas_rising : ∀ {low high : Nat} {ts : List (Term Slotted)},
    NumberedAll low ts high → Rising low ((lambdasAll ts).map LambdaSlots.slot) high ∧
      ∀ l ∈ lambdasAll ts, l.param < l.slot ∧ l.body < l.slot
  | _, _, _, .nil => ⟨.nil, by simp [lambdasAll]⟩
  | _, _, _, .cons first rest => by
    obtain ⟨onFirst, partsFirst⟩ := first.lambdas_rising
    obtain ⟨onRest, partsRest⟩ := rest.lambdas_rising
    constructor
    · simpa [lambdasAll] using onFirst.append onRest first.le_slot.1 rest.le
    · intro l mem
      rcases List.mem_append.1 mem with inFirst | inRest
      · exact partsFirst l inFirst
      · exact partsRest l inRest
end

end LambdaQuery
