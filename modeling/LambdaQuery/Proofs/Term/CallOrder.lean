import LambdaQuery.Proofs.Term.Parsing
import LambdaQuery.Proofs.Term.Scoping

/-!
# The order of calls

The calls of a query that was read from a text start one behind another, each before those in its
arguments. Parentheses around a call only let it start earlier, at a token that nothing else starts
with.
-/

namespace LambdaQuery

namespace Term

variable {α : Type}

mutual
/-- The notes of the calls, each before those in its arguments, from left to right. -/
def calls : Term α → List α
  | lambda _ _ body => calls body
  | binary _ _ left right => calls left ++ calls right
  | call n _ args => n :: callsAll args
  | member _ receiver _ => calls receiver
  | ident .. | literal .. => []

def callsAll : List (Term α) → List α
  | [] => []
  | t :: rest => calls t ++ callsAll rest
end

namespace Grammar

/-- Where tokens start. -/
def starts (ts : List Token) : List Nat :=
  ts.map fun t => t.span.start

@[simp] theorem starts_nil : starts [] = [] := rfl

@[simp] theorem starts_cons (t : Token) (ts : List Token) :
    starts (t :: ts) = t.span.start :: starts ts := rfl

@[simp] theorem starts_append (ts ts' : List Token) :
    starts (ts ++ ts') = starts ts ++ starts ts' :=
  List.map_append

/-- Where the calls of a tree start. -/
def callStarts (t : Term Span) : List Nat :=
  t.calls.map Span.start

/-- Operators do not change the order of the calls in their operands. -/
theorem calls_fold (first : Term Span) (chain : Chain) :
    (fold first chain).calls = first.calls ++ chain.flatMap fun link => link.2.calls := by
  fun_induction fold first chain with
  | case1 first chain isNone => simp [eq_nil_of_weakest? isNone]
  | case2 first chain before op operand behind isSplit left right onLeft onRight =>
    obtain ⟨rfl, _, _⟩ := of_weakest? isSplit
    simp [calls, left, right, onLeft, onRight]

/-- A call that gets another place starts there; the rest stays where it is. -/
theorem callStarts_withNote (t : Term Span) (span : Span) :
    (callStarts (t.withNote span)).Sublist (span.start :: callStarts t) := by
  cases t with
  | call n name args => exact .cons_cons _ (.cons _ (.refl _))
  | _ => exact .cons _ (.refl _)

mutual
/-- Each call starts with a token of its own. -/
theorem Query.callStarts_sublist : ∀ {scope : Scope} {ts : List Token} {t : Term Span},
    Query scope ts t → (callStarts t).Sublist (starts ts)
  | _, _, _, .lambda _ _ _ body => .cons _ (.cons _ body.callStarts_sublist)
  | _, _, _, .expression first chain => by
    rw [callStarts, calls_fold, List.map_append, starts_append]
    exact first.callStarts_sublist.append chain.callStarts_sublist

theorem Operations.callStarts_sublist : ∀ {scope : Scope} {ts : List Token} {chain : Chain},
    Operations scope ts chain →
      ((chain.flatMap fun link => link.2.calls).map Span.start).Sublist (starts ts)
  | _, _, _, .nil => .slnil
  | _, _, _, .cons _ operand rest => by
    rw [List.flatMap_cons, List.map_append, starts_cons, starts_append]
    exact .cons _ (operand.callStarts_sublist.append rest.callStarts_sublist)

theorem Operand.callStarts_sublist : ∀ {scope : Scope} {ts : List Token} {t : Term Span},
    Operand scope ts t → (callStarts t).Sublist (starts ts)
  | _, _, _, .paren _ inner _ => by
    rw [starts_cons, starts_append]
    refine (callStarts_withNote _ _).trans (.cons_cons _ ?_)
    exact inner.callStarts_sublist.trans (List.sublist_append_left _ _)
  | _, _, _, .call _ _ _ args _ => by
    rw [starts_cons, starts_cons, starts_append]
    refine .cons_cons _ (.cons _ ?_)
    exact args.callStarts_sublist.trans (List.sublist_append_left _ _)
  | _, _, _, .parameter _ _ _ => List.nil_sublist _
  | _, _, _, .literal _ => List.nil_sublist _
  | _, _, _, .negative _ _ => List.nil_sublist _
  | _, _, _, .truth _ _ => List.nil_sublist _
  | _, _, _, .null _ _ => List.nil_sublist _
  | _, _, _, .member receiver _ _ => by
    rw [starts_append]
    exact receiver.callStarts_sublist.trans (List.sublist_append_left _ _)

theorem Arguments.callStarts_sublist : ∀ {scope : Scope} {ts : List Token}
    {args : List (Term Span)}, Arguments scope ts args →
      ((callsAll args).map Span.start).Sublist (starts ts)
  | _, _, _, .none => .slnil
  | _, _, _, .last arg => by
    rw [callsAll, callsAll, List.append_nil]
    exact arg.callStarts_sublist
  | _, _, _, .more arg _ rest => by
    rw [callsAll, List.map_append, starts_append, starts_cons]
    exact arg.callStarts_sublist.append (.cons _ rest.callStarts_sublist)
end

end Grammar

end Term

/-- Tokens start one behind another. -/
theorem Tokens.InOrder.starts_words {low : Nat} {ts : Tokens} (h : ts.InOrder low) :
    (Term.Grammar.starts ts.words).Pairwise (· < ·) ∧
      ∀ i ∈ Term.Grammar.starts ts.words, low ≤ i := by
  induction ts generalizing low with
  | token first rest ih =>
    obtain ⟨le, _, order⟩ := h
    obtain ⟨sorted, above⟩ := ih order
    refine ⟨List.pairwise_cons.2 ⟨above, sorted⟩, List.forall_mem_cons.2 ⟨le, fun i mem => ?_⟩⟩
    exact Nat.le_of_lt (Nat.lt_of_le_of_lt le (above i mem))
  | done _ => exact ⟨.nil, by simp [words]⟩
  | fault _ => exact ⟨.nil, by simp [words]⟩

/-- The calls of a query that was read start one behind another. -/
theorem Term.calls_rising_of_ofText {limit : Nat} {text : String} {t : Term Span}
    (h : Term.ofText limit text = .ok t) : (t.calls.map Span.start).Pairwise (· < ·) := by
  have order := (Tokens.inOrder_scan 0 text.toList).significant
  exact order.starts_words.1.sublist (Term.query_of_ofText h).callStarts_sublist

end LambdaQuery
