import LambdaQuery.Proofs.Token.Lexing
import LambdaQuery.Term.Parser

/-!
# Names and parameters

A tree that was read from a text has proper names, every identifier stands for the innermost
parameter of its name, and no two parameters have the same symbol: symbols are numbered by where
they are bound, and the text is read from left to right.
-/

namespace LambdaQuery

theorem ok_of_bind {ε α β : Type} {x : Except ε α} {f : α → Except ε β} {b : β}
    (h : (x >>= f) = .ok b) : ∃ a, x = .ok a ∧ f a = .ok b := by
  cases x with
  | error e => cases h
  | ok a => exact ⟨a, rfl, h⟩

namespace Tokens

open Token

/-- Tokens stand one behind another from `low` on, and identifiers are names. -/
def InOrder (low : Nat) : Tokens → Prop
  | token first rest => low ≤ first.span.start ∧ (first.kind = .ident → IsName first.text) ∧
      InOrder (first.span.start + 1) rest
  | done _ | fault _ => True

theorem InOrder.mono {low low' : Nat} {ts : Tokens} (h : ts.InOrder low) (le : low' ≤ low) :
    ts.InOrder low' := by
  cases ts with
  | token first rest => exact ⟨Nat.le_trans le h.1, h.2⟩
  | _ => trivial

theorem inOrder_scan (offset : Nat) (cs : List Char) : (scan offset cs).InOrder offset := by
  fun_induction scan offset cs with
  | case1 => trivial
  | case2 => trivial
  | case3 offset c cs l found stop ih =>
    refine ⟨Nat.le_refl _, isName_of_next found, ih.mono ?_⟩
    obtain ⟨more, isSource⟩ := List.head?_eq_some_iff.1 (Lexeme.head_next found)
    have positive := c.utf8Size_pos
    show offset + 1 ≤ offset + byteLength l.source
    rw [isSource, byteLength]
    omega

theorem InOrder.significant {low : Nat} {ts : Tokens} (h : ts.InOrder low) :
    ts.significant.InOrder low := by
  induction ts generalizing low with
  | token first rest ih =>
    unfold Tokens.significant
    split
    · exact (ih h.2.2).mono (Nat.le_succ_of_le h.1)
    · exact ⟨h.1, h.2.1, ih h.2.2⟩
  | done _ => trivial
  | fault _ => trivial

theorem InOrder.tail {low : Nat} {ts : Tokens} (h : ts.InOrder low) : ts.tail.InOrder low := by
  cases ts with
  | token first rest => exact h.2.2.mono (Nat.le_succ_of_le h.1)
  | _ => trivial

/-- What follows a token that is not the end. -/
theorem InOrder.tail_of_peek {low : Nat} {ts : Tokens} {first : Token} (h : ts.InOrder low)
    (peeked : ts.peek = .ok first) (notEnd : first.kind = .ident) :
    low ≤ first.span.start ∧ IsName first.text ∧ ts.tail.InOrder (first.span.start + 1) := by
  cases ts with
  | token first' rest =>
    cases peeked
    exact ⟨h.1, h.2.1 notEnd, h.2.2⟩
  | done _ =>
    cases peeked
    cases notEnd
  | fault _ => cases peeked

end Tokens

/-! Trees with proper names and scopes. -/

open Token

mutual
/-- Names are names, identifiers stand for the innermost parameter of their name, and the symbols
of the parameters in the tree are numbered from `low` up to `high`, from left to right. -/
inductive Scoped : (scope : Term.Scope) → (low : Nat) → Term Span → (high : Nat) → Prop
  | lambda {scope : Term.Scope} {low high : Nat} {span : Span} {param : Binder Span}
    {body : Term Span} : low ≤ param.symbol.id → IsFreeName param.symbol.name →
      Scoped (param.symbol :: scope) (param.symbol.id + 1) body high →
      Scoped scope low (.lambda span param body) high
  | binary {scope : Term.Scope} {low middle high : Nat} {span : Span} {op : Operator}
    {left right : Term Span} : Scoped scope low left middle → Scoped scope middle right high →
      Scoped scope low (.binary span op left right) high
  | call {scope : Term.Scope} {low high : Nat} {span : Span} {name : String}
    {args : List (Term Span)} : IsFreeName name → ScopedAll scope low args high →
      Scoped scope low (.call span name args) high
  | member {scope : Term.Scope} {low high : Nat} {span : Span} {receiver : Term Span}
    {name : String} : IsName name → Scoped scope low receiver high →
      Scoped scope low (.member span receiver name) high
  | ident {scope : Term.Scope} {low : Nat} {span : Span} {symbol : Symbol} :
    scope.find? symbol.name = some symbol → Scoped scope low (.ident span symbol) low
  | literal {scope : Term.Scope} {low : Nat} {span : Span} {text : Option String} :
    Scoped scope low (.literal span text) low

inductive ScopedAll : (scope : Term.Scope) → (low : Nat) → List (Term Span) → (high : Nat) → Prop
  | nil {scope : Term.Scope} {low : Nat} : ScopedAll scope low [] low
  | cons {scope : Term.Scope} {low middle high : Nat} {t : Term Span} {rest : List (Term Span)} :
    Scoped scope low t middle → ScopedAll scope middle rest high →
      ScopedAll scope low (t :: rest) high
end

mutual
theorem Scoped.le : ∀ {scope : Term.Scope} {low high : Nat} {t : Term Span},
    Scoped scope low t high → low ≤ high
  | _, _, _, _, .lambda le _ body => by
    have := body.le
    omega
  | _, _, _, _, .binary left right => Nat.le_trans left.le right.le
  | _, _, _, _, .call _ args => args.le
  | _, _, _, _, .member _ receiver => receiver.le
  | _, _, _, _, .ident _ => Nat.le_refl _
  | _, _, _, _, .literal => Nat.le_refl _

theorem ScopedAll.le : ∀ {scope : Term.Scope} {low high : Nat} {ts : List (Term Span)},
    ScopedAll scope low ts high → low ≤ high
  | _, _, _, _, .nil => Nat.le_refl _
  | _, _, _, _, .cons first rest => Nat.le_trans first.le rest.le
end

namespace Term.Parser

variable {limit budget low : Nat} {scope : Scope} {ts rest : Tokens} {t : Term Span}

/-- A rule that reads scoped trees. -/
def ReadsScoped (scope : Scope) (rule : Rule) : Prop :=
  ∀ {low : Nat} {ts : Tokens} {t : Term Span} {rest : Tokens}, ts.InOrder low →
    rule ts = .ok (t, rest) → ∃ high, Scoped scope low t high ∧ rest.InOrder high

theorem members_scoped {middle : Nat} {receiver : Term Span}
    (onReceiver : Scoped scope low receiver middle) (order : ts.InOrder middle)
    (h : members limit budget receiver ts = .ok (t, rest)) :
    ∃ high, Scoped scope low t high ∧ rest.InOrder high := by
  induction budget generalizing receiver ts with
  | zero =>
    rw [members] at h
    obtain ⟨next, _, h⟩ := ok_of_bind h
    split at h
    · obtain ⟨name, _, h⟩ := ok_of_bind h
      split at h
      · obtain ⟨_, _, h⟩ := ok_of_bind h
        cases h
      · cases h
    · cases h
      exact ⟨middle, onReceiver, order⟩
  | succ budget ih =>
    rw [members] at h
    obtain ⟨next, _, h⟩ := ok_of_bind h
    split at h
    · obtain ⟨name, peeked, h⟩ := ok_of_bind h
      split at h
      · rename_i isIdent
        have onName := order.tail.tail_of_peek peeked isIdent
        exact ih (.member onName.2.1 onReceiver) order.tail.tail h
      · cases h
    · cases h
      exact ⟨middle, onReceiver, order⟩

theorem arguments_scoped {query : Rule} (reads : ReadsScoped scope query) {function : Token}
    {opened : Span} {args : List (Term Span)} {stop : Nat} (order : ts.InOrder low)
    (h : arguments query function opened ts = .ok ((args, stop), rest)) :
    ∃ high, ScopedAll scope low args high ∧ rest.InOrder high := by
  fun_induction arguments query function opened ts generalizing low args stop rest with
  | case1 ts ih =>
    obtain ⟨⟨arg, afterArg⟩, readArg, h⟩ := ok_of_bind h
    obtain ⟨next, _, h⟩ := ok_of_bind h
    obtain ⟨middle, onArg, order'⟩ := reads order readArg
    split at h
    · split at h
      · rename_i shorter
        obtain ⟨⟨⟨more, stop'⟩, afterMore⟩, readMore, h⟩ := ok_of_bind h
        cases h
        obtain ⟨high, onMore, order''⟩ := ih afterArg shorter order'.tail readMore
        exact ⟨high, .cons onArg onMore, order''⟩
      · cases h
    · split at h
      · cases h
        exact ⟨middle, .cons onArg .nil, order'.tail⟩
      · cases h

theorem named_scoped {query : Rule} (reads : ReadsScoped scope query) {name : Token}
    (isName : IsFreeName name.text) (order : ts.InOrder low)
    (h : named query limit budget scope name ts = .ok (t, rest)) :
    ∃ high, Scoped scope low t high ∧ rest.InOrder high := by
  unfold named at h
  obtain ⟨next, _, h⟩ := ok_of_bind h
  split at h
  · obtain ⟨first, _, h⟩ := ok_of_bind h
    split at h
    · exact members_scoped (.call isName .nil) order.tail.tail h
    · obtain ⟨⟨⟨args, stop⟩, afterArgs⟩, readArgs, h⟩ := ok_of_bind h
      obtain ⟨middle, onArgs, order'⟩ := arguments_scoped reads order.tail readArgs
      exact members_scoped (.call isName onArgs) order' h
  · split at h
    · rename_i symbol found
      have sameName : symbol.name = name.text := by
        have := List.find?_some found
        simpa using this
      exact members_scoped (.ident (by rw [sameName]; exact found)) order h
    · cases h

theorem scoped_withNote {span : Span} {high : Nat} (h : Scoped scope low t high) :
    Scoped scope low (t.withNote span) high := by
  cases h with
  | lambda le isName body => exact .lambda le isName body
  | binary left right => exact .binary left right
  | call isName args => exact .call isName args
  | member isName receiver => exact .member isName receiver
  | ident found => exact .ident found
  | literal => exact .literal

theorem operand_scoped {query : Rule} (reads : ReadsScoped scope query) (order : ts.InOrder low)
    (h : operand query limit budget scope ts = .ok (t, rest)) :
    ∃ high, Scoped scope low t high ∧ rest.InOrder high := by
  unfold operand at h
  obtain ⟨first, peeked, h⟩ := ok_of_bind h
  split at h
  · obtain ⟨⟨inner, afterInner⟩, readInner, h⟩ := ok_of_bind h
    obtain ⟨close, _, h⟩ := ok_of_bind h
    obtain ⟨middle, onInner, order'⟩ := reads order.tail readInner
    split at h
    · exact members_scoped (scoped_withNote onInner) order'.tail h
    · cases h
  · exact members_scoped .literal order.tail h
  · exact members_scoped .literal order.tail h
  · obtain ⟨number, _, h⟩ := ok_of_bind h
    split at h
    · exact members_scoped .literal order.tail.tail h
    · cases h
  · rename_i isIdent
    split at h
    · exact members_scoped .literal order.tail h
    · split at h
      · exact members_scoped .literal order.tail h
      · have onName := order.tail_of_peek peeked isIdent
        refine named_scoped reads ⟨onName.2.1, ?_⟩ order.tail h
        simp_all [isLiteralKeyword]
  · cases h

mutual
theorem query_scoped : ∀ (budget : Nat) {low : Nat} {scope : Scope} {ts rest : Tokens}
    {t : Term Span}, ts.InOrder low → query limit budget scope ts = .ok (t, rest) →
    ∃ high, Scoped scope low t high ∧ rest.InOrder high
  | 0, _, _, _, _, _, _, h => by
    unfold query at h
    obtain ⟨_, _, h⟩ := ok_of_bind h
    obtain ⟨_, _, h⟩ := ok_of_bind h
    cases h
  | budget + 1, low, scope, ts, rest, t, order, h => by
    have reads : ReadsScoped scope (query limit budget scope) := query_scoped budget
    unfold query at h
    obtain ⟨first, peeked, h⟩ := ok_of_bind h
    simp only at h
    split at h
    · rename_i isName
      have onName := order.tail_of_peek peeked isName.1
      have isFree : IsFreeName first.text := ⟨onName.2.1, isName.2⟩
      obtain ⟨next, _, h⟩ := ok_of_bind h
      split at h
      · obtain ⟨⟨body, afterBody⟩, readBody, h⟩ := ok_of_bind h
        cases h
        obtain ⟨high, onBody, order'⟩ := query_scoped budget onName.2.2.tail readBody
        exact ⟨high, .lambda onName.1 isFree onBody, order'⟩
      · obtain ⟨⟨left, afterLeft⟩, readLeft, h⟩ := ok_of_bind h
        obtain ⟨middle, onLeft, order'⟩ := named_scoped reads isFree order.tail readLeft
        exact operators_scoped budget onLeft order' h
    · obtain ⟨⟨left, afterLeft⟩, readLeft, h⟩ := ok_of_bind h
      obtain ⟨middle, onLeft, order'⟩ := operand_scoped reads order readLeft
      exact operators_scoped budget onLeft order' h

theorem operators_scoped : ∀ (budget : Nat) {least low middle : Nat} {scope : Scope}
    {left t : Term Span} {ts rest : Tokens}, Scoped scope low left middle → ts.InOrder middle →
    operators limit budget scope least left ts = .ok (t, rest) →
    ∃ high, Scoped scope low t high ∧ rest.InOrder high
  | 0, _, _, middle, _, _, _, _, _, onLeft, order, h => by
    unfold operators at h
    obtain ⟨next, _, h⟩ := ok_of_bind h
    split at h
    · cases h
      exact ⟨middle, onLeft, order⟩
    · split at h
      · cases h
        exact ⟨middle, onLeft, order⟩
      · obtain ⟨_, _, h⟩ := ok_of_bind h
        cases h
  | budget + 1, _, _, middle, scope, _, _, _, _, onLeft, order, h => by
    have reads : ReadsScoped scope (query limit budget scope) := query_scoped budget
    unfold operators at h
    obtain ⟨next, _, h⟩ := ok_of_bind h
    split at h
    · cases h
      exact ⟨middle, onLeft, order⟩
    · split at h
      · cases h
        exact ⟨middle, onLeft, order⟩
      · obtain ⟨⟨first, afterFirst⟩, readFirst, h⟩ := ok_of_bind h
        obtain ⟨⟨right, afterRight⟩, readRight, h⟩ := ok_of_bind h
        obtain ⟨_, onFirst, order'⟩ := operand_scoped reads order.tail readFirst
        obtain ⟨_, onRight, order''⟩ := operators_scoped budget onFirst order' readRight
        exact operators_scoped budget (.binary onLeft onRight) order'' h
end

end Term.Parser

/-- What is read from a text is scoped. -/
theorem Term.scoped_of_ofText {limit : Nat} {text : String} {t : Term Span}
    (h : Term.ofText limit text = .ok t) : ∃ high, Scoped [] 0 t high := by
  unfold Term.ofText at h
  obtain ⟨⟨tree, rest⟩, read, h⟩ := ok_of_bind h
  obtain ⟨next, _, h⟩ := ok_of_bind h
  split at h
  · cases h
  · split at h <;> cases h
    have order := (Tokens.inOrder_scan 0 text.toList).significant
    obtain ⟨high, onTree, _⟩ := Parser.query_scoped limit order read
    exact ⟨high, onTree⟩

end LambdaQuery
