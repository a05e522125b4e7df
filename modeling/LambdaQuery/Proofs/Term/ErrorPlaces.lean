import LambdaQuery.Proofs.Term.Spans

/-!
# Where syntax errors point

Whatever a parse error points at is the stretch of a token, of the end of the text or of a lexical
fault, or it is the stretch of a node of the tree that was read. All of these lie in the text.
-/

namespace LambdaQuery

/-- A stretch of a text of the given size. -/
structure Span.Inside (size : Nat) (span : Span) : Prop where
  ordered : span.start ≤ span.stop
  stop_le : span.stop ≤ size

/-- The tokens, the end and the fault of a sequence stand at places of a kind. -/
def Tokens.Spans (P : Span → Prop) : Tokens → Prop
  | token first rest => P first.span ∧ rest.Spans P
  | done offset => P ⟨offset, offset⟩
  | fault error => P error.span

/-- An error points at places of a kind, the second one included. -/
def SyntaxError.Points (P : Span → Prop) (e : SyntaxError) : Prop :=
  P e.span ∧ ∀ place ∈ e.related, P place.2

def ParseError.Points (P : Span → Prop) : ParseError → Prop
  | lexical error => P error.span
  | grammar error => error.Points P

/-- An outcome that is as described, or an error that points at places of a kind. -/
inductive Pointing {α : Type} (P : Span → Prop) (good : α → Prop) : Except ParseError α → Prop
  | ok {a : α} : good a → Pointing P good (.ok a)
  | error {e : ParseError} : e.Points P → Pointing P good (.error e)

namespace Pointing

variable {α β : Type} {P : Span → Prop} {good : α → Prop} {better : β → Prop}

theorem bind {x : Except ParseError α} {f : α → Except ParseError β} (first : Pointing P good x)
    (next : ∀ a, good a → Pointing P better (f a)) : Pointing P better (x >>= f) := by
  cases first with
  | ok isGood => exact next _ isGood
  | error points => exact .error points

/-- What is described may also be said to be the outcome. -/
theorem of_ok {x : Except ParseError α} (h : Pointing P good x) :
    Pointing P (fun a => good a ∧ x = .ok a) x := by
  cases h with
  | ok isGood => exact .ok ⟨isGood, rfl⟩
  | error points => exact .error points

theorem peek {ts : Tokens} (h : ts.Spans P) : Pointing P (fun t => P t.span) ts.peek := by
  cases ts with
  | token first rest => exact .ok h.1
  | done offset => exact .ok h
  | fault error => exact .error h

theorem unexpected {expected : Expectation} {found : Token} (onFound : P found.span)
    (related : ∀ place ∈ SyntaxError.related ⟨.unexpected expected found.text, found.span, found.kind⟩,
      P place.2) :
    Pointing P good (Term.Parser.unexpected expected found) :=
  .error ⟨onFound, related⟩

theorem tooDeep {limit : Nat} {span : Span} {ts : Tokens} (here : P span) (h : ts.Spans P) :
    Pointing P good (Term.Parser.tooDeep limit span ts) :=
  (peek h).bind fun _ _ => .error ⟨here, by simp [SyntaxError.related]⟩

end Pointing

namespace Tokens

theorem Spans.tail {P : Span → Prop} {ts : Tokens} (h : ts.Spans P) : ts.tail.Spans P := by
  cases ts with
  | token first rest => exact h.2
  | done offset => exact h
  | fault error => exact h

theorem Spans.significant {P : Span → Prop} {ts : Tokens} (h : ts.Spans P) :
    ts.significant.Spans P := by
  induction ts with
  | token first rest ih =>
    unfold Tokens.significant
    split
    · exact ih h.2
    · exact ⟨h.1, ih h.2⟩
  | done offset => exact h
  | fault error => exact h

/-- Tokens stand in the text, and so do its end and what is no token. -/
theorem Tiling.spans {offset size : Nat} {cs : List Char} {ts : Tokens} (h : Tiling offset cs ts)
    (isSize : offset + Token.byteLength cs = size) : ts.Spans (Span.Inside size) := by
  induction h with
  | done => exact ⟨Nat.le_refl _, Nat.le_of_eq isSize⟩
  | fault =>
    rw [byteLength_append] at isSize
    exact ⟨Nat.le_add_right _ _, by simp only; omega⟩
  | token _ _ _ _ ih =>
    rw [byteLength_append] at isSize
    exact ⟨⟨Nat.le_add_right _ _, by simp only; omega⟩, ih (by omega)⟩

theorem spans_ofText (text : String) : (ofText text).Spans (Span.Inside text.utf8ByteSize) :=
  (tiling_scan 0 text.toList).spans (by rw [Nat.zero_add, byteLength_toList])

end Tokens

theorem Token.Stands.inside {text : String} {span : Span}
    (stands : Token.Stands (Tokens.ofText text).significant.words span) :
    span.Inside text.utf8ByteSize :=
  ⟨Nat.le_of_lt stands.room, stands.stop_le⟩

namespace Term

namespace Parser

variable {P : Span → Prop} {limit budget : Nat} {scope : Scope} {ts : Tokens}

/-- What is left stands at places of a kind, as does what is pointed at. -/
abbrev Leaves {α : Type} (P : Span → Prop) : Except ParseError (α × Tokens) → Prop :=
  Pointing P fun r => r.2.Spans P

theorem members_leaves : ∀ (budget : Nat) {receiver : Term Span} {ts : Tokens}, ts.Spans P →
    Leaves P (members limit budget receiver ts)
  | budget, receiver, ts, h => by
    rw [members.eq_def]
    refine (Pointing.peek h).bind fun next _ => ?_
    split
    · refine (Pointing.peek h.tail).bind fun name onName => ?_
      split
      · cases budget with
        | zero => exact .tooDeep onName h.tail.tail
        | succ budget => exact members_leaves budget h.tail.tail
      · exact .unexpected onName (by simp [SyntaxError.related])
    · exact .ok h

variable {query : Rule}

theorem arguments_leaves (reads : ∀ {ts : Tokens}, ts.Spans P → Leaves P (query ts))
    {function : Token} {opened : Span} (onOpened : P opened) (h : ts.Spans P) :
    Leaves P (arguments query function opened ts) := by
  fun_induction arguments query function opened ts with
  | case1 ts ih =>
    refine (reads h).bind fun r onRest => ?_
    refine (Pointing.peek onRest).bind fun next onNext => ?_
    have stops : Leaves (α := List (Term Span) × Nat) P
        (unexpected (.argumentEnd function.text opened) next) :=
      .unexpected onNext (by simpa [SyntaxError.related] using onOpened)
    split
    · split
      · rename_i shorter
        exact (ih _ shorter onRest.tail).bind fun more onMore => .ok onMore
      · exact stops
    · split
      · exact .ok onRest.tail
      · exact stops

theorem named_leaves (reads : ∀ {ts : Tokens}, ts.Spans P → Leaves P (query ts)) {name : Token}
    (onName : P name.span) (h : ts.Spans P) :
    Leaves P (named query limit budget scope name ts) := by
  rw [named]
  refine (Pointing.peek h).bind fun next onNext => ?_
  split
  · refine (Pointing.peek h.tail).bind fun first onFirst => ?_
    split
    · exact members_leaves _ h.tail.tail
    · exact (arguments_leaves reads onNext h.tail).bind fun r onRest => members_leaves _ onRest
  · split
    · exact members_leaves _ h
    · exact .error ⟨onName, by simp [SyntaxError.related]⟩

theorem operand_leaves (reads : ∀ {ts : Tokens}, ts.Spans P → Leaves P (query ts))
    (h : ts.Spans P) : Leaves P (operand query limit budget scope ts) := by
  rw [operand]
  refine (Pointing.peek h).bind fun first onFirst => ?_
  split
  · refine (reads h.tail).bind fun r onRest => ?_
    refine (Pointing.peek onRest).bind fun close onClose => ?_
    split
    · exact members_leaves _ onRest.tail
    · exact .unexpected onClose (by simpa [SyntaxError.related] using onFirst)
  · exact members_leaves _ h.tail
  · exact members_leaves _ h.tail
  · refine (Pointing.peek h.tail).bind fun number onNumber => ?_
    split
    · exact members_leaves _ h.tail.tail
    · exact .unexpected onNumber (by simp [SyntaxError.related])
  · split
    · exact members_leaves _ h.tail
    · split
      · exact members_leaves _ h.tail
      · exact named_leaves reads onFirst h.tail
  · exact .unexpected onFirst (by simp [SyntaxError.related])

mutual
theorem query_leaves : ∀ (budget : Nat) {scope : Scope} {ts : Tokens}, ts.Spans P →
    Leaves P (Parser.query limit budget scope ts)
  | 0, _, _, h => by
    rw [Parser.query]
    exact (Pointing.peek h).bind fun first onFirst => .tooDeep onFirst h
  | budget + 1, scope, ts, h => by
    rw [Parser.query]
    refine (Pointing.peek h).bind fun first onFirst => ?_
    simp only
    split
    · refine (Pointing.peek h.tail).bind fun next _ => ?_
      split
      · exact (query_leaves budget h.tail.tail).bind fun body onRest => .ok onRest
      · exact (named_leaves (query_leaves budget) onFirst h.tail).bind fun left onRest =>
          operators_leaves budget onRest
    · exact (operand_leaves (query_leaves budget) h).bind fun left onRest =>
        operators_leaves budget onRest

theorem operators_leaves : ∀ (budget : Nat) {least : Nat} {scope : Scope} {left : Term Span}
    {ts : Tokens}, ts.Spans P → Leaves P (operators limit budget scope least left ts)
  | budget, least, scope, left, ts, h => by
    rw [operators.eq_def]
    refine (Pointing.peek h).bind fun next onNext => ?_
    split
    · exact .ok h
    · split
      · exact .ok h
      · cases budget with
        | zero => exact .tooDeep onNext h.tail
        | succ budget =>
          refine (operand_leaves (query_leaves budget) h.tail).bind fun first onFirst => ?_
          refine (operators_leaves budget onFirst).bind fun right onRight => ?_
          exact operators_leaves budget onRight
end

mutual
/-- What lies too deep is a node of the tree. -/
theorem at_of_tooTall? : ∀ {t : Term Span} {depth : Nat} {span : Span},
    tooTall? limit depth t = some span → ∃ around node, At around node t ∧ node.note = span
  | t, depth, span, h => by
    rw [tooTall?.eq_def] at h
    split at h
    · cases h
      exact ⟨[], t, .here, rfl⟩
    · cases t with
      | lambda _ _ body =>
        obtain ⟨around, node, place, same⟩ := at_of_tooTall? h
        exact ⟨_, node, .body place, same⟩
      | binary _ _ left right =>
        rcases Option.or_eq_some_iff.1 h with inRight | ⟨-, inLeft⟩
        · obtain ⟨around, node, place, same⟩ := at_of_tooTall? inRight
          exact ⟨around, node, .right place, same⟩
        · obtain ⟨around, node, place, same⟩ := at_of_tooTall? inLeft
          exact ⟨around, node, .left place, same⟩
      | call _ _ args =>
        obtain ⟨arg, isArg, around, node, place, same⟩ := at_of_anyTooTall? h
        exact ⟨around, node, .argument isArg place, same⟩
      | member _ receiver _ =>
        obtain ⟨around, node, place, same⟩ := at_of_tooTall? h
        exact ⟨around, node, .receiver place, same⟩
      | ident | literal => cases h

theorem at_of_anyTooTall? : ∀ {ts : List (Term Span)} {depth : Nat} {span : Span},
    anyTooTall? limit depth ts = some span →
    ∃ t ∈ ts, ∃ around node, At around node t ∧ node.note = span
  | [], _, _, h => by cases h
  | t :: rest, depth, span, h => by
    rcases Option.or_eq_some_iff.1 h with inRest | ⟨-, inFirst⟩
    · obtain ⟨other, mem, found⟩ := at_of_anyTooTall? inRest
      exact ⟨other, List.mem_cons_of_mem _ mem, found⟩
    · exact ⟨t, List.mem_cons_self, at_of_tooTall? inFirst⟩
end

end Parser

/-- A tree that was read from the front of a text has its nodes in the text. -/
theorem inside_of_query {limit : Nat} {text : String} {t : Term Span} {rest : Tokens}
    (read : Parser.query limit limit [] (Tokens.ofText text).significant = .ok (t, rest))
    {around : List (Binder Span)} {node : Term Span} (place : At around node t) :
    node.note.Inside text.utf8ByteSize := by
  obtain ⟨front, isFront, onQuery⟩ := Parser.query_derived limit read
  have isWords : (Tokens.ofText text).significant.words = front ++ rest.words := by
    rw [isFront, Tokens.words_after]
  have inPlace := Tokens.inPlace_ofText text
  rw [isWords] at inPlace
  have placed := onQuery.placed (inPlace.sublist (List.sublist_append_left _ _))
  have stands := (placed.allSit around node place).stands.mono (List.subset_append_left _ rest.words)
  rw [← isWords] at stands
  exact stands.inside

/-- Where a text is not read as a query, the error points into the text. -/
theorem ofText_points {limit : Nat} {text : String} {e : ParseError}
    (failed : ofText limit text = .error e) : e.Points (Span.Inside text.utf8ByteSize) := by
  have spans := (Tokens.spans_ofText text).significant
  have pointing : Pointing (Span.Inside text.utf8ByteSize) (fun _ => True) (ofText limit text) := by
    rw [ofText]
    refine (Parser.query_leaves limit spans).of_ok.bind fun r onRead => ?_
    refine (Pointing.peek onRead.1).bind fun next onNext => ?_
    split
    · exact .unexpected onNext (by simp [SyntaxError.related])
    · split
      · rename_i span isTall
        obtain ⟨around, node, place, rfl⟩ := Parser.at_of_tooTall? isTall
        exact .error ⟨inside_of_query onRead.2 place, by simp [SyntaxError.related]⟩
      · exact .ok trivial
  rw [failed] at pointing
  cases pointing with
  | error points => exact points

end Term

end LambdaQuery
