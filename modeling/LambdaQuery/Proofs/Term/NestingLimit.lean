import LambdaQuery.Proofs.Term.RoundTrip
import Mathlib

/-!
# The nesting limit only rejects

A text is read the same way under every limit that is not reached. Where the limit is reached the
next token is looked at first, and a fault in it is reported instead: a larger limit comes to the
same fault right behind.
-/

namespace LambdaQuery

/-- The nesting limit was reached. -/
def ParseError.IsTooDeep (limit : Nat) (error : ParseError) : Prop :=
  ∃ span found, error = .grammar ⟨.tooDeep limit, span, found⟩

/-- The outcome under a limit is the one under a larger limit, or the limit was reached. -/
inductive Limited {α : Type} (limit : Nat) : Except ParseError α → Except ParseError α → Prop
  | ok (a : α) : Limited limit (.ok a) (.ok a)
  | error {error : ParseError} : (∀ any, ¬ error.IsTooDeep any) →
      Limited limit (.error error) (.error error)
  | tooDeep {error : ParseError} {outcome : Except ParseError α} : error.IsTooDeep limit →
      Limited limit (.error error) outcome

namespace Limited

variable {α β : Type} {limit : Nat}

theorem bind {x y : Except ParseError α} {f g : α → Except ParseError β} (first : Limited limit x y)
    (next : ∀ a, Limited limit (f a) (g a)) : Limited limit (x >>= f) (y >>= g) := by
  cases first with
  | ok a => exact next a
  | error other => exact .error other
  | tooDeep reached => exact .tooDeep reached

theorem lexical (error : LexError) : Limited (α := α) limit (.error (.lexical error))
    (.error (.lexical error)) := by
  refine .error fun any => ?_
  rintro ⟨span, found, isGrammar⟩
  cases isGrammar

theorem unexpected (expected : Expectation) (found : Token) :
    Limited limit (Term.Parser.unexpected expected found : Except ParseError α)
      (Term.Parser.unexpected expected found) := by
  refine .error fun any => ?_
  rintro ⟨span, kind, isTooDeep⟩
  cases isTooDeep

/-- Looking at the next token is the same under every limit. -/
theorem peek {ts : Tokens} {f g : Token → Except ParseError α}
    (next : ∀ first, ts.peek = .ok first → Limited limit (f first) (g first)) :
    Limited limit (ts.peek >>= f) (ts.peek >>= g) := by
  cases ts with
  | token first rest => exact next first rfl
  | done offset => exact next _ rfl
  | fault error => exact .lexical error

/-- Where the limit is reached, a fault in the next token is still the outcome under both limits. -/
theorem of_tooDeep {span : Span} {ts : Tokens} {outcome : Except ParseError α}
    (faulty : ∀ error, ts.peek = .error error → outcome = .error error) :
    Limited limit (Term.Parser.tooDeep limit span ts) outcome := by
  cases ts with
  | token first rest => exact .tooDeep ⟨span, first.kind, rfl⟩
  | done offset => exact .tooDeep ⟨span, .eof, rfl⟩
  | fault error =>
    rw [faulty _ rfl]
    exact .lexical error

end Limited

namespace Term.Parser

variable {limit limit' budget budget' : Nat} {scope : Scope} {ts : Tokens} {error : ParseError}

/-! A fault in the next token is what every rule gives. -/

theorem tooDeep_fault {α : Type} (faulty : ts.peek = .error error) (span : Span) :
    (tooDeep limit span ts : Except ParseError α) = .error error := by
  rw [tooDeep, faulty]
  rfl

theorem members_fault (faulty : ts.peek = .error error) (receiver : Term Span) :
    members limit budget receiver ts = .error error := by
  rw [members.eq_def, faulty]
  rfl

theorem operand_fault (faulty : ts.peek = .error error) (query : Rule) :
    operand query limit budget scope ts = .error error := by
  rw [operand, faulty]
  rfl

/-! Each rule is limited if those it uses are. -/

theorem members_limited (le : budget ≤ budget') (receiver : Term Span) (ts : Tokens) :
    Limited limit (members limit budget receiver ts) (members limit' budget' receiver ts) := by
  induction budget generalizing budget' receiver ts with
  | zero =>
    rw [members.eq_def limit, members.eq_def limit']
    refine .peek fun next _ => ?_
    split
    · refine .peek fun name _ => ?_
      split
      · refine .of_tooDeep fun error faulty => ?_
        cases budget' with
        | zero => exact tooDeep_fault faulty _
        | succ budget' => exact members_fault faulty _
      · exact .unexpected _ _
    · exact .ok _
  | succ budget ih =>
    obtain ⟨budget', rfl⟩ : ∃ b, budget' = b + 1 := ⟨budget' - 1, by omega⟩
    rw [members.eq_def limit, members.eq_def limit']
    refine .peek fun next _ => ?_
    split
    · refine .peek fun name _ => ?_
      split
      · exact ih (Nat.le_of_succ_le_succ le) _ _
      · exact .unexpected _ _
    · exact .ok _

/-- Two rules of which the first has less room. -/
def LimitedRules (limit : Nat) (rule rule' : Rule) : Prop :=
  ∀ ts, Limited limit (rule ts) (rule' ts)

section

variable {query query' : Rule} (rules : LimitedRules limit query query')

include rules

theorem arguments_limited (function : Token) (opened : Span) (ts : Tokens) :
    Limited limit (arguments query function opened ts) (arguments query' function opened ts) := by
  induction isLength : ts.length using Nat.strongRecOn generalizing ts with
  | ind length ih =>
    subst isLength
    rw [arguments.eq_def query, arguments.eq_def query']
    refine .bind (rules ts) fun (arg, rest) => .peek fun next _ => ?_
    split
    · split
      · rename_i shorter
        exact .bind (ih _ shorter _ rfl) fun _ => .ok _
      · exact .unexpected _ _
    · split
      · exact .ok _
      · exact .unexpected _ _

theorem named_limited (le : budget ≤ budget') (name : Token) (ts : Tokens) :
    Limited limit (named query limit budget scope name ts)
      (named query' limit' budget' scope name ts) := by
  rw [named, named]
  refine .peek fun next _ => ?_
  split
  · refine .peek fun first _ => ?_
    split
    · exact members_limited le _ _
    · exact .bind (arguments_limited rules name next.span ts.tail) fun _ => members_limited le _ _
  · split
    · exact members_limited le _ _
    · refine .error fun any => ?_
      rintro ⟨span, found, isTooDeep⟩
      cases isTooDeep

theorem operand_limited (le : budget ≤ budget') (ts : Tokens) :
    Limited limit (operand query limit budget scope ts) (operand query' limit' budget' scope ts) := by
  rw [operand, operand]
  refine .peek fun first _ => ?_
  split
  · refine .bind (rules _) ?_
    rintro ⟨inner, rest⟩
    refine .peek fun close _ => ?_
    split
    · exact members_limited le _ _
    · exact .unexpected _ _
  · exact members_limited le _ _
  · exact members_limited le _ _
  · refine .peek fun number _ => ?_
    split
    · exact members_limited le _ _
    · exact .unexpected _ _
  · split
    · exact members_limited le _ _
    · split
      · exact members_limited le _ _
      · exact named_limited rules le first _
  · exact .unexpected _ _

end

mutual
theorem query_limited : ∀ (budget : Nat) {budget' : Nat} (scope : Scope), budget ≤ budget' →
    LimitedRules limit (query limit budget scope) (query limit' budget' scope)
  | 0, budget', scope, _, ts => by
    rw [query, query.eq_def limit']
    refine .peek fun first peeked => .of_tooDeep fun error faulty => ?_
    rw [peeked] at faulty
    cases faulty
  | budget + 1, budget', scope, le, ts => by
    obtain ⟨budget', rfl⟩ : ∃ b, budget' = b + 1 := ⟨budget' - 1, by omega⟩
    have le := Nat.le_of_succ_le_succ le
    have rules := query_limited budget scope le
    rw [query, query]
    refine .peek fun first _ => ?_
    dsimp only
    split
    · refine .peek fun next _ => ?_
      split
      · exact .bind (query_limited budget _ le _) fun _ => .ok _
      · exact .bind (named_limited rules le first _) fun _ => operators_limited budget scope _ _ le _
    · exact .bind (operand_limited rules le ts) fun _ => operators_limited budget scope _ _ le _

theorem operators_limited : ∀ (budget : Nat) {budget' : Nat} (scope : Scope) (least : Nat)
    (left : Term Span), budget ≤ budget' → ∀ ts, Limited limit
      (operators limit budget scope least left ts) (operators limit' budget' scope least left ts)
  | budget, budget', scope, least, left, le, ts => by
    rw [operators.eq_def limit, operators.eq_def limit']
    refine .peek fun next _ => ?_
    split
    · exact .ok _
    · split
      · exact .ok _
      · cases budget with
        | zero =>
          refine .of_tooDeep fun error faulty => ?_
          cases budget' with
          | zero => exact tooDeep_fault faulty _
          | succ budget' => simp [operand_fault faulty, bind, Except.bind]
        | succ budget =>
          obtain ⟨budget', rfl⟩ : ∃ b, budget' = b + 1 := ⟨budget' - 1, by omega⟩
          have le := Nat.le_of_succ_le_succ le
          have rules := query_limited budget scope le
          refine .bind (operand_limited rules le _) fun (first, rest) => ?_
          refine .bind (operators_limited budget scope _ first le rest) fun (right, rest) => ?_
          exact operators_limited budget scope least _ le rest
end

/-! The tree is measured once more. -/

theorem unlimited_of_tooTall? {depth : Nat} {t : Term Span}
    (h : tooTall? limit depth t = none) : ¬ limit < depth := by
  intro beyond
  rw [tooTall?.eq_def, if_pos beyond] at h
  cases h

mutual
/-- A tree in which no node lies too deep is not too high. -/
theorem height_le_of_tooTall? : ∀ {t : Term Span} {depth : Nat},
    tooTall? limit depth t = none → depth + t.height ≤ limit + 1
  | .lambda _ _ body, depth, h => by
    have inside := unlimited_of_tooTall? h
    rw [tooTall?, if_neg inside] at h
    have := height_le_of_tooTall? h
    rw [height]
    omega
  | .binary _ _ left right, depth, h => by
    have inside := unlimited_of_tooTall? h
    rw [tooTall?, if_neg inside, Option.or_eq_none_iff] at h
    have := height_le_of_tooTall? h.1
    have := height_le_of_tooTall? h.2
    rw [height]
    omega
  | .call _ _ args, depth, h => by
    have inside := unlimited_of_tooTall? h
    rw [tooTall?, if_neg inside] at h
    have := heightAll_le_of_anyTooTall? h (by omega)
    rw [height]
    omega
  | .member _ receiver _, depth, h => by
    have inside := unlimited_of_tooTall? h
    rw [tooTall?, if_neg inside] at h
    have := height_le_of_tooTall? h
    rw [height]
    omega
  | .ident .., depth, h => by
    have inside := unlimited_of_tooTall? h
    rw [height]
    omega
  | .literal .., depth, h => by
    have inside := unlimited_of_tooTall? h
    rw [height]
    omega

theorem heightAll_le_of_anyTooTall? : ∀ {ts : List (Term Span)} {depth : Nat},
    anyTooTall? limit depth ts = none → depth ≤ limit + 1 → depth + heightAll ts ≤ limit + 1
  | [], _, _, le => le
  | t :: ts, depth, h, le => by
    rw [anyTooTall?, Option.or_eq_none_iff] at h
    have := height_le_of_tooTall? h.2
    have := heightAll_le_of_anyTooTall? h.1 le
    rw [heightAll]
    omega
end

end Term.Parser

namespace Term

theorem ofText_limited {limit limit' : Nat} (le : limit ≤ limit') (text : String) :
    Limited limit (ofText limit text) (ofText limit' text) := by
  rw [ofText, ofText]
  refine .bind (Parser.query_limited limit [] le _) fun (tree, rest) => .peek fun next _ => ?_
  split
  · exact .unexpected _ _
  · cases tall : Parser.tooTall? limit 1 tree with
    | some span => exact .tooDeep ⟨span, .eof, rfl⟩
    | none =>
      have := Parser.height_le_of_tooTall? tall
      have fits : Parser.tooTall? limit' 1 tree = none := Parser.tooTall?_eq_none (by omega)
      rw [fits]
      exact .ok tree

theorem height_le_of_ofText {limit : Nat} {text : String} {t : Term Span}
    (h : ofText limit text = .ok t) : t.height ≤ limit := by
  rw [ofText] at h
  obtain ⟨⟨tree, rest⟩, _, h⟩ := ok_of_bind h
  obtain ⟨next, _, h⟩ := ok_of_bind h
  split at h
  · cases h
  · cases tall : Parser.tooTall? limit 1 tree with
    | some span =>
      rw [tall] at h
      cases h
    | none =>
      rw [tall] at h
      cases h
      have := Parser.height_le_of_tooTall? tall
      omega

/-- Reading a text comes to the nesting limit. -/
def NestsBeyond (limit : Nat) (text : String) : Prop :=
  ∃ error, ofText limit text = .error error ∧ error.IsTooDeep limit

end Term

/-- Of two nesting limits, the smaller one gives what the larger one gives, or says that it was
reached; it is reached if the larger one is, and a tree that comes out is not higher than it. -/
theorem nesting_limit_only_rejects {limit limit' : Nat} (le : limit ≤ limit') (text : String) :
    (Term.ofText limit text = Term.ofText limit' text ∨ ∃ error,
      Term.ofText limit text = .error (.grammar error) ∧ error.fault = .tooDeep limit ∧
        error.message = "expression nests deeper than " ++ toString limit ++ " levels") ∧
    (Term.NestsBeyond limit' text → Term.NestsBeyond limit text) ∧
    ∀ t, Term.ofText limit text = .ok t → t.height ≤ limit := by
  have limited := Term.ofText_limited le text
  refine ⟨?_, ?_, fun t isRead => Term.height_le_of_ofText isRead⟩
  · generalize Term.ofText limit text = outcome, Term.ofText limit' text = outcome' at limited
    cases limited with
    | ok t => exact .inl rfl
    | error other => exact .inl rfl
    | tooDeep reached =>
      obtain ⟨span, found, rfl⟩ := reached
      exact .inr ⟨_, rfl, rfl, rfl⟩
  · rintro ⟨error, isError, reached⟩
    unfold Term.NestsBeyond
    rw [isError] at limited
    generalize Term.ofText limit text = outcome at limited
    cases limited with
    | error other => exact absurd reached (other limit')
    | tooDeep reached' => exact ⟨_, rfl, reached'⟩

/-- Two members behind a lambda take four levels. -/
theorem nesting_limit_only_rejects_members : 2 ≤ 3 ∧ Term.NestsBeyond 3 "x => x.A.B" ∧
    Term.NestsBeyond 2 "x => x.A.B" ∧ 4 ≤ 5 ∧ ∃ t, Term.ofText 4 "x => x.A.B" = .ok t ∧
      t.height ≤ 4 := by
  have beyond : Term.NestsBeyond 3 "x => x.A.B" :=
    ⟨.grammar ⟨.tooDeep 3, ⟨9, 10⟩, .eof⟩, by cbv, ⟨9, 10⟩, .eof, rfl⟩
  have isRead : Term.ofText 4 "x => x.A.B" = .ok (.lambda ⟨0, 10⟩ ⟨⟨0, "x"⟩, ⟨0, 1⟩⟩ <|
      .member ⟨5, 10⟩ (.member ⟨5, 8⟩ (.ident ⟨5, 6⟩ ⟨0, "x"⟩) "A") "B") := by cbv
  have le : 2 ≤ 3 := by decide
  have le' : 4 ≤ 5 := by decide
  exact ⟨le, beyond, (nesting_limit_only_rejects le _).2.1 beyond, le', _, isRead,
    (nesting_limit_only_rejects le' _).2.2 _ isRead⟩

-- the limit is reached at the member, and the sign behind it is no token
example : Term.ofText 2 "x => x.A#" = .error (.lexical ⟨.unexpectedCharacter '#', ⟨8, 9⟩⟩) := by
  cbv

end LambdaQuery
