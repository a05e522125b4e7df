import LambdaQuery.Proofs.Term.Grammar
import LambdaQuery.Proofs.Term.RoundTrip
import Mathlib

/-!
# Reading follows the grammar

What is read from a text is a query by the grammar, with the tree that was read. The other way round,
a query by the grammar is read as its tree if the nesting limit is not below the number of tokens.
-/

namespace LambdaQuery

namespace Tokens

/-- The tokens in front of the end. -/
def words : Tokens → List Token
  | token first rest => first :: rest.words
  | done _ | fault _ => []

/-- Tokens in front of others. -/
def after (rest : Tokens) : List Token → Tokens
  | [] => rest
  | first :: front => token first (rest.after front)

@[simp] theorem after_nil (rest : Tokens) : rest.after [] = rest := rfl

@[simp] theorem after_cons (rest : Tokens) (first : Token) (front : List Token) :
    rest.after (first :: front) = token first (rest.after front) := rfl

@[simp] theorem after_append (rest : Tokens) (front back : List Token) :
    rest.after (front ++ back) = (rest.after back).after front := by
  induction front with
  | nil => rfl
  | cons first front ih => rw [List.cons_append, after_cons, after_cons, ih]

@[simp] theorem words_after (rest : Tokens) (front : List Token) :
    (rest.after front).words = front ++ rest.words := by
  induction front with
  | nil => rfl
  | cons first front ih => rw [after_cons, words, ih, List.cons_append]

theorem length_words (ts : Tokens) : ts.words.length = ts.length := by
  induction ts with
  | token first rest ih => rw [words, length, List.length_cons, ih]
  | done _ => rfl
  | fault _ => rfl

theorem eq_after_words {ts : Tokens} (noFault : ts.error? = none) :
    ∃ offset, ts = (done offset).after ts.words := by
  induction ts with
  | token first rest ih =>
    obtain ⟨offset, isRest⟩ := ih noFault
    exact ⟨offset, by rw [words, after_cons, ← isRest]⟩
  | done offset => exact ⟨offset, rfl⟩
  | fault error => cases noFault

theorem error?_significant (ts : Tokens) : ts.significant.error? = ts.error? := by
  induction ts with
  | token first rest ih =>
    rw [significant]
    split
    · exact ih
    · exact ih
  | done _ => rfl
  | fault _ => rfl

/-- The next token is the first one, unless it is the end. -/
theorem eq_token_of_peek {ts : Tokens} {first : Token} (peeked : ts.peek = .ok first)
    (notEnd : first.kind ≠ .eof) : ts = token first ts.tail := by
  cases ts with
  | token first' rest =>
    cases peeked
    rfl
  | done offset =>
    cases peeked
    exact absurd rfl notEnd
  | fault error => cases peeked

/-- No token is of the kind that stands for the end. -/
def Proper : Tokens → Prop
  | token first rest => first.kind ≠ .eof ∧ rest.Proper
  | done _ | fault _ => True

theorem proper_scan (offset : Nat) (cs : List Char) : (scan offset cs).Proper := by
  fun_induction scan offset cs with
  | case1 => trivial
  | case2 => trivial
  | case3 offset c cs l found stop ih => exact ⟨Lexeme.kind_ne_eof found, ih⟩

theorem Proper.significant {ts : Tokens} (h : ts.Proper) : ts.significant.Proper := by
  induction ts with
  | token first rest ih =>
    rw [Tokens.significant]
    split
    · exact ih h.2
    · exact ⟨h.1, ih h.2⟩
  | done _ => trivial
  | fault _ => trivial

theorem Proper.of_after {front : List Token} {rest : Tokens} (h : (rest.after front).Proper) :
    rest.Proper := by
  induction front with
  | nil => exact h
  | cons first front ih => exact ih h.2

theorem Proper.eq_done {ts : Tokens} {next : Token} (h : ts.Proper) (peeked : ts.peek = .ok next)
    (atEnd : next.kind = .eof) : ∃ offset, ts = done offset := by
  cases ts with
  | token first rest =>
    cases peeked
    exact absurd atEnd h.1
  | done offset => exact ⟨offset, rfl⟩
  | fault error => cases peeked

end Tokens

namespace Term

open Grammar

namespace Parser

variable {limit budget : Nat} {scope : Scope} {ts rest : Tokens} {t : Term Span}

/-! What is read is in the grammar. -/

/-- A rule that reads queries. -/
def ReadsQueries (scope : Scope) (rule : Rule) : Prop :=
  ∀ {ts rest : Tokens} {t : Term Span}, rule ts = .ok (t, rest) →
    ∃ front, ts = rest.after front ∧ Query scope front t

theorem members_derived {front : List Token} {receiver : Term Span}
    (onReceiver : Operand scope front receiver)
    (h : members limit budget receiver ts = .ok (t, rest)) :
    ∃ more, ts = rest.after more ∧ Operand scope (front ++ more) t := by
  induction budget generalizing front receiver ts with
  | zero =>
    rw [members] at h
    obtain ⟨next, _, h⟩ := ok_of_bind h
    split at h
    · obtain ⟨name, _, h⟩ := ok_of_bind h
      split at h
      · obtain ⟨_, _, h⟩ := ok_of_bind h
        cases h
      · cases h
    · cases h
      exact ⟨[], rfl, by simpa using onReceiver⟩
  | succ budget ih =>
    rw [members] at h
    obtain ⟨next, peeked, h⟩ := ok_of_bind h
    split at h
    · rename_i isDot
      obtain ⟨name, peeked', h⟩ := ok_of_bind h
      split at h
      · rename_i isIdent
        obtain ⟨more, isRest, onMember⟩ := ih (.member onReceiver isDot isIdent) h
        refine ⟨next :: name :: more, ?_, by simpa using onMember⟩
        rw [Tokens.eq_token_of_peek peeked (by simp [isDot]),
          Tokens.eq_token_of_peek peeked' (by simp [isIdent]), isRest]
        rfl
      · cases h
    · cases h
      exact ⟨[], rfl, by simpa using onReceiver⟩

theorem arguments_derived {query : Rule} (reads : ReadsQueries scope query) {function : Token}
    {opened : Span} {args : List (Term Span)} {stop : Nat}
    (h : arguments query function opened ts = .ok ((args, stop), rest)) :
    ∃ front closing, ts = (Tokens.token closing rest).after front ∧ closing.kind = .rparen ∧
      stop = closing.span.stop ∧ Arguments scope front args ∧ args ≠ [] := by
  fun_induction arguments query function opened ts generalizing args stop rest with
  | case1 ts ih =>
    obtain ⟨⟨arg, afterArg⟩, readArg, h⟩ := ok_of_bind h
    obtain ⟨next, peeked, h⟩ := ok_of_bind h
    obtain ⟨front, rfl, onArg⟩ := reads readArg
    split at h
    · rename_i isComma
      split at h
      · rename_i shorter
        obtain ⟨⟨⟨more, stop'⟩, afterMore⟩, readMore, h⟩ := ok_of_bind h
        cases h
        obtain ⟨back, closing, isRest, isClosing, isStop, onMore, some⟩ := ih afterArg shorter readMore
        cases more with
        | nil => exact absurd rfl some
        | cons other more =>
          refine ⟨front ++ next :: back, closing, ?_, isClosing, isStop, .more onArg isComma onMore,
            by simp⟩
          rw [Tokens.after_append, Tokens.after_cons, ← isRest,
            ← Tokens.eq_token_of_peek peeked (by simp [isComma])]
      · cases h
    · split at h
      · rename_i isClosing
        cases h
        refine ⟨front, next, ?_, isClosing, rfl, .last onArg, by simp⟩
        rw [← Tokens.eq_token_of_peek peeked (by simp [isClosing])]
      · cases h

theorem named_derived {query : Rule} (reads : ReadsQueries scope query) {name : Token}
    (isIdent : name.kind = .ident) (isFree : isLiteralKeyword name.text = false)
    (h : named query limit budget scope name ts = .ok (t, rest)) :
    ∃ front, Tokens.token name ts = rest.after front ∧ Operand scope front t := by
  rw [named] at h
  obtain ⟨next, peeked, h⟩ := ok_of_bind h
  split at h
  · rename_i isOpening
    have opens := Tokens.eq_token_of_peek peeked (by simp [isOpening])
    obtain ⟨first, peeked', h⟩ := ok_of_bind h
    split at h
    · rename_i isClosing
      have closes := Tokens.eq_token_of_peek peeked' (by simp [isClosing])
      have onCall : Operand scope [name, next, first] _ :=
        .call isIdent isFree isOpening .none isClosing
      obtain ⟨more, isRest, onWhole⟩ := members_derived onCall h
      refine ⟨_, ?_, onWhole⟩
      rw [opens, closes, isRest]
      rfl
    · obtain ⟨⟨⟨args, stop⟩, afterArgs⟩, readArgs, h⟩ := ok_of_bind h
      obtain ⟨front, closing, isTail, isClosing, rfl, onArgs, -⟩ := arguments_derived reads readArgs
      obtain ⟨more, rfl, onWhole⟩ :=
        members_derived (.call isIdent isFree isOpening onArgs isClosing) h
      refine ⟨_, ?_, onWhole⟩
      rw [opens, isTail]
      simp
  · split at h
    · rename_i symbol found
      obtain ⟨more, rfl, onWhole⟩ := members_derived (.parameter isIdent isFree found) h
      exact ⟨_, rfl, onWhole⟩
    · cases h

theorem operand_derived {query : Rule} (reads : ReadsQueries scope query)
    (h : operand query limit budget scope ts = .ok (t, rest)) :
    ∃ front, ts = rest.after front ∧ Operand scope front t := by
  rw [operand] at h
  obtain ⟨first, peeked, h⟩ := ok_of_bind h
  have begins := Tokens.eq_token_of_peek peeked
  -- an operand of one token
  have single {leaf : Term Span} (notEnd : first.kind ≠ .eof) (onLeaf : Operand scope [first] leaf)
      (h : members limit budget leaf ts.tail = .ok (t, rest)) :
      ∃ front, ts = rest.after front ∧ Operand scope front t := by
    obtain ⟨more, isRest, onWhole⟩ := members_derived onLeaf h
    refine ⟨_, ?_, onWhole⟩
    rw [begins notEnd, isRest]
    rfl
  split at h
  · rename_i isOpening
    obtain ⟨⟨inner, afterInner⟩, readInner, h⟩ := ok_of_bind h
    obtain ⟨close, peeked', h⟩ := ok_of_bind h
    obtain ⟨front, isTail, onInner⟩ := reads readInner
    split at h
    · rename_i isClosing
      obtain ⟨more, isRest, onWhole⟩ := members_derived (.paren isOpening onInner isClosing) h
      refine ⟨_, ?_, onWhole⟩
      rw [begins (by simp [isOpening]), isTail,
        Tokens.eq_token_of_peek peeked' (by simp [isClosing]), isRest]
      simp
    · cases h
  · rename_i isNumber
    exact single (by simp [isNumber]) (.literal (.inl isNumber)) h
  · rename_i isString
    exact single (by simp [isString]) (.literal (.inr isString)) h
  · rename_i isMinus
    obtain ⟨number, peeked', h⟩ := ok_of_bind h
    split at h
    · rename_i isNumber
      obtain ⟨more, isRest, onWhole⟩ := members_derived (.negative isMinus isNumber) h
      refine ⟨_, ?_, onWhole⟩
      rw [begins (by simp [isMinus]), Tokens.eq_token_of_peek peeked' (by simp [isNumber]), isRest]
      rfl
    · cases h
  · rename_i isIdent
    split at h
    · rename_i isTruth
      exact single (by simp [isIdent]) (.truth isIdent (by simpa using isTruth)) h
    · rename_i notTruth
      split at h
      · rename_i isNull
        exact single (by simp [isIdent]) (.null isIdent (by simpa using isNull)) h
      · rename_i notNull
        have isFree : isLiteralKeyword first.text = false := by
          rw [isLiteralKeyword, Bool.or_eq_false_iff]
          exact ⟨Bool.eq_false_iff.2 notTruth, Bool.eq_false_iff.2 notNull⟩
        rw [begins (by simp [isIdent])]
        exact named_derived reads isIdent isFree h
  · cases h

/-- No operator of at least the given precedence comes next. -/
def StopsBelow (least : Nat) (ts : Tokens) : Prop :=
  ∀ next op, ts.peek = .ok next → next.kind.operator? = some op → op.precedence < least

theorem head_of_stops {least : Nat} {front : List Token} {chain : Chain}
    (stops : StopsBelow least (rest.after front)) (onChain : Operations scope front chain) :
    ∀ link ∈ chain.head?, link.1.precedence < least := by
  cases onChain with
  | nil => simp
  | cons isOperator _ _ =>
    rintro link ⟨⟩
    exact stops _ _ rfl isOperator

mutual
theorem query_derived : ∀ (budget : Nat) {scope : Scope},
    ReadsQueries scope (query limit budget scope)
  | 0, _, _, _, _, h => by
    rw [query] at h
    obtain ⟨_, _, h⟩ := ok_of_bind h
    obtain ⟨_, _, h⟩ := ok_of_bind h
    cases h
  | budget + 1, scope, ts, rest, t, h => by
    have reads : ReadsQueries scope (query limit budget scope) := query_derived budget
    rw [query] at h
    obtain ⟨first, peeked, h⟩ := ok_of_bind h
    simp only at h
    split at h
    · rename_i isName
      have begins := Tokens.eq_token_of_peek peeked (by simp [isName.1])
      obtain ⟨next, peeked', h⟩ := ok_of_bind h
      split at h
      · rename_i isArrow
        obtain ⟨⟨body, afterBody⟩, readBody, h⟩ := ok_of_bind h
        cases h
        obtain ⟨front, isTail, onBody⟩ := query_derived budget readBody
        refine ⟨first :: next :: front, ?_, .lambda isName.1 isName.2 isArrow onBody⟩
        rw [begins, Tokens.eq_token_of_peek peeked' (by simp [isArrow]), isTail]
        rfl
      · obtain ⟨⟨left, afterLeft⟩, readLeft, h⟩ := ok_of_bind h
        obtain ⟨front, isFront, onLeft⟩ := named_derived reads isName.1 isName.2 readLeft
        obtain ⟨back, chain, isBack, onChain, rfl, -, -⟩ := operators_derived budget h
        exact ⟨front ++ back, by rw [begins, isFront, Tokens.after_append, ← isBack],
          .expression onLeft onChain⟩
    · obtain ⟨⟨left, afterLeft⟩, readLeft, h⟩ := ok_of_bind h
      obtain ⟨front, isFront, onLeft⟩ := operand_derived reads readLeft
      obtain ⟨back, chain, isBack, onChain, rfl, -, -⟩ := operators_derived budget h
      exact ⟨front ++ back, by rw [isFront, Tokens.after_append, ← isBack],
        .expression onLeft onChain⟩

/-- The operators that are read bind strongly enough, the next one does not, and the tree is the
folded one. -/
theorem operators_derived : ∀ (budget : Nat) {least : Nat} {scope : Scope} {left t : Term Span}
    {ts rest : Tokens}, operators limit budget scope least left ts = .ok (t, rest) →
    ∃ front chain, ts = rest.after front ∧ Operations scope front chain ∧ t = fold left chain ∧
      (∀ link ∈ chain, least ≤ link.1.precedence) ∧ StopsBelow least rest
  | budget, least, scope, left, t, ts, rest, h => by
    rw [operators.eq_def] at h
    obtain ⟨next, peeked, h⟩ := ok_of_bind h
    have stopped (stops : StopsBelow least ts)
        (h : (.ok (left, ts) : Except ParseError (Term Span × Tokens)) = .ok (t, rest)) :
        ∃ front chain, ts = rest.after front ∧ Operations scope front chain ∧ t = fold left chain ∧
          (∀ link ∈ chain, least ≤ link.1.precedence) ∧ StopsBelow least rest := by
      cases h
      exact ⟨[], [], rfl, .nil, by simp, by simp, stops⟩
    split at h
    · rename_i noOperator
      refine stopped (fun next' op peeked' isOperator => ?_) h
      rw [peeked] at peeked'
      cases peeked'
      rw [noOperator] at isOperator
      cases isOperator
    · rename_i op isOperator
      split at h
      · rename_i tooWeak
        refine stopped (fun next' op' peeked' isOperator' => ?_) h
        rw [peeked] at peeked'
        cases peeked'
        rw [isOperator] at isOperator'
        cases isOperator'
        exact tooWeak
      · rename_i strong
        cases budget with
        | zero =>
          obtain ⟨_, _, h⟩ := ok_of_bind h
          cases h
        | succ budget =>
          obtain ⟨⟨first, afterFirst⟩, readFirst, h⟩ := ok_of_bind h
          obtain ⟨⟨right, afterRight⟩, readRight, h⟩ := ok_of_bind h
          obtain ⟨front, isTail, onFirst⟩ := operand_derived (query_derived budget) readFirst
          obtain ⟨front₁, inner, rfl, onInner, rfl, stronger, stops⟩ :=
            operators_derived budget readRight
          obtain ⟨front₂, chain, rfl, onChain, rfl, enough, stops'⟩ := operators_derived budget h
          have notEnd : next.kind ≠ .eof := by
            intro atEnd
            rw [atEnd] at isOperator
            cases isOperator
          refine ⟨next :: (front ++ (front₁ ++ front₂)), (op, first) :: (inner ++ chain), ?_,
            .cons isOperator onFirst (onChain.append onInner), ?_, ?_, stops'⟩
          · rw [Tokens.eq_token_of_peek peeked notEnd, isTail]
            simp
          · refine (fold_cons left stronger fun link mem => ?_).symm
            exact Nat.le_of_lt_succ (head_of_stops stops onChain link mem)
          · intro link mem
            rcases List.mem_cons.1 mem with rfl | mem
            · exact Nat.not_lt.1 strong
            · rcases List.mem_append.1 mem with inInner | inChain
              · have := stronger link inInner
                omega
              · exact enough link inChain
end

/-! What is in the grammar is read. -/

/-- The next token ends a query. -/
def Closes (ts : Tokens) : Prop :=
  ∃ next, ts.peek = .ok next ∧ (next.kind = .rparen ∨ next.kind = .comma ∨ next.kind = .eof)

/-- The next token does not go on with a name that was read. -/
def Follows (ts : Tokens) : Prop :=
  ∃ next, ts.peek = .ok next ∧ next.kind ≠ .lparen ∧ next.kind ≠ .arrow

theorem Closes.next (closes : Closes ts) :
    ∃ next, ts.peek = .ok next ∧ next.kind ≠ .dot ∧ next.kind.operator? = none := by
  obtain ⟨next, peeked, isKind⟩ := closes
  refine ⟨next, peeked, ?_⟩
  rcases isKind with isKind | isKind | isKind <;> simp [isKind, TokenKind.operator?]

theorem operations_follow {front : List Token} {chain : Chain} (closes : Closes rest)
    (onChain : Operations scope front chain) :
    Follows (rest.after front) ∧ ∃ next, (rest.after front).peek = .ok next ∧ next.kind ≠ .dot := by
  cases onChain with
  | nil =>
    obtain ⟨next, peeked, isKind⟩ := closes
    refine ⟨⟨next, peeked, ?_⟩, next, peeked, ?_⟩ <;>
      rcases isKind with isKind | isKind | isKind <;> simp [isKind]
  | @cons _ sign _ _ _ _ _ isOperator _ _ =>
    have apart (kind : TokenKind) (noOperator : kind.operator? = none) : sign.kind ≠ kind := by
      intro isKind
      rw [isKind, noOperator] at isOperator
      cases isOperator
    exact ⟨⟨sign, rfl, apart _ rfl, apart _ rfl⟩, sign, rfl, apart _ rfl⟩

theorem operand_length_pos {front : List Token} (h : Operand scope front t) : 0 < front.length := by
  cases h <;> simp

theorem operand_plain : ∀ {front : List Token} {t : Term Span} {rest : Tokens},
    Operand scope front t → Follows rest → Plain (rest.after front)
  | _, _, _, .paren isOpening _ _, _ => ⟨_, rfl, by simp [isOpening]⟩
  | _, _, _, .call _ _ isOpening _ _, _ => ⟨_, rfl, fun _ _ => ⟨_, rfl, by simp [isOpening]⟩⟩
  | _, _, _, .parameter _ _ _, ⟨next, peeked, _, notArrow⟩ =>
    ⟨_, rfl, fun _ _ => ⟨next, peeked, notArrow⟩⟩
  | _, _, _, .literal isKind, _ => ⟨_, rfl, by rcases isKind with isKind | isKind <;> simp [isKind]⟩
  | _, _, _, .negative isMinus _, _ => ⟨_, rfl, by simp [isMinus]⟩
  | _, _, _, .truth _ isTruth, _ =>
    ⟨_, rfl, by rcases isTruth with isTruth | isTruth <;> simp [isTruth, isLiteralKeyword]⟩
  | _, _, _, .null _ isNull, _ => ⟨_, rfl, by simp [isNull, isLiteralKeyword]⟩
  | _, _, _, .member onReceiver isDot _, _ => by
    rw [Tokens.after_append]
    exact operand_plain onReceiver ⟨_, rfl, by simp [isDot], by simp [isDot]⟩
termination_by front => front.length
decreasing_by simp

/-- Queries of up to so many tokens are read. -/
def ReadsDerived (limit budget : Nat) (scope : Scope) : Prop :=
  ∀ {front : List Token} {t : Term Span} (rest : Tokens), Query scope front t →
    front.length ≤ budget → Closes rest → query limit budget scope (rest.after front) = .ok (t, rest)

theorem arguments_reads_derived (reads : ReadsDerived limit budget scope) (function : Token)
    (opened : Span) (rest : Tokens) {closing : Token} (isClosing : closing.kind = .rparen) :
    ∀ {front : List Token} {args : List (Term Span)}, Arguments scope front args → args ≠ [] →
    front.length ≤ budget →
    arguments (query limit budget scope) function opened ((Tokens.token closing rest).after front) =
      .ok ((args, closing.span.stop), rest)
  | _, _, .none, notNil, _ => absurd rfl notNil
  | _, _, .last onArg, _, fits => by
    rw [arguments]
    have isRead := reads (.token closing rest) onArg fits ⟨closing, rfl, .inl isClosing⟩
    simp [isRead, bind, Except.bind, Tokens.peek, Tokens.tail, isClosing]
  | _, _, @Arguments.more _ ts ts' comma _ _ _ onArg isComma onMore, _, fits => by
    simp only [List.length_append, List.length_cons] at fits
    have areRead := arguments_reads_derived reads function opened rest isClosing onMore (by simp)
      (by omega)
    have isRead := reads (.token comma ((Tokens.token closing rest).after ts')) onArg (by omega)
      ⟨comma, rfl, .inr (.inl isComma)⟩
    have shorter : ((Tokens.token closing rest).after ts').length <
        ((Tokens.token closing rest).after (ts ++ comma :: ts')).length := by
      simp only [← Tokens.length_words, Tokens.words_after, List.length_append, List.length_cons]
      omega
    rw [arguments]
    simp only [Tokens.after_append, Tokens.after_cons] at shorter ⊢
    simp [isRead, bind, Except.bind, Tokens.peek, Tokens.tail, isComma, shorter, areRead]
termination_by front => front.length
decreasing_by
  simp only [List.length_append, List.length_cons]
  omega

theorem operand_reads_derived (reads : ReadsDerived limit budget scope) : ∀ {front : List Token}
    {t : Term Span} (rest : Tokens), Operand scope front t → front.length ≤ budget + 1 →
    Follows rest → ∃ left, operand (query limit budget scope) limit budget scope (rest.after front) =
      members limit left t rest ∧ budget < left + front.length
  | _, _, rest, @Operand.paren _ opening closing ts _ isOpening onInner isClosing, fits, _ => by
    simp only [List.length_append, List.length_cons, List.length_nil] at fits
    have isRead := reads (.token closing rest) onInner (by omega) ⟨closing, rfl, .inl isClosing⟩
    refine ⟨budget, ?_, by simp⟩
    simp [operand, Tokens.peek, Tokens.tail, bind, Except.bind, isOpening, isRead, isClosing]
  | _, _, rest, @Operand.call _ name opening closing ts args isIdent isFree isOpening onArgs isClosing,
      fits, _ => by
    simp only [List.length_append, List.length_cons, List.length_nil] at fits
    refine ⟨budget, ?_, by simp⟩
    rw [Tokens.after_cons, operand_name rfl isIdent isFree]
    cases args with
    | nil =>
      cases onArgs
      simp [named, Tokens.peek, Tokens.tail, bind, Except.bind, isOpening, isClosing]
    | cons arg args =>
      have areRead := arguments_reads_derived reads name opening.span rest isClosing onArgs (by simp)
        (by omega)
      obtain ⟨next, peeked, notClosing⟩ := peek_of_arguments areRead
      have opens : (Tokens.token opening ((Tokens.token closing rest).after ts)).peek = .ok opening :=
        rfl
      simp [named, opens, bind, Except.bind, isOpening, peeked, notClosing, areRead, Tokens.tail]
  | _, _, rest, .parameter isIdent isFree found, _, ⟨next, peeked, notOpening, _⟩ => by
    refine ⟨budget, ?_, by simp⟩
    rw [Tokens.after_cons, operand_name rfl isIdent isFree]
    simp [named, Tokens.tail, peeked, bind, Except.bind, notOpening, found]
  | _, _, rest, .literal isKind, _, _ => by
    refine ⟨budget, ?_, by simp⟩
    rcases isKind with isKind | isKind <;>
      simp [operand, Tokens.peek, Tokens.tail, bind, Except.bind, isKind]
  | _, _, rest, .negative isMinus isNumber, _, _ => by
    refine ⟨budget, ?_, by simp⟩
    simp [operand, Tokens.peek, Tokens.tail, bind, Except.bind, isMinus, isNumber]
  | _, _, rest, .truth isIdent isTruth, _, _ => by
    refine ⟨budget, ?_, by simp⟩
    rcases isTruth with isTruth | isTruth <;>
      simp [operand, Tokens.peek, Tokens.tail, bind, Except.bind, isIdent, isTruth]
  | _, _, rest, .null isIdent isNull, _, _ => by
    refine ⟨budget, ?_, by simp⟩
    simp [operand, Tokens.peek, Tokens.tail, bind, Except.bind, isIdent, isNull]
  | _, _, rest, @Operand.member _ ts dot name receiver onReceiver isDot isIdent, fits, _ => by
    simp only [List.length_append, List.length_cons, List.length_nil] at fits ⊢
    obtain ⟨left, isRead, levels⟩ := operand_reads_derived reads (.token dot (.token name rest))
      onReceiver (by omega) ⟨dot, rfl, by simp [isDot], by simp [isDot]⟩
    obtain ⟨left, rfl⟩ : ∃ l, left = l + 1 := ⟨left - 1, by omega⟩
    refine ⟨left, ?_, by omega⟩
    rw [Tokens.after_append, Tokens.after_cons, Tokens.after_cons, Tokens.after_nil, isRead, members]
    simp [Tokens.peek, Tokens.tail, bind, Except.bind, isDot, isIdent]
termination_by front => front.length
decreasing_by simp

mutual
theorem query_reads_derived : ∀ (budget : Nat) {scope : Scope}, ReadsDerived limit budget scope
  | 0, _, _, _, _, onQuery, fits, _ => by
    cases onQuery with
    | lambda _ _ _ _ => simp at fits
    | expression onFirst _ =>
      have := operand_length_pos onFirst
      rw [List.length_append] at fits
      omega
  | budget + 1, scope, _, _, rest, onQuery, fits, closes => by
    have reads : ReadsDerived limit budget scope := query_reads_derived budget
    cases onQuery with
    | lambda isIdent isFree isArrow onBody =>
      simp only [List.length_cons] at fits
      have isRead := query_reads_derived budget rest onBody (by omega) closes
      rw [query]
      simp [Tokens.peek, Tokens.tail, bind, Except.bind, isIdent, isFree, isArrow, isRead]
    | @expression _ front back first chain onFirst onChain =>
      have positive := operand_length_pos onFirst
      rw [List.length_append] at fits
      obtain ⟨follows, next, peeked, notDot⟩ := operations_follow closes onChain
      obtain ⟨left, isRead, -⟩ := operand_reads_derived reads _ onFirst (by omega) follows
      obtain ⟨others, taken, remaining, rfl, onRemaining, -, -, below, areRead⟩ :=
        operators_reads_derived budget 0 first rest onChain (by omega) closes
      have isNil : remaining = [] := by
        cases remaining with
        | nil => rfl
        | cons link _ => exact absurd (below link rfl) (Nat.not_lt_zero _)
      subst isNil
      cases onRemaining
      rw [Tokens.after_append, query_plain (operand_plain onFirst follows), isRead,
        members_stop peeked notDot, List.append_nil]
      exact areRead

/-- Of the operators that come next, the ones in front of the first that binds too weakly are taken,
and the tree is the folded one. -/
theorem operators_reads_derived : ∀ (budget least : Nat) {scope : Scope} (left : Term Span)
    {front : List Token} {chain : Chain} (rest : Tokens), Operations scope front chain →
    front.length ≤ budget → Closes rest →
    ∃ back taken remaining, chain = taken ++ remaining ∧ Operations scope back remaining ∧
      back.length ≤ front.length ∧ (∀ link ∈ taken, least ≤ link.1.precedence) ∧
      (∀ link ∈ remaining.head?, link.1.precedence < least) ∧
      operators limit budget scope least left (rest.after front) =
        .ok (fold left taken, rest.after back)
  | budget, least, scope, left, _, _, rest, onChain, fits, closes => by
    cases onChain with
    | nil =>
      obtain ⟨next, peeked, -, noOperator⟩ := closes.next
      refine ⟨[], [], [], rfl, .nil, Nat.le_refl _, by simp, by simp, ?_⟩
      rw [fold_nil]
      exact operators_stop peeked noOperator
    | @cons _ sign op ts ts' operand chain isOperator onOperand onChain =>
      by_cases weak : op.precedence < least
      · refine ⟨_, [], _, rfl, .cons isOperator onOperand onChain, Nat.le_refl _, by simp, ?_, ?_⟩
        · rintro link ⟨⟩
          exact weak
        · rw [operators.eq_def]
          simp [Tokens.peek, bind, Except.bind, isOperator, weak]
      · simp only [List.length_cons, List.length_append] at fits ⊢
        obtain ⟨budget, rfl⟩ : ∃ b, budget = b + 1 := ⟨budget - 1, by omega⟩
        obtain ⟨follows, next, peeked, notDot⟩ := operations_follow closes onChain
        obtain ⟨levels, isRead, -⟩ := operand_reads_derived (query_reads_derived budget) _ onOperand
          (by omega) follows
        obtain ⟨back, inner, middle, rfl, onMiddle, shorter, stronger, below, isRight⟩ :=
          operators_reads_derived budget (op.precedence + 1) operand rest onChain (by omega) closes
        obtain ⟨back', taken, remaining, rfl, onRemaining, shorter', strong, below', isTree⟩ :=
          operators_reads_derived budget least (.binary (left.note.merge (fold operand inner).note) op
            left (fold operand inner)) rest onMiddle (by omega) closes
        have head : ∀ link ∈ taken.head?, link.1.precedence ≤ op.precedence := by
          intro link mem
          refine Nat.le_of_lt_succ (below link ?_)
          rw [List.head?_append, Option.mem_def.1 mem]
          rfl
        refine ⟨back', (op, operand) :: (inner ++ taken), remaining, by simp, onRemaining, by omega, ?_,
          below', ?_⟩
        · intro link mem
          rcases List.mem_cons.1 mem with rfl | mem
          · exact Nat.not_lt.1 weak
          · rcases List.mem_append.1 mem with inInner | inTaken
            · have := stronger link inInner
              omega
            · exact strong link inTaken
        · rw [operators, fold_cons left stronger head]
          simp [Tokens.peek, Tokens.tail, bind, Except.bind, isOperator, weak, isRead,
            members_stop peeked notDot, isRight, isTree]
end

/-! A tree is not higher than its tokens are many. -/

theorem height_withNote (note : Span) (t : Term Span) : (t.withNote note).height = t.height := by
  cases t <;> rfl

theorem height_fold (first : Term Span) (chain : Chain) : (fold first chain).height ≤
    first.height + (chain.map fun link => link.2.height + 1).sum := by
  fun_induction fold first chain with
  | case1 => simp
  | case2 first chain before op operand behind isSplit left right onLeft onRight =>
    obtain ⟨rfl, -, -⟩ := of_weakest? isSplit
    show max (fold first before).height (fold operand behind).height + 1 ≤ _
    simp only [List.map_append, List.map_cons, List.sum_append, List.sum_cons]
    omega

mutual
theorem height_le_of_query : ∀ {scope : Scope} {front : List Token} {t : Term Span},
    Query scope front t → t.height ≤ front.length
  | _, _, _, .lambda _ _ _ onBody => by
    have := height_le_of_query onBody
    simp only [height, List.length_cons]
    omega
  | _, _, _, @Query.expression _ _ _ first chain onFirst onChain => by
    have := height_le_of_operand onFirst
    have := heights_le_of_operations onChain
    have := height_fold first chain
    rw [List.length_append]
    omega

theorem heights_le_of_operations : ∀ {scope : Scope} {front : List Token} {chain : Chain},
    Operations scope front chain → (chain.map fun link => link.2.height + 1).sum ≤ front.length
  | _, _, _, .nil => Nat.le_refl _
  | _, _, _, .cons _ onOperand onChain => by
    have := height_le_of_operand onOperand
    have := heights_le_of_operations onChain
    simp only [List.map_cons, List.sum_cons, List.length_cons, List.length_append]
    omega

theorem height_le_of_operand : ∀ {scope : Scope} {front : List Token} {t : Term Span},
    Operand scope front t → t.height ≤ front.length
  | _, _, _, .paren _ onInner _ => by
    have := height_le_of_query onInner
    rw [height_withNote]
    simp only [List.length_cons, List.length_append]
    omega
  | _, _, _, .call _ _ _ onArgs _ => by
    have := heightAll_le_of_arguments onArgs
    simp only [height, List.length_cons, List.length_append]
    omega
  | _, _, _, .parameter _ _ _ => Nat.le_refl _
  | _, _, _, .literal _ => Nat.le_refl _
  | _, _, _, .negative _ _ => by simp [height]
  | _, _, _, .truth _ _ => Nat.le_refl _
  | _, _, _, .null _ _ => Nat.le_refl _
  | _, _, _, .member onReceiver _ _ => by
    have := height_le_of_operand onReceiver
    simp only [height, List.length_cons, List.length_append, List.length_nil]
    omega

theorem heightAll_le_of_arguments : ∀ {scope : Scope} {front : List Token} {args : List (Term Span)},
    Arguments scope front args → heightAll args ≤ front.length
  | _, _, _, .none => Nat.le_refl _
  | _, _, _, .last onArg => by
    have := height_le_of_query onArg
    simpa [heightAll] using this
  | _, _, _, .more onArg _ onMore => by
    have := height_le_of_query onArg
    have := heightAll_le_of_arguments onMore
    rw [heightAll, List.length_append, List.length_cons]
    omega
end

end Parser

theorem query_of_ofText {limit : Nat} {text : String} {t : Term Span}
    (h : ofText limit text = .ok t) : Query [] (Tokens.ofText text).significant.words t := by
  rw [ofText] at h
  obtain ⟨⟨tree, rest⟩, isRead, h⟩ := ok_of_bind h
  obtain ⟨next, peeked, h⟩ := ok_of_bind h
  split at h
  · cases h
  · rename_i atEnd
    split at h
    · cases h
    · cases h
      obtain ⟨front, isFront, onQuery⟩ := Parser.query_derived limit isRead
      have proper := (Tokens.proper_scan 0 text.toList).significant
      change (Tokens.ofText text).significant.Proper at proper
      rw [isFront] at proper
      obtain ⟨offset, rfl⟩ := proper.of_after.eq_done peeked (Decidable.not_not.1 atEnd)
      rw [isFront, Tokens.words_after, Tokens.words, List.append_nil]
      exact onQuery

theorem ofText_of_query {limit : Nat} {text : String} {t : Term Span}
    (noFault : (Tokens.ofText text).error? = none)
    (enough : (Tokens.ofText text).significant.words.length ≤ limit)
    (onQuery : Query [] (Tokens.ofText text).significant.words t) : ofText limit text = .ok t := by
  rw [← Tokens.error?_significant] at noFault
  obtain ⟨offset, isWhole⟩ := Tokens.eq_after_words noFault
  have isRead : Parser.query limit limit [] _ = .ok (t, .done offset) :=
    Parser.query_reads_derived limit _ onQuery enough ⟨_, rfl, .inr (.inr rfl)⟩
  rw [← isWhole] at isRead
  have := Parser.height_le_of_query onQuery
  have fits : Parser.tooTall? limit 1 t = none := Parser.tooTall?_eq_none (by omega)
  simp [ofText, isRead, bind, Except.bind, Tokens.peek, fits]

end Term

/-- If a text can be split into tokens, and the nesting limit is not below their number, the text is
read as a tree just if its tokens are a query with this tree. -/
theorem ofText_iff_query {limit : Nat} {text : String} (noFault : (Tokens.ofText text).error? = none)
    (enough : (Tokens.ofText text).significant.words.length ≤ limit) (t : Term Span) :
    Term.ofText limit text = .ok t ↔
      Term.Grammar.Query [] (Tokens.ofText text).significant.words t := by
  constructor
  · exact Term.query_of_ofText
  · exact Term.ofText_of_query noFault enough

/-- Operators of three precedences, two of them the same, and a sign in front of a number. -/
def differenceText : String := "x => x.A - -1 * F(x) - 2 = x.B"

def differenceTree : Term Span :=
  .lambda ⟨0, 30⟩ ⟨⟨0, "x"⟩, ⟨0, 1⟩⟩ <| .binary ⟨5, 30⟩ .eq
    (.binary ⟨5, 24⟩ .sub
      (.binary ⟨5, 20⟩ .sub (.member ⟨5, 8⟩ (.ident ⟨5, 6⟩ ⟨0, "x"⟩) "A")
        (.binary ⟨11, 20⟩ .mul (.literal ⟨11, 13⟩ (some "-1"))
          (.call ⟨16, 20⟩ "F" [.ident ⟨18, 19⟩ ⟨0, "x"⟩])))
      (.literal ⟨23, 24⟩ (some "2")))
    (.member ⟨27, 30⟩ (.ident ⟨27, 28⟩ ⟨0, "x"⟩) "B")

theorem ofText_iff_query_difference : (Tokens.ofText differenceText).error? = none ∧
    (Tokens.ofText differenceText).significant.words.length ≤ 19 ∧
    Term.ofText 19 differenceText = .ok differenceTree ∧
    Term.Grammar.Query [] (Tokens.ofText differenceText).significant.words differenceTree := by
  have noFault : (Tokens.ofText differenceText).error? = none := by cbv
  have enough : (Tokens.ofText differenceText).significant.words.length ≤ 19 := by cbv
  have isRead : Term.ofText 19 differenceText = .ok differenceTree := by cbv
  exact ⟨noFault, enough, isRead, (ofText_iff_query noFault enough differenceTree).1 isRead⟩

end LambdaQuery
