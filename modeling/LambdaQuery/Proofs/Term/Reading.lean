import LambdaQuery.Proofs.Token.Spelling
import LambdaQuery.Term.Alpha
import Mathlib

/-!
# Reading what was written

A tree that was written is read again, up to where its nodes stand in the text and to which symbols
its parameters have. The text may go on behind the tree, and the nesting limit has to be twice the
height of the tree: an operand in parentheses takes one level for the parentheses and one for the
operator in them.
-/

namespace LambdaQuery

open Token

namespace Term

variable {α β : Type}

mutual
/-- The number of nodes on the longest way down. -/
def height : Term α → Nat
  | lambda _ _ body => height body + 1
  | binary _ _ left right => max (height left) (height right) + 1
  | call _ _ args => heightAll args + 1
  | member _ receiver _ => height receiver + 1
  | ident .. | literal .. => 1

def heightAll : List (Term α) → Nat
  | [] => 0
  | arg :: rest => max (height arg) (heightAll rest)
end

mutual
/-- What is written of a tree: its notes are left out, and parameters of one name are one. -/
def spelling : Term α → Term Unit
  | lambda _ param body => lambda () ⟨⟨0, param.symbol.name⟩, ()⟩ (spelling body)
  | binary _ op left right => binary () op (spelling left) (spelling right)
  | call _ name args => call () name (spellingAll args)
  | member _ receiver name => member () (spelling receiver) name
  | ident _ symbol => ident () ⟨0, symbol.name⟩
  | literal _ text => literal () text

def spellingAll : List (Term α) → List (Term Unit)
  | [] => []
  | arg :: rest => spelling arg :: spellingAll rest
end

mutual
/-- Parameters and functions have names that may be given to them, members have names, and of the
parameters around an identifier the innermost with its name is the one it stands for. -/
def WellNamed (binders : List Symbol) : Term α → Prop
  | lambda _ param body => IsFreeName param.symbol.name ∧ WellNamed (param.symbol :: binders) body
  | binary _ _ left right => WellNamed binders left ∧ WellNamed binders right
  | call _ name args => IsFreeName name ∧ WellNamedAll binders args
  | member _ receiver name => IsName name ∧ WellNamed binders receiver
  | ident _ symbol => ∃ distance, refer binders symbol = .bound distance ∧
      binders.findIdx? (fun param => param.name == symbol.name) = some distance
  | literal .. => True

def WellNamedAll (binders : List Symbol) : List (Term α) → Prop
  | [] => True
  | arg :: rest => WellNamed binders arg ∧ WellNamedAll binders rest
end

theorem height_pos (t : Term α) : 0 < t.height := by
  cases t <;> simp [height]

@[simp] theorem spelling_withNote (note : α) (t : Term α) :
    (t.withNote note).spelling = t.spelling := by
  cases t <;> rfl

mutual
theorem height_spelling : ∀ t : Term α, t.spelling.height = t.height
  | lambda _ _ body => by rw [spelling, height, height, height_spelling body]
  | binary _ _ left right => by
    rw [spelling, height, height, height_spelling left, height_spelling right]
  | call _ _ args => by rw [spelling, height, height, heightAll_spellingAll args]
  | member _ receiver _ => by rw [spelling, height, height, height_spelling receiver]
  | ident .. => rfl
  | literal .. => rfl

theorem heightAll_spellingAll : ∀ ts : List (Term α), heightAll (spellingAll ts) = heightAll ts
  | [] => rfl
  | t :: ts => by
    rw [spellingAll, heightAll, heightAll, height_spelling t, heightAll_spellingAll ts]
end

namespace Parser

variable {limit budget : Nat} {scope : Scope} {ts rest : Tokens} {cs : List Char} {t : Term α}
  {binders : List Symbol}

/-! Where the rules stop. -/

theorem members_stop {next : Token} {t : Term Span} (peeked : ts.peek = .ok next)
    (notDot : next.kind ≠ .dot) : members limit budget t ts = .ok (t, ts) := by
  rw [members.eq_def]
  simp [peeked, bind, Except.bind, notDot]

theorem operators_stop {next : Token} {t : Term Span} {least : Nat} (peeked : ts.peek = .ok next)
    (noOperator : next.kind.operator? = none) :
    operators limit budget scope least t ts = .ok (t, ts) := by
  rw [operators.eq_def]
  simp [peeked, bind, Except.bind, noOperator]

theorem peek_of_ends (ends : EndsQuery cs) (h : ts.Spells cs) : ∃ next, ts.peek = .ok next ∧
    next.kind ≠ .dot ∧ next.kind.operator? = none := by
  cases ends with
  | done =>
    obtain ⟨offset, rfl⟩ := h
    rw [Tokens.scan_nil]
    exact ⟨_, rfl, by simp, rfl⟩
  | close =>
    obtain ⟨first, rest, rfl, isKind, _⟩ := h.sign rfl (by decide)
    exact ⟨first, rfl, by simp [isKind], by rw [isKind]; rfl⟩
  | comma =>
    obtain ⟨first, rest, rfl, isKind, _⟩ := h.sign rfl (by decide)
    exact ⟨first, rfl, by simp [isKind], by rw [isKind]; rfl⟩

theorem peek_of_follows (follows : FollowsOperand cs) (h : ts.Spells cs) : ∃ next,
    ts.peek = .ok next ∧ next.kind ≠ .arrow ∧ next.kind ≠ .lparen := by
  have apart {kind : TokenKind} (h : kind = .dot ∨ kind.operator? ≠ none) :
      kind ≠ .arrow ∧ kind ≠ .lparen := by
    constructor <;> rintro rfl <;> simp [TokenKind.operator?] at h
  cases follows with
  | ends ends =>
    cases ends with
    | done =>
      obtain ⟨offset, rfl⟩ := h
      rw [Tokens.scan_nil]
      exact ⟨_, rfl, by simp, by simp⟩
    | close | comma =>
      obtain ⟨first, rest, rfl, isKind, _⟩ := h.sign rfl (by decide)
      exact ⟨first, rfl, by simp [isKind], by simp [isKind]⟩
  | operator =>
    obtain ⟨kind, isOperator, first, rest, rfl, isKind, _⟩ := h.operator
    exact ⟨first, rfl, apart (.inr (by simp [isKind, isOperator]))⟩
  | member =>
    obtain ⟨first, rest, rfl, isKind, _⟩ := h.sign rfl (by decide)
    exact ⟨first, rfl, apart (.inl isKind)⟩

/-! What is read. -/

/-- The rule reads the tree, as far as it is written, and leaves the tokens of the text behind. -/
def Reads (rule : Rule) (t : Term α) (ts : Tokens) (cs : List Char) : Prop :=
  ∃ t' rest, rule ts = .ok (t', rest) ∧ t'.spelling = t.spelling ∧ rest.Spells cs ∧
    rest.length < ts.length

/-- The same of an operand, behind which members may be read. These have fewer levels of the budget
to go than there were, but not by more than the operand is high. -/
def ReadsOperand (limit budget : Nat) (scope : Scope) (t : Term α) (ts : Tokens)
    (cs : List Char) : Prop :=
  ∃ t' rest left, operand (query limit budget scope) limit budget scope ts =
      members limit left t' rest ∧ t'.spelling = t.spelling ∧ rest.Spells cs ∧
    rest.length < ts.length ∧ budget < left + t.height

/-- No lambda starts here. -/
def Plain (ts : Tokens) : Prop :=
  ∃ first, ts.peek = .ok first ∧ (first.kind = .ident → isLiteralKeyword first.text = false →
    ∃ next, ts.tail.peek = .ok next ∧ next.kind ≠ .arrow)

/-- A query that is written under parameters of the given names can be read there. -/
def ReadableQuery (binders : List Symbol) (t : Term α) : Prop :=
  ∀ (limit budget : Nat) {scope : Scope} {ts : Tokens} {cs : List Char},
    scope.map Symbol.name = binders.map Symbol.name → 2 * t.height ≤ budget → EndsQuery cs →
    ts.Spells (t.sourceChars ++ cs) → Reads (query limit budget scope) t ts cs

/-- The same as an operand. If it needs no parentheses, it does with one level less. -/
def ReadableOperand (binders : List Symbol) (t : Term α) : Prop :=
  ∀ (limit budget : Nat) {scope : Scope} {ts : Tokens} {cs : List Char},
    scope.map Symbol.name = binders.map Symbol.name →
    2 * t.height ≤ budget + (if t.isCompound then 0 else 1) → FollowsOperand cs →
    ts.Spells (enclose t.isCompound t.sourceChars ++ cs) →
    Plain ts ∧ ReadsOperand limit budget scope t ts cs

structure Readable (binders : List Symbol) (t : Term α) : Prop where
  query : ReadableQuery binders t
  operand : ReadableOperand binders t

theorem operand_name {rule : Rule} {first : Token} (peeked : ts.peek = .ok first)
    (isIdent : first.kind = .ident) (isFree : isLiteralKeyword first.text = false) :
    operand rule limit budget scope ts = named rule limit budget scope first ts.tail := by
  simp only [isLiteralKeyword, Bool.or_eq_false_iff] at isFree
  simp [operand, peeked, bind, Except.bind, isIdent, isFree]

/-- Where no lambda starts, an operand is read and operators behind it. -/
theorem query_plain (plain : Plain ts) : query limit (budget + 1) scope ts =
    (operand (query limit budget scope) limit budget scope ts >>= fun read =>
      operators limit budget scope 0 read.1 read.2) := by
  obtain ⟨first, peeked, noArrow⟩ := plain
  rw [query]
  simp only [peeked, bind, Except.bind]
  by_cases isName : first.kind = .ident ∧ isLiteralKeyword first.text = false
  · obtain ⟨next, peeked', notArrow⟩ := noArrow isName.1 isName.2
    rw [if_pos isName, operand_name peeked isName.1 isName.2]
    simp only [peeked', if_neg notArrow]
  · rw [if_neg isName]

/-- What is in parentheses is read as a query. -/
theorem operand_of_query (compound : t.isCompound = true) (reads : ReadableQuery binders t) :
    ReadableOperand binders t := by
  intro limit budget scope ts cs names enough follows spelled
  simp only [compound, if_true, Nat.add_zero] at enough
  have enclosed : ts.Spells ('(' :: (t.sourceChars ++ ')' :: cs)) := by
    simpa [compound, enclose] using spelled
  obtain ⟨first, inside, rfl, isOpen, -, spelled'⟩ := enclosed.sign rfl (by decide)
  obtain ⟨t', rest, isRead, alike, behind, shorter⟩ := reads limit budget names enough .close spelled'
  obtain ⟨close, rest', rfl, isClose, -, behind'⟩ := behind.sign rfl (by decide)
  refine ⟨⟨first, rfl, by simp [isOpen]⟩, t'.withNote ⟨first.span.start, close.span.stop⟩, rest',
    budget, ?_, by simpa using alike, behind', ?_, ?_⟩
  · simp [operand, Tokens.peek, Tokens.tail, bind, Except.bind, isOpen, isRead, isClose]
  · simp only [Tokens.length] at shorter ⊢
    omega
  · have := t.height_pos
    omega

/-- What needs no parentheses is read as an operand. -/
theorem query_of_operand (simple : t.isCompound = false) (reads : ReadableOperand binders t) :
    ReadableQuery binders t := by
  intro limit budget scope ts cs names enough ends spelled
  have high := t.height_pos
  obtain ⟨budget, rfl⟩ : ∃ b, budget = b + 1 := ⟨budget - 1, by omega⟩
  obtain ⟨plain, t', rest, left, isRead, alike, behind, shorter, -⟩ :=
    reads limit budget names (by simpa [simple] using enough) (.ends ends)
      (by simpa [simple, enclose] using spelled)
  obtain ⟨next, peeked, notDot, noOperator⟩ := peek_of_ends ends behind
  refine ⟨t', rest, ?_, alike, behind, shorter⟩
  rw [query_plain plain, isRead, members_stop peeked notDot]
  exact operators_stop peeked noOperator

/-- No query starts with a closing parenthesis. -/
theorem peek_of_query {t' : Term Span} (h : query limit budget scope ts = .ok (t', rest)) :
    ∃ first, ts.peek = .ok first ∧ first.kind ≠ .rparen := by
  cases peeked : ts.peek with
  | error e =>
    rw [query.eq_def] at h
    simp [peeked, bind, Except.bind] at h
  | ok first =>
    refine ⟨first, rfl, fun isClose => ?_⟩
    rw [query.eq_def] at h
    cases budget with
    | zero => simp [peeked, bind, Except.bind, tooDeep] at h
    | succ budget => simp [peeked, bind, Except.bind, isClose, operand, unexpected] at h

theorem peek_of_arguments {function : Token} {opened : Span}
    {read : (List (Term Span) × Nat) × Tokens}
    (h : arguments (query limit budget scope) function opened ts = .ok read) :
    ∃ first, ts.peek = .ok first ∧ first.kind ≠ .rparen := by
  rw [arguments] at h
  cases isRead : query limit budget scope ts with
  | error e =>
    rw [isRead] at h
    cases h
  | ok read => exact peek_of_query isRead

section

variable {note : α} {op : Operator} {left right receiver body : Term α} {name : String}
  {args : List (Term α)} {symbol : Symbol} {param : Binder α}

theorem readable_lambda (isName : IsFreeName param.symbol.name)
    (onBody : ReadableQuery (param.symbol :: binders) body) :
    ReadableQuery binders (.lambda note param body) := by
  intro limit budget scope ts cs names enough ends spelled
  rw [height] at enough
  obtain ⟨budget, rfl⟩ : ∃ b, budget = b + 1 := ⟨budget - 1, by omega⟩
  have spelled : ts.Spells (param.symbol.name.toList ++ (" => ".toList ++ (body.sourceChars ++ cs))) := by
    simpa [sourceChars] using spelled
  obtain ⟨first, afterName, rfl, isIdent, isText, spelled⟩ :=
    spelled.name isName.1 (by intro c isHead; cases isHead; decide)
  obtain ⟨arrow, afterArrow, rfl, isArrow, -, spelled⟩ := spelled.arrow
  have names' : (⟨first.span.start, first.text⟩ :: scope).map Symbol.name =
      (param.symbol :: binders).map Symbol.name := by
    simp [isText, names]
  obtain ⟨body', rest, isRead, alike, behind, shorter⟩ :=
    onBody limit budget names' (by omega) ends spelled
  refine ⟨.lambda ⟨first.span.start, body'.note.stop⟩ ⟨⟨first.span.start, first.text⟩, first.span⟩
    body', rest, ?_, ?_, behind, ?_⟩
  · have isFree : isLiteralKeyword first.text = false := by rw [isText]; exact isName.2
    rw [query]
    simp [Tokens.peek, Tokens.tail, bind, Except.bind, isIdent, isFree, isArrow, isRead]
  · simp [spelling, alike, isText]
  · simp only [Tokens.length]
    omega

theorem readable_binary (onLeft : ReadableOperand binders left)
    (onRight : ReadableOperand binders right) :
    ReadableQuery binders (.binary note op left right) := by
  intro limit budget scope ts cs names enough ends spelled
  rw [height] at enough
  have high := left.height_pos
  obtain ⟨budget, rfl⟩ : ∃ b, budget = b + 2 := ⟨budget - 2, by omega⟩
  have spelled : ts.Spells (enclose left.isCompound left.sourceChars ++
      ' ' :: (op.symbol.toList ++ ' ' :: (enclose right.isCompound right.sourceChars ++ cs))) := by
    simpa [sourceChars] using spelled
  obtain ⟨plain, left', rest, levels, isRead, alike, behind, shorter, -⟩ :=
    onLeft limit (budget + 1) names (by omega) .operator spelled
  obtain ⟨kind, isOperator, first, afterOp, rfl, rfl, -, behind⟩ := behind.operator
  obtain ⟨-, right', rest', levels', isRead', alike', behind', shorter', -⟩ :=
    onRight limit budget names (by omega) (.ends ends) behind
  obtain ⟨next, peeked, notDot, noOperator⟩ := peek_of_ends ends behind'
  refine ⟨.binary (left'.note.merge right'.note) op left' right', rest', ?_, ?_, behind', ?_⟩
  · have notDot' : first.kind ≠ .dot := by
      intro isDot
      rw [isDot] at isOperator
      cases isOperator
    rw [query_plain plain, isRead, members_stop rfl notDot']
    show operators limit (budget + 1) scope 0 left' (.token first afterOp) = _
    rw [operators]
    simp only [Tokens.peek, Tokens.tail, bind, Except.bind, isOperator, Nat.not_lt_zero, if_false,
      isRead', members_stop peeked notDot, operators_stop peeked noOperator]
  · simp [spelling, alike, alike']
  · simp only [Tokens.length] at shorter
    omega

theorem arguments_reads (limit budget : Nat) (function : Token) (opened : Span)
    (onArgs : ∀ arg ∈ args, ReadableQuery binders arg) (some : args ≠ [])
    (names : scope.map Symbol.name = binders.map Symbol.name) (enough : 2 * heightAll args ≤ budget)
    (spelled : ts.Spells (argumentChars args ++ ')' :: cs)) :
    ∃ args' stop rest,
      arguments (query limit budget scope) function opened ts = .ok ((args', stop), rest) ∧
      spellingAll args' = spellingAll args ∧ rest.Spells cs ∧ rest.length < ts.length := by
  induction args generalizing ts with
  | nil => exact absurd rfl some
  | cons arg args ih =>
    have onArg := onArgs arg List.mem_cons_self
    rw [heightAll] at enough
    cases args with
    | nil =>
      obtain ⟨arg', rest, isRead, alike, behind, shorter⟩ :=
        onArg limit budget names (by omega) .close spelled
      obtain ⟨close, afterClose, rfl, isClose, -, behind⟩ := behind.sign rfl (by decide)
      refine ⟨[arg'], close.span.stop, afterClose, ?_, by simp [spellingAll, alike], behind, ?_⟩
      · rw [arguments]
        simp [bind, Except.bind, isRead, Tokens.peek, Tokens.tail, isClose]
      · simp only [Tokens.length] at shorter
        omega
    | cons arg' args =>
      have spelled : ts.Spells (arg.sourceChars ++
          ',' :: ' ' :: (argumentChars (arg' :: args) ++ ')' :: cs)) := by
        simpa [argumentChars] using spelled
      obtain ⟨read, rest, isRead, alike, behind, shorter⟩ :=
        onArg limit budget names (by omega) .comma spelled
      obtain ⟨comma, afterComma, rfl, isComma, -, behind⟩ := behind.sign rfl (by decide)
      simp only [Tokens.length] at shorter
      obtain ⟨others, stop, rest, areRead, alike', behind', shorter'⟩ :=
        ih (fun arg mem => onArgs arg (List.mem_cons_of_mem _ mem)) (by simp) (by omega)
          (behind.blank rfl)
      refine ⟨read :: others, stop, rest, ?_, ?_, behind', by omega⟩
      · have shorter'' : afterComma.length < ts.length := by omega
        rw [arguments]
        simp [bind, Except.bind, isRead, Tokens.peek, Tokens.tail, isComma, shorter'', areRead]
      · simp only [spellingAll] at alike' ⊢
        rw [alike, alike']

theorem readable_call (isName : IsFreeName name) (onArgs : ∀ arg ∈ args, ReadableQuery binders arg) :
    ReadableOperand binders (.call note name args) := by
  intro limit budget scope ts cs names enough follows spelled
  simp only [height, isCompound, Bool.false_eq_true, if_false] at enough
  have spelled : ts.Spells (name.toList ++ '(' :: (argumentChars args ++ ')' :: cs)) := by
    simpa [sourceChars, isCompound, enclose] using spelled
  obtain ⟨first, afterName, rfl, isIdent, isText, spelled⟩ :=
    spelled.name isName.1 (by intro c isHead; cases isHead; decide)
  obtain ⟨paren, afterParen, rfl, isParen, -, spelled⟩ := spelled.sign rfl (by decide)
  have isFree : isLiteralKeyword first.text = false := by rw [isText]; exact isName.2
  have plain : Plain (.token first (.token paren afterParen)) :=
    ⟨first, rfl, fun _ _ => ⟨paren, rfl, by simp [isParen]⟩⟩
  refine ⟨plain, ?_⟩
  unfold ReadsOperand
  rw [operand_name rfl isIdent isFree]
  cases args with
  | nil =>
    obtain ⟨close, rest, rfl, isClose, -, behind⟩ := spelled.sign rfl (by decide)
    refine ⟨.call ⟨first.span.start, close.span.stop⟩ first.text [], rest, budget, ?_, ?_, behind, ?_,
      ?_⟩
    · simp [named, Tokens.peek, Tokens.tail, bind, Except.bind, isParen, isClose]
    · simp [spelling, spellingAll, isText]
    · simp only [Tokens.length]
      omega
    · rw [height]
      omega
  | cons arg others =>
    obtain ⟨args', stop, rest, areRead, alike, behind, shorter⟩ :=
      arguments_reads limit budget first paren.span onArgs (by simp) names (by omega) spelled
    obtain ⟨next, peeked, notClose⟩ := peek_of_arguments areRead
    refine ⟨.call ⟨first.span.start, stop⟩ first.text args', rest, budget, ?_, ?_, behind, ?_, ?_⟩
    · have opens : (Tokens.token paren afterParen).peek = .ok paren := rfl
      simp [named, opens, bind, Except.bind, isParen, peeked, notClose, areRead, Tokens.tail]
    · simp [spelling, alike, isText]
    · simp only [Tokens.length]
      omega
    · rw [height]
      omega

theorem readable_member (isName : IsName name) (onReceiver : ReadableOperand binders receiver) :
    ReadableOperand binders (.member note receiver name) := by
  intro limit budget scope ts cs names enough follows spelled
  simp only [height, isCompound, Bool.false_eq_true, if_false] at enough
  have spelled : ts.Spells (enclose receiver.isCompound receiver.sourceChars ++
      '.' :: (name.toList ++ cs)) := by
    simpa [sourceChars, isCompound, enclose] using spelled
  obtain ⟨plain, receiver', rest, left, isRead, alike, behind, shorter, levels⟩ :=
    onReceiver limit budget names (by omega) (.member isName) spelled
  obtain ⟨left, rfl⟩ : ∃ l, left = l + 1 := ⟨left - 1, by omega⟩
  obtain ⟨dot, afterDot, rfl, isDot, -, behind⟩ := behind.sign rfl (by decide)
  obtain ⟨first, afterName, rfl, isIdent, isText, behind⟩ :=
    behind.name isName follows.not_continuesName
  refine ⟨plain, .member ⟨receiver'.note.start, first.span.stop⟩ receiver' first.text, afterName,
    left, ?_, ?_, behind, ?_, ?_⟩
  · rw [isRead, members]
    simp [Tokens.peek, Tokens.tail, bind, Except.bind, isDot, isIdent]
  · simp [spelling, alike, isText]
  · simp only [Tokens.length] at shorter
    omega
  · rw [height]
    omega

theorem readable_ident (isName : IsFreeName symbol.name)
    (bound : symbol.name ∈ binders.map Symbol.name) :
    ReadableOperand binders (.ident note symbol) := by
  intro limit budget scope ts cs names enough follows spelled
  have spelled : ts.Spells (symbol.name.toList ++ cs) := by
    simpa [sourceChars, isCompound, enclose] using spelled
  obtain ⟨first, rest, rfl, isIdent, isText, behind⟩ :=
    spelled.name isName.1 follows.not_continuesName
  obtain ⟨next, peeked, notArrow, notParen⟩ := peek_of_follows follows behind
  have isFree : isLiteralKeyword first.text = false := by rw [isText]; exact isName.2
  obtain ⟨found, isFound⟩ : ∃ found, scope.find? first.text = some found := by
    rw [← names, List.mem_map] at bound
    obtain ⟨param, mem, sameName⟩ := bound
    have isSome : (List.find? (fun symbol : Symbol => symbol.name == first.text) scope).isSome := by
      rw [List.find?_isSome]
      exact ⟨param, mem, by simp [sameName, isText]⟩
    exact Option.isSome_iff_exists.1 isSome
  have sameName : found.name = first.text := by simpa using List.find?_some isFound
  refine ⟨⟨first, rfl, fun _ _ => ⟨next, peeked, notArrow⟩⟩, .ident first.span found, rest, budget,
    ?_, ?_, behind, ?_, ?_⟩
  · rw [operand_name rfl isIdent isFree]
    simp [named, Tokens.tail, peeked, bind, Except.bind, notParen, isFound]
  · simp [spelling, sameName, isText]
  · simp [Tokens.length]
  · rw [height]
    omega

theorem isBare_cases {text : List Char} (h : isBare text = true) :
    text = "true".toList ∨ text = "false".toList ∨ isPlainNumber text = true ∨
      ∃ digits, text = '-' :: digits ∧ isPlainNumber digits = true := by
  simp only [isBare, Bool.or_eq_true, beq_iff_eq] at h
  rcases h with (isTrue | isFalse) | isNumber
  · exact .inl isTrue
  · exact .inr (.inl isFalse)
  · split at isNumber
    · exact .inr (.inr (.inr ⟨_, rfl, isNumber⟩))
    · exact .inr (.inr (.inl isNumber))

theorem reads_literal (span : Span) {value : Option String} (plain : Plain ts)
    (isRead : operand (query limit budget scope) limit budget scope ts =
      members limit budget (.literal span value) rest)
    (behind : rest.Spells cs) (shorter : rest.length < ts.length) :
    Plain ts ∧ ReadsOperand limit budget scope (.literal note value) ts cs := by
  refine ⟨plain, .literal span value, rest, budget, isRead, rfl, behind, shorter, ?_⟩
  rw [height]
  omega

theorem isName_true : IsName "true" := ⟨⟨.ident, "true", ⟨0, 4⟩⟩, 4, rfl, by cbv⟩

theorem isName_false : IsName "false" := ⟨⟨.ident, "false", ⟨0, 5⟩⟩, 5, rfl, by cbv⟩

theorem isName_null : IsName "null" := ⟨⟨.ident, "null", ⟨0, 4⟩⟩, 4, rfl, by cbv⟩

theorem readable_literal {value : Option String} :
    ReadableOperand binders (.literal note value) := by
  intro limit budget scope ts cs names enough follows spelled
  have spelled : ts.Spells (literalSource value ++ cs) := by
    simpa [sourceChars, isCompound, enclose] using spelled
  have keyword {text : String} (isName : IsName text) (isKeyword : isLiteralKeyword text = true)
      (spelled : ts.Spells (text.toList ++ cs)) :
      Plain ts ∧ ReadsOperand limit budget scope
        (.literal note (if text == "null" then none else some text)) ts cs := by
    obtain ⟨first, rest, rfl, isIdent, rfl, behind⟩ :=
      spelled.name isName follows.not_continuesName
    refine reads_literal first.span ⟨first, rfl, by simp [isKeyword]⟩ ?_ behind (by simp [Tokens.length])
    by_cases isNull : first.text = "null"
    · simp [operand, Tokens.peek, Tokens.tail, bind, Except.bind, isIdent, isNull]
    · have isBool : first.text = "true" ∨ first.text = "false" := by
        simpa [isLiteralKeyword, isNull] using isKeyword
      simp [operand, Tokens.peek, Tokens.tail, bind, Except.bind, isIdent, isNull, isBool]
  cases value with
  | none => exact keyword isName_null rfl spelled
  | some text =>
    rw [literalSource] at spelled
    split at spelled
    · rename_i bare
      rcases isBare_cases bare with isTrue | isFalse | isNumber | ⟨digits, isText, isNumber⟩
      · cases String.toList_inj.1 isTrue
        exact keyword isName_true rfl spelled
      · cases String.toList_inj.1 isFalse
        exact keyword isName_false rfl spelled
      · obtain ⟨first, rest, rfl, isKind, isText, behind⟩ := spelled.number isNumber follows
        rw [String.ofList_toList] at isText
        refine reads_literal first.span ⟨first, rfl, by simp [isKind]⟩ ?_ behind (by simp [Tokens.length])
        simp [operand, Tokens.peek, Tokens.tail, bind, Except.bind, isKind, isText]
      · rw [isText] at spelled
        obtain ⟨sign, afterSign, rfl, isSign, -, spelled⟩ := spelled.sign rfl (by decide)
        obtain ⟨first, rest, rfl, isKind, isDigits, behind⟩ := spelled.number isNumber follows
        have whole : "-" ++ first.text = text := by
          simp [← String.toList_inj, isDigits, isText]
        refine reads_literal (sign.span.merge first.span) ⟨sign, rfl, by simp [isSign]⟩ ?_ behind ?_
        · simp [operand, Tokens.peek, Tokens.tail, bind, Except.bind, isSign, isKind, whole]
        · simp only [Tokens.length]
          omega
    · obtain ⟨first, rest, rfl, isKind, isText, behind⟩ := spelled.quoted
      rw [String.ofList_toList] at isText
      refine reads_literal first.span ⟨first, rfl, by simp [isKind]⟩ ?_ behind (by simp [Tokens.length])
      simp [operand, Tokens.peek, Tokens.tail, bind, Except.bind, isKind, isText]

end

theorem Readable.of_query (compound : t.isCompound = true) (reads : ReadableQuery binders t) :
    Readable binders t :=
  ⟨reads, operand_of_query compound reads⟩

theorem Readable.of_operand (simple : t.isCompound = false) (reads : ReadableOperand binders t) :
    Readable binders t :=
  ⟨query_of_operand simple reads, reads⟩

mutual
/-- A tree with proper names can be read where it is written. -/
theorem readable : ∀ {t : Term α} {binders : List Symbol},
    (∀ param ∈ binders, IsFreeName param.name) → t.WellNamed binders → Readable binders t
  | .lambda _ param body, binders, free, ⟨isName, named⟩ => by
    have free' : ∀ p ∈ param.symbol :: binders, IsFreeName p.name := by
      intro p mem
      rcases List.mem_cons.1 mem with rfl | inRest
      · exact isName
      · exact free p inRest
    exact .of_query rfl (readable_lambda isName (readable free' named).query)
  | .binary .., binders, free, ⟨named, named'⟩ =>
    .of_query rfl (readable_binary (readable free named).operand (readable free named').operand)
  | .call .., binders, free, ⟨isName, named⟩ =>
    .of_operand rfl (readable_call isName (readableAll free named))
  | .member .., binders, free, ⟨isName, named⟩ =>
    .of_operand rfl (readable_member isName (readable free named).operand)
  | .ident _ symbol, binders, free, ⟨distance, isBound, isNamed⟩ => by
    obtain ⟨inside, sameName, -⟩ := List.findIdx?_eq_some_iff_getElem.1 isNamed
    have sameName : binders[distance].name = symbol.name := by simpa using sameName
    have mem : binders[distance] ∈ binders := List.getElem_mem inside
    exact .of_operand rfl (readable_ident (sameName ▸ free _ mem)
      (List.mem_map.2 ⟨_, mem, sameName⟩))
  | .literal .., _, _, _ => .of_operand rfl readable_literal

theorem readableAll : ∀ {ts : List (Term α)} {binders : List Symbol},
    (∀ param ∈ binders, IsFreeName param.name) → WellNamedAll binders ts →
    ∀ t ∈ ts, ReadableQuery binders t
  | [], _, _, _ => by simp
  | first :: others, binders, free, ⟨named, named'⟩ => by
    have onFirst := readable free named
    intro t mem
    rcases List.mem_cons.1 mem with rfl | inOthers
    · exact onFirst.query
    · exact readableAll free named' t inOthers
end

end Parser

end Term

end LambdaQuery
