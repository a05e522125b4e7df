import LambdaQuery.Proofs.Token.Lexing
import LambdaQuery.Term.Parser

/-!
# Tokens of a written text

The tokens of a text are found one by one from its front: if a piece of the text is one token and
cannot go on, the token comes first and the tokens of the rest follow. White space may be left out.
-/

namespace LambdaQuery

open Token

namespace Tokens

/-- The tokens of a stretch of text, wherever it stands, without white space. -/
def Spells (ts : Tokens) (cs : List Char) : Prop :=
  ∃ offset, ts = (scan offset cs).significant

/-- A token comes first, and the stretch of text behind it. -/
def Begins (ts : Tokens) (kind : TokenKind) (text : String) (cs : List Char) : Prop :=
  ∃ first rest, ts = token first rest ∧ first.kind = kind ∧ first.text = text ∧ rest.Spells cs

variable {ts : Tokens} {c : Char} {cs : List Char}

theorem Spells.begins {l : Lexeme} (h : ts.Spells (c :: cs)) (found : Lexeme.next c cs = .ok l)
    (visible : l.kind ≠ .whitespace) : ts.Begins l.kind (String.ofList l.text) l.rest := by
  obtain ⟨offset, rfl⟩ := h
  rw [scan_cons offset found, significant, if_neg visible]
  exact ⟨_, _, rfl, rfl, rfl, _, rfl⟩

/-- A sign comes first. -/
theorem Spells.sign {kind : TokenKind} {source rest : List Char} (h : ts.Spells (c :: cs))
    (found : Lexeme.next c cs = .ok (.plain kind source rest)) (visible : kind ≠ .whitespace) :
    ts.Begins kind (String.ofList source) rest :=
  h.begins found visible

theorem significant_blank (offset : Nat) (isBlank : Text.isBlank c = true) (cs : List Char) :
    (scan offset (c :: cs)).significant =
      (scan (offset + byteLength (c :: cs.takeWhile Text.isBlank))
        (cs.dropWhile Text.isBlank)).significant := by
  rw [scan_cons offset (Lexeme.next_blank isBlank cs)]
  rfl

/-- White space makes no difference. -/
theorem Spells.blank (isBlank : Text.isBlank c = true) (h : ts.Spells (c :: cs)) : ts.Spells cs := by
  obtain ⟨offset, rfl⟩ := h
  refine ⟨offset + c.utf8Size, ?_⟩
  rw [significant_blank offset isBlank]
  cases cs with
  | nil => rfl
  | cons d cs =>
    by_cases more : Text.isBlank d = true
    · rw [significant_blank _ more]
      simp [more, byteLength, Nat.add_assoc]
    · simp [more, byteLength]

end Tokens

/-- What ends a query: a closing parenthesis, a comma or the end of the text. -/
inductive EndsQuery : List Char → Prop
  | done : EndsQuery []
  | close {cs : List Char} : EndsQuery (')' :: cs)
  | comma {cs : List Char} : EndsQuery (',' :: cs)

/-- What may stand behind an operand. -/
inductive FollowsOperand : List Char → Prop
  | ends {cs : List Char} : EndsQuery cs → FollowsOperand cs
  | operator {op : Operator} {cs : List Char} :
    FollowsOperand (' ' :: (op.symbol.toList ++ ' ' :: cs))
  | member {name : String} {cs : List Char} : IsName name →
    FollowsOperand ('.' :: (name.toList ++ cs))

namespace FollowsOperand

variable {cs : List Char}

theorem head (h : FollowsOperand cs) :
    ∀ c ∈ cs.head?, c = ')' ∨ c = ',' ∨ c = ' ' ∨ c = '.' := by
  intro c isHead
  rcases h with (_ | _ | _) | _ | _ <;> cases isHead <;> simp

theorem not_continuesName (h : FollowsOperand cs) : ∀ c ∈ cs.head?, continuesName c = false := by
  intro c isHead
  rcases h.head c isHead with rfl | rfl | rfl | rfl <;> decide

theorem not_isDigit (h : FollowsOperand cs) : ∀ c ∈ cs.head?, c.isDigit = false := by
  intro c isHead
  rcases h.head c isHead with rfl | rfl | rfl | rfl <;> decide

/-- A point is not followed by a digit. -/
theorem noFraction (h : FollowsOperand cs) (d : Char) (more : List Char)
    (isPoint : cs = '.' :: d :: more) : d.isDigit = false := by
  rcases h with (_ | _ | _) | _ | isName
  case member =>
    obtain ⟨c, others, isText, -, starts⟩ := isName.chars
    rw [isText] at isPoint
    cases isPoint
    by_cases isDigit : d.isDigit = true
    · have isNumber := starts []
      rw [Lexeme.next_digit isDigit] at isNumber
      cases isNumber
    · simpa using isDigit
  all_goals cases isPoint

end FollowsOperand

/-- Digits, and behind a point more digits or none. -/
theorem Term.isPlainNumber_cases {cs : List Char} (h : Term.isPlainNumber cs = true) :
    ∃ c digits, c.isDigit = true ∧ (∀ d ∈ digits, d.isDigit = true) ∧
      (cs = c :: digits ∨ ∃ d fraction, d.isDigit = true ∧ (∀ e ∈ fraction, e.isDigit = true) ∧
        cs = c :: digits ++ '.' :: d :: fraction) := by
  have nonempty {cs : List Char} (areDigits : Term.isDigits cs = true) : ∃ c digits,
      cs = c :: digits ∧ c.isDigit = true ∧ ∀ d ∈ digits, d.isDigit = true := by
    cases cs with
    | nil => cases areDigits
    | cons c digits =>
      simp only [Term.isDigits, List.isEmpty_cons, Bool.not_false, Bool.true_and, List.all_cons,
        Bool.and_eq_true, List.all_eq_true] at areDigits
      exact ⟨c, digits, rfl, areDigits⟩
  have parts := List.takeWhile_append_dropWhile (p := (· != '.')) (l := cs)
  have point := List.head?_dropWhile_not (· != '.') cs
  unfold Term.isPlainNumber at h
  split at h
  · obtain ⟨c, digits, rfl, isDigit, areDigits⟩ := nonempty h
    exact ⟨c, digits, isDigit, areDigits, .inl rfl⟩
  · rename_i x more dropped
    rw [dropped] at parts point
    obtain ⟨whole, fraction⟩ := Bool.and_eq_true_iff.1 h
    obtain ⟨c, digits, isWhole, isDigit, areDigits⟩ := nonempty whole
    obtain ⟨d, others, rfl, isDigit', areDigits'⟩ := nonempty fraction
    have isPoint : x = '.' := by simpa using point
    rw [isWhole, isPoint] at parts
    exact ⟨c, digits, isDigit, areDigits, .inr ⟨d, others, isDigit', areDigits', parts.symm⟩⟩

/-- An operator with a blank behind it is a token. -/
theorem Lexeme.next_operator (op : Operator) (cs : List Char) : ∃ kind c more,
    kind.operator? = some op ∧ op.symbol.toList = c :: more ∧
      next c (more ++ ' ' :: cs) = .ok (plain kind (c :: more) (' ' :: cs)) := by
  cases op with
  | and => exact ⟨.andAnd, '&', ['&'], rfl, rfl, rfl⟩
  | or => exact ⟨.orOr, '|', ['|'], rfl, rfl, rfl⟩
  | eq => exact ⟨.eq, '=', [], rfl, rfl, rfl⟩
  | ne => exact ⟨.notEq, '!', ['='], rfl, rfl, rfl⟩
  | lt => exact ⟨.lt, '<', [], rfl, rfl, rfl⟩
  | le => exact ⟨.ltEq, '<', ['='], rfl, rfl, rfl⟩
  | gt => exact ⟨.gt, '>', [], rfl, rfl, rfl⟩
  | ge => exact ⟨.gtEq, '>', ['='], rfl, rfl, rfl⟩
  | add => exact ⟨.plus, '+', [], rfl, rfl, rfl⟩
  | sub => exact ⟨.minus, '-', [], rfl, rfl, rfl⟩
  | mul => exact ⟨.star, '*', [], rfl, rfl, rfl⟩
  | div => exact ⟨.slash, '/', [], rfl, rfl, rfl⟩
  | mod => exact ⟨.percent, '%', [], rfl, rfl, rfl⟩

namespace Tokens.Spells

variable {ts : Tokens} {cs : List Char}

theorem name {name : String} (isName : IsName name)
    (stop : ∀ c ∈ cs.head?, continuesName c = false) (h : ts.Spells (name.toList ++ cs)) :
    ts.Begins .ident name cs := by
  obtain ⟨c, others, isText, continues, starts⟩ := isName.chars
  obtain ⟨taken, dropped⟩ := takeWhile_append_of_stop continues stop
  rw [isText] at h
  have found := h.begins (starts (others ++ cs)) (by simp [Lexeme.run, Lexeme.plain])
  simp only [Lexeme.run, Lexeme.plain, taken, dropped] at found
  rwa [← isText, String.ofList_toList] at found

theorem number {digits : List Char} (isNumber : Term.isPlainNumber digits = true)
    (follows : FollowsOperand cs) (h : ts.Spells (digits ++ cs)) :
    ts.Begins .number (String.ofList digits) cs := by
  have stop : cs.takeWhile continuesName = [] :=
    takeWhile_eq_nil_iff_stop.2 follows.not_continuesName
  have found {c : Char} {more : List Char} (isDigit : c.isDigit = true)
      (isSplit : Lexeme.splitNumber c (more ++ cs) = (c :: more, cs))
      (h : ts.Spells (c :: more ++ cs)) :
      ts.Begins .number (String.ofList (c :: more)) cs := by
    have taken : Lexeme.next c (more ++ cs) = .ok (.plain .number (c :: more) cs) := by
      rw [Lexeme.next_digit isDigit]
      simp [Lexeme.number, isSplit, stop]
    exact h.sign taken (by decide)
  obtain ⟨c, more, isDigit, areDigits, rfl | ⟨d, fraction, isDigit', areDigits', rfl⟩⟩ :=
    Term.isPlainNumber_cases isNumber
  · exact found isDigit
      (Lexeme.splitNumber_whole areDigits follows.not_isDigit follows.noFraction) h
  · refine found isDigit ?_ h
    have split := Lexeme.splitNumber_fraction (c := c) areDigits isDigit' areDigits' follows.not_isDigit
    simpa using split

theorem quoted {text : List Char} (h : ts.Spells (Term.quoted text ++ cs)) :
    ts.Begins .string (String.ofList text) cs := by
  have spelled : ts.Spells ('"' :: ((Term.quoted text).tail ++ cs)) := h
  exact spelled.begins (Lexeme.string_quoted text cs) (by simp)

theorem operator {op : Operator} (h : ts.Spells (' ' :: (op.symbol.toList ++ ' ' :: cs))) :
    ∃ kind, kind.operator? = some op ∧ ts.Begins kind op.symbol cs := by
  obtain ⟨kind, c, more, isOperator, isSymbol, found⟩ := Lexeme.next_operator op cs
  have visible : kind ≠ .whitespace := by
    rintro rfl
    cases isOperator
  have spelled := h.blank rfl
  rw [isSymbol] at spelled
  obtain ⟨first, rest, isToken, isKind, isText, others⟩ := spelled.sign found visible
  refine ⟨kind, isOperator, first, rest, isToken, isKind, ?_, others.blank rfl⟩
  have isSymbol' : String.ofList (c :: more) = op.symbol := by
    rw [← isSymbol, String.ofList_toList]
  exact isText.trans isSymbol'

theorem arrow (h : ts.Spells (" => ".toList ++ cs)) : ts.Begins .arrow "=>" cs := by
  have spelled : ts.Spells (' ' :: '=' :: '>' :: ' ' :: cs) := h
  obtain ⟨first, rest, isToken, isKind, isText, more⟩ := (spelled.blank rfl).sign rfl (by decide)
  exact ⟨first, rest, isToken, isKind, isText, more.blank rfl⟩

end Tokens.Spells

end LambdaQuery
