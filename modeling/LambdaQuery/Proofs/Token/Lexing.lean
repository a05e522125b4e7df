import LambdaQuery.Operator
import LambdaQuery.Term.Printer
import LambdaQuery.Token.Lexer

/-!
# What the lexer finds

A token starts with the character it was found at. A name, a number, a text between quotes and a
sign are found again where they are written in front of something that cannot go on with them.
-/

namespace LambdaQuery

namespace Token

/-- A text that is one name. -/
def IsName (text : String) : Prop :=
  ∃ token offset, token.kind = .ident ∧ Tokens.ofText text = .token token (.done offset)

/-- A name that may be given to parameters and functions. -/
def IsFreeName (text : String) : Prop :=
  IsName text ∧ isLiteralKeyword text = false

end Token

open Token

/-- The longest run of characters ends where one of them does not belong to it. -/
theorem takeWhile_append_of_stop {p : Char → Bool} {cs rest : List Char}
    (taken : ∀ c ∈ cs, p c = true) (stop : ∀ c ∈ rest.head?, p c = false) :
    (cs ++ rest).takeWhile p = cs ∧ (cs ++ rest).dropWhile p = rest := by
  rw [List.takeWhile_append_of_pos taken, List.dropWhile_append_of_pos taken]
  cases rest with
  | nil => simp
  | cons c rest =>
    have stops : p c = false := stop c rfl
    simp [stops]

theorem of_mem_takeWhile {p : Char → Bool} {cs : List Char} :
    ∀ c ∈ cs.takeWhile p, p c = true :=
  List.all_eq_true.1 List.all_takeWhile

theorem stop_dropWhile {p : Char → Bool} {cs : List Char} :
    ∀ d ∈ (cs.dropWhile p).head?, p d = false := by
  intro d isHead
  have stops := List.head?_dropWhile_not p cs
  rwa [isHead] at stops

theorem takeWhile_eq_nil_iff_stop {p : Char → Bool} {cs : List Char} :
    cs.takeWhile p = [] ↔ ∀ d ∈ cs.head?, p d = false := by
  cases cs with
  | nil => simp
  | cons c cs => cases isTaken : p c <;> simp [isTaken]

theorem mem_of_dropWhile_eq_nil {p : Char → Bool} {cs : List Char} (h : cs.dropWhile p = []) :
    ∀ c ∈ cs, p c = true := by
  have parts := List.takeWhile_append_dropWhile (p := p) (l := cs)
  rw [h, List.append_nil] at parts
  rw [← parts]
  exact of_mem_takeWhile

/-- White space ends a name. -/
theorem Token.not_continuesName_of_isBlank {c : Char} (h : Text.isBlank c = true) :
    continuesName c = false := by
  have listed : ∀ r ∈ Text.blankRanges, ∀ n ∈ List.range' r.1 (r.2 + 1 - r.1),
      continuesName (Char.ofNat n) = false := by decide +kernel
  obtain ⟨r, mem, inside⟩ := List.any_eq_true.1 h
  simp only [Bool.and_eq_true, decide_eq_true_eq] at inside
  have isPoint := listed r mem c.toNat (List.mem_range'_1.2 (by omega))
  rwa [Char.ofNat_toNat] at isPoint

namespace Lexeme

theorem head_splitNumber (c : Char) (cs : List Char) :
    (splitNumber c cs).1.head? = some c := by
  unfold splitNumber
  split
  · split <;> rfl
  · rfl

theorem head_number {c : Char} {cs : List Char} {l : Lexeme} (h : number c cs = .ok l) :
    l.source.head? = some c ∧ l.kind = .number := by
  have taken := head_splitNumber c cs
  grind [number, plain]

theorem head_string {cs : List Char} {l : Lexeme} (h : string cs = .ok l) :
    l.source.head? = some '"' ∧ l.kind = .string := by
  grind [string]

theorem head_oneOrTwo (c second : Char) (one two : TokenKind) (cs : List Char) :
    (oneOrTwo c second one two cs).source.head? = some c ∧
      ((oneOrTwo c second one two cs).kind = one ∨ (oneOrTwo c second one two cs).kind = two) := by
  cases cs <;> grind [oneOrTwo, plain]

theorem head_pair {c second : Char} {kind : TokenKind} {cs : List Char} {l : Lexeme}
    (h : pair c second kind cs = .ok l) : l.source.head? = some c ∧ l.kind = kind := by
  cases cs <;> grind [pair, plain]

/-- A token starts with the character it was found at. -/
theorem head_next {c : Char} {cs : List Char} {l : Lexeme} (h : next c cs = .ok l) :
    l.source.head? = some c := by
  unfold next at h
  split at h <;>
    grind [plain, run, head_oneOrTwo, → head_pair, → head_number, → head_string]

/-- No token of a text is of the kind that stands for its end. -/
theorem kind_ne_eof {c : Char} {cs : List Char} {l : Lexeme} (h : next c cs = .ok l) :
    l.kind ≠ .eof := by
  unfold next at h
  split at h <;>
    grind [plain, run, head_oneOrTwo, → head_pair, → head_number, → head_string]

/-- Whether a name starts depends on the first character only. -/
theorem next_of_ident {c : Char} {cs : List Char} {l : Lexeme} (h : next c cs = .ok l)
    (isIdent : l.kind = .ident) (others : List Char) :
    next c others = .ok (run .ident continuesName c others) := by
  unfold next at h
  split at h
  case h_17 =>
    split at h
    · cases h
      cases isIdent
    · split at h
      · have isNumber := (head_number h).2
        rw [isIdent] at isNumber
        cases isNumber
      · split at h
        · unfold next
          split <;> simp_all
        · cases h
  all_goals grind [plain, head_oneOrTwo, → head_pair, → head_string]

theorem isBlank_of_isDigit {c : Char} (h : c.isDigit = true) : Text.isBlank c = false := by
  simp only [Char.isDigit, Bool.and_eq_true, decide_eq_true_eq] at h
  have bounds : 48 ≤ c.toNat ∧ c.toNat ≤ 57 := h
  simp only [Text.isBlank, Text.blankRanges, Text.inRanges, List.any_cons, List.any_nil,
    Bool.or_false, Bool.or_eq_false_iff, Bool.and_eq_false_imp, decide_eq_true_eq,
    decide_eq_false_iff_not]
  omega

theorem next_digit {c : Char} (isDigit : c.isDigit = true) (cs : List Char) :
    next c cs = number c cs := by
  have notBlank := isBlank_of_isDigit isDigit
  unfold next
  split
  case h_17 => simp [notBlank, isDigit]
  all_goals cases isDigit

theorem next_blank {c : Char} (isBlank : Text.isBlank c = true) (cs : List Char) :
    next c cs = .ok (run .whitespace Text.isBlank c cs) := by
  unfold next
  split
  case h_17 => simp [isBlank]
  all_goals cases isBlank

theorem splitNumber_whole {c : Char} {digits rest : List Char}
    (areDigits : ∀ d ∈ digits, d.isDigit = true) (stop : ∀ d ∈ rest.head?, d.isDigit = false)
    (noFraction : ∀ d more, rest = '.' :: d :: more → d.isDigit = false) :
    splitNumber c (digits ++ rest) = (c :: digits, rest) := by
  obtain ⟨taken, dropped⟩ := takeWhile_append_of_stop areDigits stop
  simp only [splitNumber, taken, dropped]
  split
  · rename_i d more
    simp [noFraction d more rfl]
  · rfl

theorem splitNumber_fraction {c d : Char} {digits fraction rest : List Char}
    (areDigits : ∀ d ∈ digits, d.isDigit = true) (isDigit : d.isDigit = true)
    (areDigits' : ∀ d ∈ fraction, d.isDigit = true) (stop : ∀ d ∈ rest.head?, d.isDigit = false) :
    splitNumber c (digits ++ '.' :: d :: (fraction ++ rest)) =
      (c :: digits ++ '.' :: d :: fraction, rest) := by
  have point : ∀ e ∈ ('.' :: d :: (fraction ++ rest)).head?, e.isDigit = false := by
    intro e isPoint
    cases isPoint
    rfl
  obtain ⟨taken, dropped⟩ := takeWhile_append_of_stop areDigits point
  obtain ⟨taken', dropped'⟩ := takeWhile_append_of_stop areDigits' stop
  simp [splitNumber, taken, dropped, isDigit, taken', dropped']

theorem splitString_escaped (text rest : List Char) :
    splitString (text.flatMap (fun c => if c = '"' ∨ c = '\\' then ['\\', c] else [c]) ++ '"' :: rest)
      = some (text,
        text.flatMap (fun c => if c = '"' ∨ c = '\\' then ['\\', c] else [c]) ++ ['"'], rest) := by
  induction text with
  | nil => simp [splitString]
  | cons c text ih =>
    rw [List.flatMap_cons, List.append_assoc, List.append_assoc]
    by_cases escaped : c = '"' ∨ c = '\\'
    · simp only [if_pos escaped, List.cons_append, List.nil_append]
      rw [splitString, ih]
      simp [escaped]
    · simp only [if_neg escaped, List.cons_append, List.nil_append]
      rw [splitString]
      · simp [ih]
      all_goals simp_all

/-- A text between quotes denotes the text. -/
theorem string_quoted (text rest : List Char) :
    string ((Term.quoted text).tail ++ rest) = .ok ⟨.string, text, Term.quoted text, rest⟩ := by
  have split := splitString_escaped text rest
  simp only [Term.quoted, List.cons_append, List.tail_cons, List.append_assoc, List.nil_append]
  rw [string, split]

end Lexeme

namespace Tokens

theorem scan_nil (offset : Nat) : scan offset [] = .done offset := by
  rw [scan]

theorem scan_cons {c : Char} {cs : List Char} {l : Lexeme} (offset : Nat)
    (found : Lexeme.next c cs = .ok l) :
    scan offset (c :: cs) = token
      ⟨l.kind, String.ofList l.text, ⟨offset, offset + byteLength l.source⟩⟩
      (scan (offset + byteLength l.source) l.rest) := by
  rw [scan]
  split
  · rename_i failed
    cases found.symm.trans failed
  · rename_i found'
    cases found.symm.trans found'
    rfl

/-- Only of nothing there are no tokens. -/
theorem eq_nil_of_scan {offset stop : Nat} {cs : List Char} (h : scan offset cs = .done stop) :
    cs = [] := by
  cases cs with
  | nil => rfl
  | cons c cs =>
    rw [scan] at h
    split at h <;> cases h

end Tokens

/-- Every character of a name but the first goes on with it. -/
theorem Token.IsName.chars {name : String} (h : IsName name) : ∃ c cs, name.toList = c :: cs ∧
    (∀ d ∈ cs, continuesName d = true) ∧
    ∀ others, Lexeme.next c others = .ok (.run .ident continuesName c others) := by
  obtain ⟨first, offset, isIdent, isToken⟩ := h
  unfold Tokens.ofText at isToken
  cases isText : name.toList with
  | nil =>
    rw [isText, Tokens.scan_nil] at isToken
    cases isToken
  | cons c cs =>
    rw [isText] at isToken
    cases found : Lexeme.next c cs with
    | error e =>
      rw [Tokens.scan] at isToken
      split at isToken
      · cases isToken
      · rename_i found'
        cases found.symm.trans found'
    | ok l =>
      rw [Tokens.scan_cons 0 found] at isToken
      injection isToken with isFirst isDone
      have starts := Lexeme.next_of_ident found (by rw [← isIdent, ← isFirst])
      have ended := Tokens.eq_nil_of_scan isDone
      cases found.symm.trans (starts cs)
      exact ⟨c, cs, rfl, mem_of_dropWhile_eq_nil ended, starts⟩

theorem Token.isName_of_next {c : Char} {cs : List Char} {l : Lexeme}
    (h : Lexeme.next c cs = .ok l) (isIdent : l.kind = .ident) : IsName (String.ofList l.text) := by
  have starts := Lexeme.next_of_ident h isIdent
  cases h.symm.trans (starts cs)
  have name : ∀ d ∈ cs.takeWhile continuesName, continuesName d = true := of_mem_takeWhile
  have none : ∀ d ∈ ([] : List Char).head?, continuesName d = false := by simp
  obtain ⟨taken, dropped⟩ := takeWhile_append_of_stop name none
  rw [List.append_nil] at taken dropped
  have alone := starts (cs.takeWhile continuesName)
  unfold IsName Tokens.ofText
  show ∃ token offset, _ ∧ Tokens.scan 0 (String.ofList (c :: cs.takeWhile continuesName)).toList = _
  rw [String.toList_ofList, Tokens.scan_cons 0 alone]
  simp only [Lexeme.run, taken, dropped, Lexeme.plain, Tokens.scan_nil]
  exact ⟨_, _, rfl, rfl⟩

end LambdaQuery
