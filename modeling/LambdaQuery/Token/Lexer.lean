import LambdaQuery.Token
import LambdaQuery.Text.Numeric
import LambdaQuery.Text.Blank

/-!
Splitting a text into tokens. Each token is the longest one that starts where the last one
ended; a token takes at least one character, so the splitting ends.
-/

namespace LambdaQuery

namespace Token

/-- Whether a character may start a name. -/
def startsName (c : Char) : Bool :=
  Text.isAlphabetic c || c == '_'

/-- Whether a character may go on with a name. -/
def continuesName (c : Char) : Bool :=
  Text.isAlphanumeric c || c == '_'

/-- The number of bytes of a stretch of text. -/
def byteLength : List Char → Nat
  | [] => 0
  | c :: cs => c.utf8Size + byteLength cs

end Token

/-- A token cut off the front of a text: what it denotes, the characters it took, and the
characters behind it. -/
structure Lexeme where
  kind : TokenKind
  text : List Char
  source : List Char
  rest : List Char

namespace Lexeme

open Token

/-- A token that denotes its own source. -/
def plain (kind : TokenKind) (source rest : List Char) : Lexeme :=
  ⟨kind, source, source, rest⟩

/-- The longest run of characters of one class. -/
def run (kind : TokenKind) (p : Char → Bool) (c : Char) (cs : List Char) : Lexeme :=
  plain kind (c :: cs.takeWhile p) (cs.dropWhile p)

/-- Digits, with a point and more digits if a digit follows the point. Gives what was taken and
what is left. -/
def splitNumber (c : Char) (cs : List Char) : List Char × List Char :=
  let whole := c :: cs.takeWhile Char.isDigit
  match cs.dropWhile Char.isDigit with
  | '.' :: d :: more =>
    if d.isDigit then
      (whole ++ '.' :: d :: more.takeWhile Char.isDigit, more.dropWhile Char.isDigit)
    else
      (whole, '.' :: d :: more)
  | rest => (whole, rest)

/-- A number may not run into a name. -/
def number (c : Char) (cs : List Char) : Except (LexFault × List Char) Lexeme :=
  let (digits, rest) := splitNumber c cs
  match rest.takeWhile continuesName with
  | [] => .ok (plain .number digits rest)
  | tail => .error (.malformedNumber (String.ofList (digits ++ tail)), digits ++ tail)

/-- The inside of a string literal up to its closing quote: what it denotes, its source with the
closing quote, and what follows. A backslash takes the next character with it, and is dropped
before a quote or a backslash. -/
def splitString : List Char → Option (List Char × List Char × List Char)
  | [] => none
  | '"' :: rest => some ([], ['"'], rest)
  | '\\' :: [] => none
  | '\\' :: c :: cs =>
    match splitString cs with
    | none => none
    | some (text, source, rest) =>
      some (if c = '"' ∨ c = '\\' then c :: text else '\\' :: c :: text, '\\' :: c :: source, rest)
  | c :: cs =>
    match splitString cs with
    | none => none
    | some (text, source, rest) => some (c :: text, c :: source, rest)

def string (cs : List Char) : Except (LexFault × List Char) Lexeme :=
  match splitString cs with
  | none => .error (.unterminatedString, '"' :: cs)
  | some (text, source, rest) => .ok ⟨.string, text, '"' :: source, rest⟩

/-- A sign of one character, or of two if the second one follows. -/
def oneOrTwo (c second : Char) (one two : TokenKind) (cs : List Char) : Lexeme :=
  match cs with
  | d :: rest => if d = second then plain two [c, d] rest else plain one [c] cs
  | [] => plain one [c] []

/-- A sign of two characters whose first one means nothing alone. -/
def pair (c second : Char) (kind : TokenKind) (cs : List Char) :
    Except (LexFault × List Char) Lexeme :=
  match cs with
  | d :: rest =>
    if d = second then .ok (plain kind [c, d] rest) else .error (.unexpectedCharacter c, [c])
  | [] => .error (.unexpectedCharacter c, [c])

/-- The token at the front of a text that starts with `c`, or a fault and the characters it
covers. -/
def next (c : Char) (cs : List Char) : Except (LexFault × List Char) Lexeme :=
  match c with
  | '(' => .ok (plain .lparen [c] cs)
  | ')' => .ok (plain .rparen [c] cs)
  | ',' => .ok (plain .comma [c] cs)
  | '.' => .ok (plain .dot [c] cs)
  | '+' => .ok (plain .plus [c] cs)
  | '-' => .ok (plain .minus [c] cs)
  | '*' => .ok (plain .star [c] cs)
  | '/' => .ok (plain .slash [c] cs)
  | '%' => .ok (plain .percent [c] cs)
  | '=' => .ok (oneOrTwo c '>' .eq .arrow cs)
  | '<' => .ok (oneOrTwo c '=' .lt .ltEq cs)
  | '>' => .ok (oneOrTwo c '=' .gt .gtEq cs)
  | '!' => pair c '=' .notEq cs
  | '&' => pair c '&' .andAnd cs
  | '|' => pair c '|' .orOr cs
  | '"' => string cs
  | c =>
    if Text.isBlank c then .ok (run .whitespace Text.isBlank c cs)
    else if c.isDigit then number c cs
    else if startsName c then .ok (run .ident continuesName c cs)
    else .error (.unexpectedCharacter c, [c])

/-! A token leaves less text than there was. -/

theorem length_dropWhile_le (p : Char → Bool) (cs : List Char) :
    (cs.dropWhile p).length ≤ cs.length :=
  (List.dropWhile_sublist p).length_le

theorem length_splitNumber_le (c : Char) (cs : List Char) :
    (splitNumber c cs).2.length ≤ cs.length := by
  have rest_le := length_dropWhile_le Char.isDigit cs
  unfold splitNumber
  split
  · next d more h =>
    rw [h] at rest_le
    have more_le := length_dropWhile_le Char.isDigit more
    simp only [List.length_cons] at rest_le
    split <;> simp only [List.length_cons] <;> omega
  · simpa using rest_le

theorem length_splitString_le {cs text source rest : List Char}
    (h : splitString cs = some (text, source, rest)) : rest.length ≤ cs.length := by
  fun_induction splitString cs generalizing text source rest <;> grind

theorem length_oneOrTwo_le (c second : Char) (one two : TokenKind) (cs : List Char) :
    (oneOrTwo c second one two cs).rest.length ≤ cs.length := by
  cases cs <;> grind [oneOrTwo, plain]

theorem length_pair_le {c second : Char} {kind : TokenKind} {cs : List Char} {l : Lexeme}
    (h : pair c second kind cs = .ok l) : l.rest.length ≤ cs.length := by
  cases cs <;> grind [pair, plain]

theorem length_number_le {c : Char} {cs : List Char} {l : Lexeme} (h : number c cs = .ok l) :
    l.rest.length ≤ cs.length := by
  grind [number, plain, length_splitNumber_le]

theorem length_string_le {cs : List Char} {l : Lexeme} (h : string cs = .ok l) :
    l.rest.length ≤ cs.length := by
  unfold string at h
  split at h
  · cases h
  · next split_eq => cases h; exact length_splitString_le split_eq

theorem length_next_le {c : Char} {cs : List Char} {l : Lexeme} (h : next c cs = .ok l) :
    l.rest.length ≤ cs.length := by
  have blank_le := length_dropWhile_le Text.isBlank cs
  have name_le := length_dropWhile_le continuesName cs
  unfold next at h
  split at h <;>
    grind [plain, run, length_oneOrTwo_le, → length_pair_le, → length_number_le, → length_string_le]

end Lexeme

namespace Tokens

open Token

/-- The tokens of a text whose first character stands at the given byte offset. -/
def scan (offset : Nat) (cs : List Char) : Tokens :=
  match cs with
  | [] => done offset
  | c :: cs =>
    match _h : Lexeme.next c cs with
    | .error (cause, source) => fault ⟨cause, ⟨offset, offset + byteLength source⟩⟩
    | .ok l =>
      let stop := offset + byteLength l.source
      token ⟨l.kind, String.ofList l.text, ⟨offset, stop⟩⟩ (scan stop l.rest)
termination_by cs.length
decreasing_by
  have := Lexeme.length_next_le _h
  simp only [List.length_cons]
  omega

/-- The tokens of a query text, white space included. -/
def ofText (text : String) : Tokens :=
  scan 0 text.toList

end Tokens

end LambdaQuery
