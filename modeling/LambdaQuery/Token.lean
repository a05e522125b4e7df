import LambdaQuery.Span
import LambdaQuery.Text.Quoted

/-!
Tokens of a query, and the ways in which a text can fail to be a sequence of them.
-/

namespace LambdaQuery

inductive TokenKind where
  | ident | number | string
  | andAnd | orOr | eq | notEq | lt | ltEq | gt | gtEq
  | plus | minus | star | slash | percent
  | arrow | dot | comma | lparen | rparen
  | whitespace | eof
deriving DecidableEq, Repr

namespace TokenKind

/-- Every kind, in the order in which they are listed to users. -/
def all : List TokenKind :=
  [ident, number, string, andAnd, orOr, eq, notEq, lt, ltEq, gt, gtEq, plus, minus, star, slash,
    percent, arrow, dot, comma, lparen, rparen, whitespace, eof]

/-- The kind as it is named in messages. -/
def describe : TokenKind → String
  | ident => "identifier"
  | number => "number"
  | string => "string"
  | andAnd => "`&&`"
  | orOr => "`||`"
  | eq => "`=`"
  | notEq => "`!=`"
  | lt => "`<`"
  | ltEq => "`<=`"
  | gt => "`>`"
  | gtEq => "`>=`"
  | plus => "`+`"
  | minus => "`-`"
  | star => "`*`"
  | slash => "`/`"
  | percent => "`%`"
  | arrow => "`=>`"
  | dot => "`.`"
  | comma => "`,`"
  | lparen => "`(`"
  | rparen => "`)`"
  | whitespace => "whitespace"
  | eof => "end of input"

end TokenKind

/-- One token. The text of a string literal is what it denotes, without quotes and escapes; the
text of any other token is its source. -/
structure Token where
  kind : TokenKind
  text : String
  span : Span
deriving DecidableEq, Repr

/-- Names that stand for a literal and cannot be used as parameters or functions. -/
def isLiteralKeyword (name : String) : Bool :=
  name == "true" || name == "false" || name == "null"

/-- Why a text cannot be split into tokens. -/
inductive LexFault where
  | unexpectedCharacter (c : Char)
  | unterminatedString
  /-- Digits that run into a name. -/
  | malformedNumber (text : String)
deriving DecidableEq, Repr

def LexFault.message : LexFault → String
  | unexpectedCharacter c => "unexpected character: " ++ Text.quoteChar c
  | unterminatedString => "unterminated string literal"
  | malformedNumber text => "malformed number literal: " ++ text

/-- A fault and the stretch of text it is about. -/
structure LexError where
  fault : LexFault
  span : Span
deriving DecidableEq, Repr

def LexError.message (e : LexError) : String :=
  e.fault.message

/-- The tokens of a text in order. The sequence ends at the end of the text or at the first
fault. -/
inductive Tokens where
  | token (first : Token) (rest : Tokens)
  /-- The text ends at this offset. -/
  | done (offset : Nat)
  | fault (error : LexError)
deriving Repr

namespace Tokens

/-- The number of tokens before the end. -/
def length : Tokens → Nat
  | token _ rest => rest.length + 1
  | done _ | fault _ => 0

/-- The tokens as a list, with a token of no text at the end of the input. -/
def toList : Tokens → List Token
  | token first rest => first :: rest.toList
  | done offset => [⟨.eof, "", ⟨offset, offset⟩⟩]
  | fault _ => []

/-- The fault that the sequence ends in, if it does. -/
def error? : Tokens → Option LexError
  | token _ rest => rest.error?
  | done _ => none
  | fault error => some error

/-- The tokens without white space. -/
def significant : Tokens → Tokens
  | token first rest =>
    if first.kind = .whitespace then rest.significant else token first rest.significant
  | done offset => done offset
  | fault error => fault error

end Tokens

end LambdaQuery
