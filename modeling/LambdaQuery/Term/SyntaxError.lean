import LambdaQuery.Token

/-!
What can be wrong with a query text besides its tokens.
-/

namespace LambdaQuery

/-- What the grammar asks for at some point. -/
inductive Expectation where
  | endOfInput
  | expression
  | numberAfterMinus
  | memberName
  /-- The parenthesis that closes the one opened there. -/
  | closingParen (opened : Span)
  /-- A comma or the end of the argument list of the named function, opened there. -/
  | argumentEnd (function : String) (opened : Span)
deriving DecidableEq, Repr

def Expectation.message : Expectation → String
  | endOfInput => "expected end of input"
  | expression => "expected expression"
  | numberAfterMinus => "expected a number after `-`"
  | memberName => "expected member name after `.`"
  | closingParen _ => "expected `)` to close `(`"
  | argumentEnd .. => "expected `,` or `)` in argument list"

inductive SyntaxFault where
  /-- Something else stands where the grammar asks for this. The text is that of the token found. -/
  | unexpected (expected : Expectation) (text : String)
  /-- A name that no enclosing lambda binds. -/
  | unknownIdentifier (name : String)
  | tooDeep (limit : Nat)
  | tooLong (size limit : Nat)
deriving DecidableEq, Repr

/-- A fault, the stretch of text it is about, and the kind of token found there. -/
structure SyntaxError where
  fault : SyntaxFault
  span : Span
  found : TokenKind
deriving DecidableEq, Repr

namespace SyntaxError

/-- The token found, as a message names it: names and numbers by their text, anything else by
its kind. -/
def foundText (kind : TokenKind) (text : String) : String :=
  match kind with
  | .ident | .number => "`" ++ text ++ "`"
  | kind => kind.describe

def message (e : SyntaxError) : String :=
  match e.fault with
  | .unexpected expected text => expected.message ++ ", found " ++ foundText e.found text
  | .unknownIdentifier name => "unknown identifier `" ++ name ++ "`"
  | .tooDeep limit => "expression nests deeper than " ++ toString limit ++ " levels"
  | .tooLong size limit =>
    "query is " ++ toString size ++ " bytes, the limit is " ++ toString limit

/-- A second place that helps to understand the fault, with a remark on it. -/
def related (e : SyntaxError) : Option (String × Span) :=
  match e.fault with
  | .unexpected (.closingParen opened) _ => some ("`(` opened here", opened)
  | .unexpected (.argumentEnd function opened) _ =>
    some ("call to `" ++ function ++ "` starts here", opened)
  | _ => none

end SyntaxError

/-- Anything that stops a text from being read as a query. -/
inductive ParseError where
  | lexical (error : LexError)
  | grammar (error : SyntaxError)
deriving DecidableEq, Repr

namespace ParseError

def span : ParseError → Span
  | lexical error => error.span
  | grammar error => error.span

def message : ParseError → String
  | lexical error => error.message
  | grammar error => error.message

end ParseError

end LambdaQuery
