import LambdaQuery.Term
import LambdaQuery.Term.SyntaxError
import LambdaQuery.Token.Lexer

/-!
Reading a query. The grammar is

    query   := IDENT "=>" query | expr
    expr    := operand (OPERATOR operand)*
    operand := primary ("." IDENT)*
    primary := "(" query ")" | IDENT "(" [query ("," query)*] ")" | IDENT
             | NUMBER | "-" NUMBER | STRING | true | false | null

Operators bind by precedence and associate to the left. A name that is not called must be bound
by an enclosing lambda.

Nesting is limited: every nested query, every operator applied and every member read takes one
level of a budget, and gives it back when the expression it belongs to ends. The budget is what
the functions below recurse on. The tree that comes out is measured once more, since parentheses
and chains can nest differently in the tree than in the text.
-/

namespace LambdaQuery

namespace Tokens

/-- The next token. A lexical fault is raised when it is reached, not before. -/
def peek : Tokens → Except ParseError Token
  | token first _ => .ok first
  | done offset => .ok ⟨.eof, "", ⟨offset, offset⟩⟩
  | fault error => .error (.lexical error)

/-- What follows the next token; nothing follows the end. -/
def tail : Tokens → Tokens
  | token _ rest => rest
  | done offset => done offset
  | fault error => fault error

end Tokens

/-- The operator that a token spells. -/
def TokenKind.operator? : TokenKind → Option Operator
  | orOr => some .or
  | andAnd => some .and
  | eq => some .eq
  | notEq => some .ne
  | lt => some .lt
  | ltEq => some .le
  | gt => some .gt
  | gtEq => some .ge
  | plus => some .add
  | minus => some .sub
  | star => some .mul
  | slash => some .div
  | percent => some .mod
  | _ => none

namespace Term

/-- The parameters in scope, the innermost first. -/
abbrev Scope := List Symbol

/-- The innermost parameter of that name. -/
def Scope.find? (scope : Scope) (name : String) : Option Symbol :=
  List.find? (fun symbol => symbol.name == name) scope

namespace Parser

/-- Reading a node off the front of a token sequence: the node and what is left. -/
abbrev Rule := Tokens → Except ParseError (Term Span × Tokens)

/-- The nesting limit is reached at `span`; the report also names the next token. -/
def tooDeep {β : Type} (limit : Nat) (span : Span) (ts : Tokens) : Except ParseError β := do
  let next ← ts.peek
  .error (.grammar ⟨.tooDeep limit, span, next.kind⟩)

/-- The token is not what the grammar asks for. -/
def unexpected {β : Type} (expected : Expectation) (found : Token) : Except ParseError β :=
  .error (.grammar ⟨.unexpected expected found.text, found.span, found.kind⟩)

/-- The member accesses that follow an operand. -/
def members (limit budget : Nat) (receiver : Term Span) (ts : Tokens) :
    Except ParseError (Term Span × Tokens) := do
  let next ← ts.peek
  if next.kind = .dot then
    let name ← ts.tail.peek
    if name.kind = .ident then
      match budget with
      | 0 => tooDeep limit name.span ts.tail.tail
      | budget + 1 =>
        let span : Span := ⟨receiver.note.start, name.span.stop⟩
        members limit budget (.member span receiver name.text) ts.tail.tail
    else
      unexpected .memberName name
  else
    .ok (receiver, ts)
termination_by structural budget

/-- The arguments of a call up to the closing parenthesis, and where that parenthesis ends. An
argument takes at least one token, so that the rest gets shorter. -/
def arguments (query : Rule) (function : Token) (opened : Span)
    (ts : Tokens) : Except ParseError ((List (Term Span) × Nat) × Tokens) := do
  let (arg, rest) ← query ts
  let next ← rest.peek
  if next.kind = .comma then
    if _shorter : rest.tail.length < ts.length then
      let ((args, stop), rest) ← arguments query function opened rest.tail
      .ok ((arg :: args, stop), rest)
    else
      unexpected (.argumentEnd function.text opened) next
  else if next.kind = .rparen then
    .ok (([arg], next.span.stop), rest.tail)
  else
    unexpected (.argumentEnd function.text opened) next
termination_by ts.length

/-- A name that has been read: a call if a parenthesis follows, otherwise a parameter. -/
def named (query : Rule) (limit budget : Nat) (scope : Scope)
    (name : Token) (ts : Tokens) : Except ParseError (Term Span × Tokens) := do
  let next ← ts.peek
  if next.kind = .lparen then
    let first ← ts.tail.peek
    if first.kind = .rparen then
      members limit budget (.call ⟨name.span.start, first.span.stop⟩ name.text []) ts.tail.tail
    else
      let ((args, stop), rest) ← arguments query name next.span ts.tail
      members limit budget (.call ⟨name.span.start, stop⟩ name.text args) rest
  else
    match scope.find? name.text with
    | some symbol => members limit budget (.ident name.span symbol) ts
    | none => .error (.grammar ⟨.unknownIdentifier name.text, name.span, .ident⟩)

/-- One operand with the member accesses behind it. -/
def operand (query : Rule) (limit budget : Nat) (scope : Scope)
    (ts : Tokens) : Except ParseError (Term Span × Tokens) := do
  let first ← ts.peek
  match first.kind with
  | .lparen =>
    let (inner, rest) ← query ts.tail
    let close ← rest.peek
    if close.kind = .rparen then
      let span : Span := ⟨first.span.start, close.span.stop⟩
      members limit budget (inner.withNote span) rest.tail
    else
      unexpected (.closingParen first.span) close
  | .number | .string => members limit budget (.literal first.span (some first.text)) ts.tail
  | .minus =>
    let number ← ts.tail.peek
    if number.kind = .number then
      let span := first.span.merge number.span
      members limit budget (.literal span (some ("-" ++ number.text))) ts.tail.tail
    else
      unexpected .numberAfterMinus number
  | .ident =>
    if first.text == "true" || first.text == "false" then
      members limit budget (.literal first.span (some first.text)) ts.tail
    else if first.text == "null" then
      members limit budget (.literal first.span none) ts.tail
    else
      named query limit budget scope first ts.tail
  | _ => unexpected .expression first

mutual
/-- A lambda if a name and an arrow come first, otherwise an expression. -/
def query (limit budget : Nat) (scope : Scope) (ts : Tokens) :
    Except ParseError (Term Span × Tokens) := do
  let first ← ts.peek
  match budget with
  | 0 => tooDeep limit first.span ts
  | budget + 1 =>
    if first.kind = .ident ∧ isLiteralKeyword first.text = false then
      let next ← ts.tail.peek
      if next.kind = .arrow then
        let symbol : Symbol := ⟨first.span.start, first.text⟩
        let (body, rest) ← query limit budget (symbol :: scope) ts.tail.tail
        .ok (.lambda ⟨first.span.start, body.note.stop⟩ ⟨symbol, first.span⟩ body, rest)
      else
        let (left, rest) ← named (query limit budget scope) limit budget scope first ts.tail
        operators limit budget scope 0 left rest
    else
      let (left, rest) ← operand (query limit budget scope) limit budget scope ts
      operators limit budget scope 0 left rest
termination_by structural budget

/-- The operators of at least the given precedence that follow an operand. -/
def operators (limit budget : Nat) (scope : Scope) (least : Nat) (left : Term Span)
    (ts : Tokens) : Except ParseError (Term Span × Tokens) := do
  let next ← ts.peek
  match next.kind.operator? with
  | none => .ok (left, ts)
  | some op =>
    if op.precedence < least then
      .ok (left, ts)
    else
      match budget with
      | 0 => tooDeep limit next.span ts.tail
      | budget + 1 =>
        let (first, rest) ← operand (query limit budget scope) limit budget scope ts.tail
        let (right, rest) ← operators limit budget scope (op.precedence + 1) first rest
        let span := left.note.merge right.note
        operators limit budget scope least (.binary span op left right) rest
termination_by structural budget
end

mutual
/-- A node that lies deeper than the limit, in a tree whose root lies at the given depth. The
tree is searched from right to left. -/
def tooTall? (limit depth : Nat) (node : Term Span) : Option Span :=
  if limit < depth then
    some node.note
  else
    match node with
    | .lambda _ _ body => tooTall? limit (depth + 1) body
    | .binary _ _ left right =>
      (tooTall? limit (depth + 1) right).or (tooTall? limit (depth + 1) left)
    | .call _ _ args => anyTooTall? limit (depth + 1) args
    | .member _ receiver _ => tooTall? limit (depth + 1) receiver
    | .ident .. | .literal .. => none

def anyTooTall? (limit depth : Nat) : List (Term Span) → Option Span
  | [] => none
  | node :: rest => (anyTooTall? limit depth rest).or (tooTall? limit depth node)
end

end Parser

/-- How deep a query may nest if nothing else is said. -/
def defaultDepth : Nat := 128

/-- Read a whole text as a query that nests no deeper than the limit. -/
def ofText (limit : Nat) (text : String) : Except ParseError (Term Span) := do
  let (tree, rest) ← Parser.query limit limit [] (Tokens.ofText text).significant
  let next ← rest.peek
  if next.kind ≠ .eof then
    Parser.unexpected .endOfInput next
  else
    match Parser.tooTall? limit 1 tree with
    | some span => .error (.grammar ⟨.tooDeep limit, span, .eof⟩)
    | none => .ok tree

end Term

end LambdaQuery
